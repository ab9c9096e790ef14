import AggregatorBridge.Lib.Expiring
import AggregatorBridge.Lib.Pool

/-!
# API keys

`api_key_auth` stands in front of every ingest route. It asks IAM about a key at most once per
lifetime of a verdict, keeps the verdicts in a cache of the process, and falls back to a static
list when IAM cannot be reached.

Requests overlap, so a request is a process: the cache lookup, the answer of IAM, the decision
and the locked section of `cache_store` are its moves. `cache_store` reads the clock before it
takes the lock, and everything may happen between the two. Whether the breaker lets a request
through to IAM, and what IAM says, is up to the world; the breaker's own code is not part of the
repository.

`stored` is a ghost: which request stored which verdict, and when.
-/

namespace AggregatorBridge

open Remote Expiring

/-! ## The policy -/

/-- What asking IAM came to. An outage is a verdict of its own, so that it is never taken for a
refusal. -/
inductive IamVerdict where
  | authorized
  /-- IAM said no. This is not a failure to say something. -/
  | rejected
  /-- IAM could not be reached, was not asked, or is not configured. -/
  | unavailable
  deriving DecidableEq, Repr

/-- What a verdict of IAM leads to; only an outage leaves the decision to the static keys. -/
inductive PostIam where
  | allow
  | deny
  | tryStatic
  deriving DecidableEq, Repr

/-- The table of `post_iam_action`. -/
def postIamAction : IamVerdict → PostIam
  | .authorized => .allow
  | .rejected => .deny
  | .unavailable => .tryStatic

/-- What is written to the cache after IAM was consulted, if anything. -/
def cacheVerdictFor : PostIam → Option Bool
  | .allow => some true
  | .deny => some false
  | .tryStatic => none

/-- The configuration: `API_KEY_POS_CACHE_TTL_SECS` and `API_KEY_NEG_CACHE_TTL_SECS`, in
nanoseconds, the static keys, and whether there is a breaker and a client. -/
structure AuthConfig where
  positiveTtl : Nat
  negativeTtl : Nat
  apiKeys : List String
  breaker : Bool
  identityClient : Bool

namespace AuthConfig

variable (cfg : AuthConfig)

/-- Refusals may be kept for another time than grants. -/
def ttl (valid : Bool) : Nat :=
  if valid then cfg.positiveTtl else cfg.negativeTtl

end AuthConfig

/-- What a request meets on its way to IAM: the breaker's `should_allow`, and the `valid` flag
of the response or a connection error. -/
structure IamReply where
  shouldAllow : Bool
  response : Except String Bool

/-- The verdict that a request gets. An open breaker spares the round trip. -/
def iamVerdict (cfg : AuthConfig) (reply : IamReply) : IamVerdict :=
  if cfg.breaker && !reply.shouldAllow then .unavailable
  else if cfg.identityClient then
    match reply.response with
    | .ok true => .authorized
    | .ok false => .rejected
    | .error _ => .unavailable
  else .unavailable

/-! ## Requests -/

/-- How a request was answered: let through, or with 401. -/
structure AuthAnswer where
  key : Option String
  /-- The verdict this request got, if it came to that. -/
  verdict : Option IamVerdict
  passed : Bool
  time : Instant
  deriving DecidableEq

/-- Where a request is in `api_key_auth`. Between two stages other requests move, and the clock goes
on. -/
inductive AuthStage where
  | arrived (apiKey : Option String)
  /-- The cache has no verdict. -/
  | missed (key : String)
  | decided (key : String) (verdict : IamVerdict)
  /-- `cache_store` has read the clock and waits for the lock. -/
  | storing (key : String) (verdict : IamVerdict) (valid : Bool) (now : Instant)
  | answered (answer : AuthAnswer)
  | panicked
  deriving DecidableEq

/-- A verdict in the cache, with the verdict of the request that stored it. -/
structure StoredVerdict where
  key : String
  verdict : IamVerdict
  valid : Bool
  since : Instant
  deriving DecidableEq

/-- What the requests share: the clock and the cache, with a record of every verdict that was ever
stored. -/
structure AuthState where
  clock : Instant
  cache : Cache String Bool
  stored : List StoredVerdict

namespace ApiKeyAuth

/-- A process that has seen no key. -/
def init : AuthState :=
  ⟨0, ∅, []⟩

/-- A request looks into the cache, hears from IAM, decides, and stores its verdict, each as a step
of its own. -/
inductive Move where
  | lookup
  | iam (reply : IamReply)
  | decide
  | store

variable (cfg : AuthConfig)

/-- `cache_lookup`, and the fast path behind it. -/
def lookup (s : AuthState) (key : String) : AuthState × AuthStage :=
  match get s.clock key s.cache with
  | (some valid, cache) => ({ s with cache := cache }, .answered ⟨some key, none, valid, s.clock⟩)
  | (none, cache) => ({ s with cache := cache }, .missed key)

/-- From the verdict to the next store, or to the end. The static list is only looked at when
there is no verdict to cache. -/
def decision (s : AuthState) (key : String) (verdict : IamVerdict) : AuthStage :=
  match cacheVerdictFor (postIamAction verdict) with
  | some valid => .storing key verdict valid s.clock
  | none =>
    if key ∈ cfg.apiKeys then .storing key verdict true s.clock
    else .answered ⟨some key, some verdict, false, s.clock⟩

/-- Where a request that has stored a verdict ends. One without a verdict of IAM was on the
static list. -/
def passes : PostIam → Bool
  | .allow => true
  | .deny => false
  | .tryStatic => true

/-- The locked section of `cache_store`: drop what has expired, then insert. -/
def store (s : AuthState) (key : String) (verdict : IamVerdict) (valid : Bool) (now : Instant) :
    AuthState × AuthStage :=
  let cache := prune now s.cache
  match after now (cfg.ttl valid) with
  | some expires =>
    ({ s with
        cache := AList.insert key ⟨valid, expires⟩ cache
        stored := s.stored ++ [⟨key, verdict, valid, now⟩] },
      .answered ⟨some key, some verdict, passes (postIamAction verdict), s.clock⟩)
  | none => ({ s with cache := cache }, .panicked)

/-- The moves in the order of the source; a request whose header has no key is answered at its
first. -/
def act (s : AuthState) : AuthStage → Move → Option (AuthState × AuthStage)
  | .arrived none, .lookup => some (s, .answered ⟨none, none, false, s.clock⟩)
  | .arrived (some key), .lookup => some (lookup s key)
  | .missed key, .iam reply => some (s, .decided key (iamVerdict cfg reply))
  | .decided key verdict, .decide => some (s, decision cfg s key verdict)
  | .storing key verdict valid now, .store => some (store cfg s key verdict valid now)
  | _, _ => none

/-- Any number of requests, and a clock that goes on. -/
def system : Pool.System AuthState AuthStage Move Nat where
  admits
    | .arrived _ => true
    | _ => false
  act := act cfg
  world s duration := some { s with clock := s.clock + duration }

/-- What a move of a request can be. -/
inductive Acts (s : AuthState) : AuthStage → Move → AuthState → AuthStage → Prop
  | noKey : Acts s (.arrived none) .lookup s (.answered ⟨none, none, false, s.clock⟩)
  | hit {key : String} {valid : Bool} (found : (get s.clock key s.cache).1 = some valid) :
      Acts s (.arrived (some key)) .lookup { s with cache := (get s.clock key s.cache).2 }
        (.answered ⟨some key, none, valid, s.clock⟩)
  | miss {key : String} (absent : (get s.clock key s.cache).1 = none) :
      Acts s (.arrived (some key)) .lookup { s with cache := (get s.clock key s.cache).2 }
        (.missed key)
  | iam {key : String} {reply : IamReply} :
      Acts s (.missed key) (.iam reply) s (.decided key (iamVerdict cfg reply))
  | cacheable {key : String} {verdict : IamVerdict} {valid : Bool}
      (known : cacheVerdictFor (postIamAction verdict) = some valid) :
      Acts s (.decided key verdict) .decide s (.storing key verdict valid s.clock)
  | listed {key : String} (known : key ∈ cfg.apiKeys) :
      Acts s (.decided key .unavailable) .decide s (.storing key .unavailable true s.clock)
  | unlisted {key : String} (unknown : key ∉ cfg.apiKeys) :
      Acts s (.decided key .unavailable) .decide s
        (.answered ⟨some key, some .unavailable, false, s.clock⟩)
  | store {key : String} {verdict : IamVerdict} {valid : Bool} {now expires : Instant}
      (fits : after now (cfg.ttl valid) = some expires) :
      Acts s (.storing key verdict valid now) .store
        { s with
          cache := AList.insert key ⟨valid, expires⟩ (prune now s.cache)
          stored := s.stored ++ [⟨key, verdict, valid, now⟩] }
        (.answered ⟨some key, some verdict, passes (postIamAction verdict), s.clock⟩)
  | overflow {key : String} {verdict : IamVerdict} {valid : Bool} {now : Instant} :
      Acts s (.storing key verdict valid now) .store { s with cache := prune now s.cache } .panicked

variable {cfg} {s t : AuthState} {p q : AuthStage} {m : Move}

theorem acts_of_lookup {key : String} (moved : lookup s key = (t, q)) :
    Acts cfg s (.arrived (some key)) .lookup t q := by
  unfold lookup at moved
  split at moved
  · next valid cache found =>
    cases moved
    have hit : Acts cfg s (.arrived (some key)) .lookup _
        (.answered ⟨some key, none, valid, s.clock⟩) :=
      .hit (congrArg Prod.fst found)
    rwa [congrArg Prod.snd found] at hit
  · next cache found =>
    cases moved
    have miss : Acts cfg s (.arrived (some key)) .lookup _ (.missed key) :=
      .miss (congrArg Prod.fst found)
    rwa [congrArg Prod.snd found] at miss

theorem acts_of_decision {key : String} {verdict : IamVerdict} :
    Acts cfg s (.decided key verdict) .decide s (decision cfg s key verdict) := by
  unfold decision
  split
  · next valid known => exact .cacheable known
  · next unknown =>
    cases verdict with
    | authorized => cases unknown
    | rejected => cases unknown
    | unavailable =>
      split
      · next known => exact .listed known
      · next absent => exact .unlisted absent

theorem acts_of_store {key : String} {verdict : IamVerdict} {valid : Bool} {now : Instant}
    (moved : store cfg s key verdict valid now = (t, q)) :
    Acts cfg s (.storing key verdict valid now) .store t q := by
  unfold store at moved
  split at moved
  · next expires fits =>
    cases moved
    exact .store fits
  · cases moved
    exact .overflow

/-- Every move of a request is one of these; what follows about runs is read off the cases. -/
theorem acts_of_act (moved : act cfg s p m = some (t, q)) : Acts cfg s p m t q := by
  unfold act at moved
  split at moved
  · cases moved
    exact .noKey
  · exact acts_of_lookup (Option.some.inj moved)
  · cases moved
    exact .iam
  · cases moved
    exact acts_of_decision
  · exact acts_of_store (Option.some.inj moved)
  · cases moved

end ApiKeyAuth

end AggregatorBridge
