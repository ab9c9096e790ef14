import AggregatorBridge.Lib.Pool
import AggregatorBridge.MintOutbox

/-!
# Mint attempts that overlap

The settlement sweep attempts every mint it enqueues, and the drain loop attempts what is still
in the outbox, so the same mint may be attempted twice at a time. `MintInFlight` is the set of
keys with an attempt under way: an attempt claims its key first and gives up if the key is taken,
and a guard gives the key back when it is dropped.

`attempt_mint` is `attempt_mint_batch` for one entry: both claim a key, look the wallet up while
they hold it, give it back if there is no use for it, publish what is left, and keep their guards
until they are done. A call is a process here, with every look at the set, every lookup and the
publish as a move. A call that panics unwinds, which drops its guards like a return does, one
after the other.
-/

namespace AggregatorBridge

/-- A call of `attempt_mint` or `attempt_mint_batch`. -/
inductive MintCall where
  /-- Next is the first of `pending`; `inputs` are those that will be published, with guards. -/
  | claiming (pending inputs : List PendingMint)
  /-- The key of `p` is claimed, and its wallet is being looked up. -/
  | resolving (p : PendingMint) (pending inputs : List PendingMint)
  /-- There is no wallet for `p`, or none that is valid: its guard is dropped. -/
  | skipping (p : PendingMint) (pending inputs : List PendingMint)
  /-- Published, and waiting for an acknowledgement, a reply or the write-back. -/
  | outstanding (inputs : List PendingMint)
  /-- The call returns or unwinds, with these guards still to be dropped. What it published, if it
  came that far, is `sent`. -/
  | dropping (sent guards : List PendingMint)
  deriving DecidableEq

namespace MintCall

/-- An attempt at one mint begins with its claim. -/
def attemptMint (p : PendingMint) : MintCall :=
  .claiming [p] []

/-- An attempt at several claims them one by one, the lookups of earlier ones in between. -/
def attemptMintBatch (pending : List PendingMint) : MintCall :=
  .claiming pending []

/-- The entries whose guards a call holds. -/
def guards : MintCall → List PendingMint
  | claiming _ inputs => inputs
  | resolving p _ inputs => p :: inputs
  | skipping p _ inputs => p :: inputs
  | outstanding inputs => inputs
  | dropping _ guards => guards

/-- What a call has published. -/
def sent : MintCall → List PendingMint
  | outstanding inputs => inputs
  | dropping sent _ => sent
  | _ => []

/-- The keys that a call has claimed and not given back. -/
def held (call : MintCall) : List String :=
  call.guards.map PendingMint.field

/-- The call has returned, and all its guards are dropped. -/
def ended : MintCall → Bool
  | dropping _ [] => true
  | _ => false

/-- The keys for which this call has a publish outstanding, if a publish is outstanding until the
call returns. A batch returns when the last of its guards is dropped. -/
def unreturned (call : MintCall) : List String :=
  if call.ended then [] else call.sent.map PendingMint.field

/-- The keys for which this call has a publish outstanding, if a publish is outstanding until the
guard of its key is dropped. -/
def published (call : MintCall) : List String :=
  if call.sent = [] then [] else call.held

end MintCall

namespace MintInFlight

/-- A look at the set, a lookup, the publish and its answer, and the drop of a guard, each as a step
of its own. -/
inductive Move where
  | claim
  /-- The lookup found a valid wallet, or it did not. -/
  | wallet (usable : Bool)
  /-- A guard is dropped. -/
  | release
  /-- The publish goes out. -/
  | send
  /-- The body of the call is over: nothing to publish, an error on the way to the publish, a
  reply, or a timeout. -/
  | finish
  /-- The call panics, or its future is dropped. -/
  | panic

/-- `try_begin`: the key, if nobody has it. -/
def tryBegin (keys : List String) (key : String) : Option (List String) :=
  if key ∈ keys then none else some (key :: keys)

/-- A key that is taken is left out of the batch; that is not an error. -/
def claim (keys : List String) (p : PendingMint) (pending inputs : List PendingMint) :
    List String × MintCall :=
  match tryBegin keys p.field with
  | some keys => (keys, .resolving p pending inputs)
  | none => (keys, .claiming pending inputs)

/-- The moves of a call. A guard is dropped where its entry is given up, or with the call. -/
def act (keys : List String) : MintCall → Move → Option (List String × MintCall)
  | .claiming (p :: pending) inputs, .claim => some (claim keys p pending inputs)
  | .resolving p pending inputs, .wallet true => some (keys, .claiming pending (inputs ++ [p]))
  | .resolving p pending inputs, .wallet false => some (keys, .skipping p pending inputs)
  | .skipping p pending inputs, .release => some (keys.erase p.field, .claiming pending inputs)
  | .claiming [] (p :: inputs), .send => some (keys, .outstanding (p :: inputs))
  | .claiming [] inputs, .finish => some (keys, .dropping [] inputs)
  | .outstanding inputs, .finish => some (keys, .dropping inputs inputs)
  | .dropping sent (p :: guards), .release => some (keys.erase p.field, .dropping sent guards)
  | .dropping _ _, .panic => none
  | call, .panic => some (keys, .dropping call.sent call.guards)
  | _, _ => none

/-- Any number of calls that share one set. -/
def system : Pool.System (List String) MintCall Move Empty where
  admits
    | .claiming _ [] => true
    | _ => false
  act := act
  world _ e := e.elim

/-- What a move of a call can be. -/
inductive Acts (keys : List String) : MintCall → Move → List String → MintCall → Prop
  | taken {p : PendingMint} {pending inputs : List PendingMint} (here : p.field ∈ keys) :
      Acts keys (.claiming (p :: pending) inputs) .claim keys (.claiming pending inputs)
  | claimed {p : PendingMint} {pending inputs : List PendingMint} (free : p.field ∉ keys) :
      Acts keys (.claiming (p :: pending) inputs) .claim (p.field :: keys)
        (.resolving p pending inputs)
  | resolved {p : PendingMint} {pending inputs : List PendingMint} :
      Acts keys (.resolving p pending inputs) (.wallet true) keys (.claiming pending (inputs ++ [p]))
  | unresolved {p : PendingMint} {pending inputs : List PendingMint} :
      Acts keys (.resolving p pending inputs) (.wallet false) keys (.skipping p pending inputs)
  | skipped {p : PendingMint} {pending inputs : List PendingMint} :
      Acts keys (.skipping p pending inputs) .release (keys.erase p.field) (.claiming pending inputs)
  | sent {inputs : List PendingMint} (some_ : inputs ≠ []) :
      Acts keys (.claiming [] inputs) .send keys (.outstanding inputs)
  | unsent {inputs : List PendingMint} :
      Acts keys (.claiming [] inputs) .finish keys (.dropping [] inputs)
  | answered {inputs : List PendingMint} :
      Acts keys (.outstanding inputs) .finish keys (.dropping inputs inputs)
  | dropped {p : PendingMint} {sent guards : List PendingMint} :
      Acts keys (.dropping sent (p :: guards)) .release (keys.erase p.field) (.dropping sent guards)
  | panicked {call : MintCall} : Acts keys call .panic keys (.dropping call.sent call.guards)

variable {keys later : List String} {call next : MintCall} {m : Move}

theorem act_claim_free {p : PendingMint} {pending inputs : List PendingMint}
    (free : p.field ∉ keys) :
    act keys (.claiming (p :: pending) inputs) .claim =
      some (p.field :: keys, .resolving p pending inputs) := by
  simp only [act, claim, tryBegin, if_neg free]

theorem act_claim_taken {p : PendingMint} {pending inputs : List PendingMint}
    (here : p.field ∈ keys) :
    act keys (.claiming (p :: pending) inputs) .claim = some (keys, .claiming pending inputs) := by
  simp only [act, claim, tryBegin, if_pos here]

/-- Every move of a call is one of these. -/
theorem acts_of_act (acted : act keys call m = some (later, next)) :
    Acts keys call m later next := by
  unfold act at acted
  split at acted
  case h_1 p pending inputs =>
    unfold claim tryBegin at acted
    by_cases here : p.field ∈ keys
    · simp only [if_pos here] at acted
      cases acted
      exact .taken here
    · simp only [if_neg here] at acted
      cases acted
      exact .claimed here
  case h_2 =>
    cases acted
    exact .resolved
  case h_3 =>
    cases acted
    exact .unresolved
  case h_4 =>
    cases acted
    exact .skipped
  case h_5 =>
    cases acted
    exact .sent (List.cons_ne_nil _ _)
  case h_6 =>
    cases acted
    exact .unsent
  case h_7 =>
    cases acted
    exact .answered
  case h_8 =>
    cases acted
    exact .dropped
  case h_9 => cases acted
  case h_10 =>
    cases acted
    exact .panicked
  case h_11 => cases acted

end MintInFlight

end AggregatorBridge
