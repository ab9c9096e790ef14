import AggregatorBridge.Models
import AggregatorBridge.Lib.Text

/-!
# Documents

What `serde_json` reads a text as, and what derived code makes of it. A document is a `Json` whose
objects have their members as they stand in the text, with repetitions. A `serde_json::Value` is
less: of members with one key it keeps the last (`value`). A double that is not finite is written as
`null` (`written`).

A derived struct is read from an object, in which a known key may stand only once and unknown keys do
not matter, or from an array of its fields in order. Texts, the syntax of JSON itself, are behind
`SerdeJson`, with the texts of times and identifiers.

A map is the list of its members here. The order in which the source's maps give theirs is nothing
that its readers depend on.
-/

namespace AggregatorBridge

namespace Json

variable {F : Type}

/-! ## Writing a document -/

mutual

/-- What a document is read back as when it was written. -/
def written (isFinite : F → Bool) : Json F → Json F
  | null => null
  | bool b => bool b
  | num (.float x) => if isFinite x then num (.float x) else null
  | num n => num n
  | str s => str s
  | arr items => arr (writtenItems isFinite items)
  | obj members => obj (writtenMembers isFinite members)

/-- As `written`, of the elements of an array. -/
def writtenItems (isFinite : F → Bool) : List (Json F) → List (Json F)
  | [] => []
  | v :: items => v.written isFinite :: writtenItems isFinite items

/-- As `written`, of the members of an object, whose keys and order stay. -/
def writtenMembers (isFinite : F → Bool) : List (String × Json F) → List (String × Json F)
  | [] => []
  | (key, v) :: members => (key, v.written isFinite) :: writtenMembers isFinite members

end

mutual

/-- The integers of the document are of 64 bits. -/
def fits : Json F → Bool
  | num (.posInt n) => decide (n < 2 ^ 64)
  | num (.negInt n) => decide (-2 ^ 63 ≤ n) && decide (n < 0)
  | arr items => fitsItems items
  | obj members => fitsMembers members
  | _ => true

/-- All elements of an array fit. -/
def fitsItems : List (Json F) → Bool
  | [] => true
  | v :: items => v.fits && fitsItems items

/-- All values of an object fit; any string is a key. -/
def fitsMembers : List (String × Json F) → Bool
  | [] => true
  | (_, v) :: members => v.fits && fitsMembers members

end

mutual

/-- How many objects and arrays of the document are inside one another. -/
def depth : Json F → Nat
  | arr items => depthItems items + 1
  | obj members => depthMembers members + 1
  | _ => 0

/-- The deepest element counts. -/
def depthItems : List (Json F) → Nat
  | [] => 0
  | v :: items => max v.depth (depthItems items)

/-- The deepest value counts. -/
def depthMembers : List (String × Json F) → Nat
  | [] => 0
  | (_, v) :: members => max v.depth (depthMembers members)

end

/-! ## Values -/

/-- Of the members with one key, the last. -/
def lastWins (members : List (String × Json F)) : List (String × Json F) :=
  members.foldl (fun kept m => insertMember kept m.1 m.2) []

mutual

/-- `serde_json::from_str::<Value>`, from the document. -/
def value : Json F → Json F
  | null => null
  | bool b => bool b
  | num n => num n
  | str s => str s
  | arr items => arr (valueItems items)
  | obj members => obj (lastWins (valueMembers members))

/-- As `value`, of the elements of an array. -/
def valueItems : List (Json F) → List (Json F)
  | [] => []
  | v :: items => v.value :: valueItems items

/-- As `value`, of the members of an object, before they are sorted out. -/
def valueMembers : List (String × Json F) → List (String × Json F)
  | [] => []
  | (key, v) :: members => (key, v.value) :: valueMembers members

end

/-- A document that is a `serde_json::Value`: its keys are distinct, and its doubles finite. -/
structure IsValue (isFinite : F → Bool) (v : Json F) : Prop where
  written : v.written isFinite = v
  value : v.value = v
  fits : v.fits = true

variable {isFinite : F → Bool} {v : Json F} {members : List (String × Json F)}

theorem written_obj : (obj members).written isFinite = obj (writtenMembers isFinite members) := rfl

theorem written_str (s : String) : (str s : Json F).written isFinite = str s := rfl

theorem written_posInt (n : Nat) :
    (num (.posInt n) : Json F).written isFinite = num (.posInt n) := rfl

theorem writtenMembers_eq (same : ∀ m ∈ members, m.2.written isFinite = m.2) :
    writtenMembers isFinite members = members := by
  induction members with
  | nil => rfl
  | cons m members ih =>
    obtain ⟨key, v⟩ := m
    rw [writtenMembers, ih fun m mem => same m (List.mem_cons_of_mem _ mem)]
    rw [same (key, v) List.mem_cons_self]

theorem valueMembers_eq (same : ∀ m ∈ members, m.2.value = m.2) :
    valueMembers members = members := by
  induction members with
  | nil => rfl
  | cons m members ih =>
    obtain ⟨key, v⟩ := m
    rw [valueMembers, ih fun m mem => same m (List.mem_cons_of_mem _ mem)]
    rw [same (key, v) List.mem_cons_self]

theorem fitsMembers_eq (fit : ∀ m ∈ members, m.2.fits = true) : fitsMembers members = true := by
  induction members with
  | nil => rfl
  | cons m members ih =>
    rw [fitsMembers, fit m List.mem_cons_self, ih fun m mem => fit m (List.mem_cons_of_mem _ mem)]
    rfl

/-- The members that are kept so far have none of the keys to come. -/
theorem foldl_insertMember (kept : List (String × Json F))
    (distinct : ((kept ++ members).map Prod.fst).Nodup) :
    members.foldl (fun kept m => insertMember kept m.1 m.2) kept = kept ++ members := by
  induction members generalizing kept with
  | nil => simp
  | cons m members ih =>
    have fresh : kept.filter (fun k => k.1 ≠ m.1) = kept := by
      refine List.filter_eq_self.mpr fun k mem => ?_
      rw [List.map_append, List.nodup_append] at distinct
      simpa using distinct.2.2 k.1 (List.mem_map_of_mem mem) m.1 (by simp)
    rw [List.foldl_cons, insertMember, fresh, ih]
    · simp
    · simpa using distinct

theorem lastWins_eq (distinct : (members.map Prod.fst).Nodup) : lastWins members = members :=
  foldl_insertMember [] distinct

/-- A map of values is a value. -/
theorem IsValue.obj (distinct : (members.map Prod.fst).Nodup)
    (values : ∀ m ∈ members, m.2.IsValue isFinite) : (obj members).IsValue isFinite where
  written := by rw [Json.written, writtenMembers_eq fun m mem => (values m mem).written]
  value := by
    rw [Json.value, valueMembers_eq fun m mem => (values m mem).value, lastWins_eq distinct]
  fits := by rw [Json.fits, fitsMembers_eq fun m mem => (values m mem).fits]

theorem IsValue.str (s : String) : (Json.str s : Json F).IsValue isFinite :=
  ⟨rfl, rfl, rfl⟩

theorem IsValue.null : (Json.null : Json F).IsValue isFinite :=
  ⟨rfl, rfl, rfl⟩

theorem IsValue.posInt {n : Nat} (small : n < 2 ^ 64) :
    (num (.posInt n) : Json F).IsValue isFinite :=
  ⟨rfl, rfl, decide_eq_true small⟩

/-- A double is written as itself or as `null`, which are both values. -/
theorem IsValue.float (x : F) : ((num (.float x)).written isFinite).IsValue isFinite := by
  rw [Json.written]
  split
  · next finite => exact ⟨by rw [Json.written, if_pos finite], rfl, rfl⟩
  · exact IsValue.null

theorem asF64_written_float [Float64 F] (x : F) :
    ((num (.float x)).written isFinite).asF64 = if isFinite x then some x else none := by
  rw [Json.written]
  split <;> rfl

/-! ## Derived readers -/

/-- A field of a derived struct stands there once, or not at all. -/
def single (members : List (String × Json F)) (key : String) : Option (Option (Json F)) :=
  match members.filter (fun m => m.1 = key) with
  | [] => some none
  | [m] => some (some m.2)
  | _ => none

/-- The fields of a derived struct, of an object or in order. -/
def fields (names : List String) : Json F → Option (List (Option (Json F)))
  | obj members => names.mapM (single members)
  | arr items =>
    if items.length ≤ names.length then some ((List.range names.length).map fun i => items[i]?)
    else none
  | _ => none

/-- An internally tagged enum: its tag and what else there is. -/
def tagged (tag : String) : Json F → Option (String × Json F)
  | obj members =>
    match single members tag with
    | some (some (str name)) => some (name, obj (members.filter fun m => m.1 ≠ tag))
    | _ => none
  | arr (str name :: items) => some (name, arr items)
  | _ => none

/-- A variant without data is its name, or an object of its name and `null`. -/
def variantName : Json F → Option String
  | str name => some name
  | obj [(name, null)] => some name
  | _ => none

end Json

/-- What `serde_json`, `chrono` and `uuid` read and write. -/
structure SerdeJson (F : Type) where
  isFinite : F → Bool
  /-- The document of a text, if it is JSON. -/
  fromStr : String → Option (Json F)
  toString : Json F → String
  uuid : UuidCodec
  parseTime : String → Option DateTime
  displayTime : DateTime → String

namespace SerdeJson

variable {F : Type} (json : SerdeJson F)

/-- `serde_json::from_slice`, as a document. -/
def fromSlice (bytes : List UInt8) : Option (Json F) :=
  (Text.ofUtf8 bytes).bind json.fromStr

/-- `serde_json::to_vec`. -/
def toVec (v : Json F) : List UInt8 :=
  Text.utf8 (json.toString v)

/-- What is written is read back, up to doubles that are not finite. -/
structure RoundTrips : Prop where
  texts : ∀ v : Json F, v.fits = true →
    json.fromStr (json.toString v) = some (v.written json.isFinite)
  uuids : ∀ id, json.uuid.parseStr (json.uuid.display id) = some id
  times : ∀ t, json.parseTime (json.displayTime t) = some t

/-- `serde_json` refuses what is 128 levels deep. -/
def recursionLimit : Nat := 127

/-- What is written is read back, as long as it is not nested too deep to be read at all. -/
structure RoundTripsWithin (limit : Nat) : Prop where
  texts : ∀ v : Json F, v.fits = true → v.depth ≤ limit →
    json.fromStr (json.toString v) = some (v.written json.isFinite)
  uuids : ∀ id, json.uuid.parseStr (json.uuid.display id) = some id
  times : ∀ t, json.parseTime (json.displayTime t) = some t

variable {json}

/-- A reader without a limit has every limit. -/
theorem RoundTrips.within (trips : json.RoundTrips) (limit : Nat) : json.RoundTripsWithin limit where
  texts v fits _ := trips.texts v fits
  uuids := trips.uuids
  times := trips.times

theorem RoundTripsWithin.bytes {limit : Nat} (trips : json.RoundTripsWithin limit) {v : Json F}
    (fits : v.fits = true) (shallow : v.depth ≤ limit) :
    json.fromSlice (json.toVec v) = some (v.written json.isFinite) := by
  rw [fromSlice, toVec, Text.ofUtf8_utf8, Option.bind_some, trips.texts v fits shallow]

end SerdeJson

end AggregatorBridge
