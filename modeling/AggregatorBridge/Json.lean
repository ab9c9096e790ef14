import Mathlib.Data.List.Nodup
import Mathlib.Algebra.Field.Rat

/-!
# Doubles and JSON values

Payloads reach the bridge as `serde_json::Value`s and their numbers are read as `f64`. The
model is generic in the type of doubles: the code only ever converts, scales, subtracts,
parses and prints them, so `Float64` names exactly those operations, and a theorem over every
carrier holds of the machine's doubles without a word about rounding. Where a result does
need exact scaling, it says so with `ExactScaling`; the rationals are the carrier on which
that holds and on which concrete payloads are evaluated.

A JSON object is the list of its members in some order. `serde_json` keeps the keys distinct
(a repeated key keeps its last value), which `JsonObject` carries as a field; the order is
only visible to code that iterates over a `HashMap` of the members, where it is arbitrary.
-/

namespace AggregatorBridge

/-- The operations on `f64` that the bridge uses. -/
class Float64 (F : Type) where
  ofInt : Int → F
  mul : F → F → F
  div : F → F → F
  sub : F → F → F
  /-- `str::parse::<f64>().ok()`. -/
  parse : String → Option F
  display : F → String

/-- Scaling a double by a thousand and back loses nothing. -/
class ExactScaling (F : Type) [Float64 F] : Prop where
  mul_div_thousand : ∀ x : F,
    Float64.div (Float64.mul x (Float64.ofInt 1000)) (Float64.ofInt 1000) = x
  zero_div_thousand :
    Float64.div (Float64.ofInt 0 : F) (Float64.ofInt 1000) = Float64.ofInt 0

/-- The rationals as doubles without rounding. Whole numbers are parsed and printed as Rust
parses and prints them; a fraction prints as its quotient. -/
instance : Float64 ℚ where
  ofInt n := n
  mul := (· * ·)
  div := (· / ·)
  sub := (· - ·)
  parse s := s.toInt?.map fun n => (n : ℚ)
  display q := if q.den = 1 then toString q.num else toString q.num ++ "/" ++ toString q.den

instance : ExactScaling ℚ where
  mul_div_thousand x := by
    show x * ((1000 : Int) : ℚ) / ((1000 : Int) : ℚ) = x
    exact mul_div_cancel_right₀ x (by decide)
  zero_div_thousand := by
    show ((0 : Int) : ℚ) / ((1000 : Int) : ℚ) = ((0 : Int) : ℚ)
    simp

/-- A `serde_json::Number`: an unsigned or a negative machine integer, or a double. -/
inductive JsonNumber (F : Type) where
  | posInt (n : Nat)
  | negInt (n : Int)
  | float (x : F)

namespace JsonNumber

variable {F : Type} [Float64 F]

/-- Every number has a double, though a large integer only an approximate one. -/
def asF64 : JsonNumber F → F
  | posInt n => Float64.ofInt n
  | negInt n => Float64.ofInt n
  | float x => x

/-- Only what was written without sign, point or exponent counts as unsigned. -/
def asU64 : JsonNumber F → Option Nat
  | posInt n => some n
  | _ => none

/-- The integers of either sign that fit; a double is none, also where it is whole. -/
def asI64 : JsonNumber F → Option Int
  | posInt n => if n < 2 ^ 63 then some n else none
  | negInt n => some n
  | float _ => none

end JsonNumber

/-- A `serde_json::Value`. -/
inductive Json (F : Type) where
  | null
  | bool (b : Bool)
  | num (n : JsonNumber F)
  | str (s : String)
  | arr (items : List (Json F))
  | obj (members : List (String × Json F))

namespace Json

variable {F : Type} [Float64 F]

/-- `Value::get(key)`: a member of an object, `None` on every other value. -/
def get (v : Json F) (key : String) : Option (Json F) :=
  match v with
  | obj members => members.lookup key
  | _ => none

/-- `Value::as_f64`: text that looks like a number is not one. -/
def asF64 : Json F → Option F
  | num n => some n.asF64
  | _ => none

def asU64 : Json F → Option Nat
  | num n => n.asU64
  | _ => none

def asI64 : Json F → Option Int
  | num n => n.asI64
  | _ => none

/-- `Value::as_str`: a number is not turned into text. -/
def asStr : Json F → Option String
  | str s => some s
  | _ => none

def asArray : Json F → Option (List (Json F))
  | arr items => some items
  | _ => none

def asObject : Json F → Option (List (String × Json F))
  | obj members => some members
  | _ => none

/-- `HashMap::insert`: the new value replaces the one under the same key. -/
def insertMember (members : List (String × Json F)) (key : String) (value : Json F) :
    List (String × Json F) :=
  members.filter (fun m => m.1 ≠ key) ++ [(key, value)]

end Json

/-- A JSON object: its members in some order, their keys distinct. -/
structure JsonObject (F : Type) where
  members : List (String × Json F)
  distinct : (members.map Prod.fst).Nodup

/-- An object as a document again. -/
def JsonObject.value {F : Type} (o : JsonObject F) : Json F :=
  .obj o.members

end AggregatorBridge
