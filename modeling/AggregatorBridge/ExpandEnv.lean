import AggregatorBridge.Lib.Remote

/-!
# Expansion of the configuration

The addresses of other services come from the environment and may refer to it again. `expand_env`
replaces the first `${NAME}` of a string by the value of the variable, and then looks for the first
one again, from the beginning and also in what it has put in. It stops where there is no `${`, and
where the first one is not closed.

Strings are lists of characters here. The source has offsets of bytes, but they are all next to
characters of one byte. An environment are the variables that are set, to text; all others are
read as empty. The loop has no bound of its own, and the fuel counts its rounds.
-/

namespace AggregatorBridge

open Remote

/-- The variables of the process, which stay as they are during an expansion. -/
abbrev Environment := Hash String String

/-- `find("${")`. -/
def findOpen : List Char → Option Nat
  | '$' :: '{' :: _ => some 0
  | _ :: rest => (findOpen rest).map (· + 1)
  | [] => none

/-- `std::env::var(name).unwrap_or_else(|_| "".to_string())`. -/
def envVar (env : Environment) (name : List Char) : List Char :=
  ((AList.lookup (String.ofList name) env).getD "").toList

/-- One round of the loop: the string after `replace_range`, or nothing where the loop ends. -/
def expandRound (env : Environment) (result : List Char) : Option (List Char) := do
  let start ← findOpen result
  let rest := result.drop (start + 2)
  let endOffset ← rest.findIdx? (· == '}')
  let varName := rest.take endOffset
  some (result.take start ++ envVar env varName ++ result.drop (start + 2 + endOffset + 1))

/-- The loop of the source with a bound on its rounds; `none` says that it was not enough. -/
def expandLoop (env : Environment) : Nat → List Char → Option (List Char)
  | 0, _ => none
  | fuel + 1, result =>
    match expandRound env result with
    | some next => expandLoop env fuel next
    | none => some result

/-- `expand_env`, where `fuel` rounds suffice. -/
def expandEnv (env : Environment) (fuel : Nat) (s : String) : Option String :=
  (expandLoop env fuel s.toList).map String.ofList

end AggregatorBridge
