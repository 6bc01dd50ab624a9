/-! JSON values without fractions, and lookups in them. -/
namespace PatternFinder

/-- A JSON value whose numbers are natural numbers. An object lists its members in writing order. -/
inductive Json where
  | null
  | bool (b : Bool)
  | number (n : Nat)
  | string (s : String)
  | array (items : List Json)
  | object (members : List (String × Json))
deriving Repr, BEq, Inhabited

namespace Json

/-- The member of an object with the given key. -/
def get? (key : String) : Json → Option Json
  | .object members => members.lookup key
  | _ => none

def asBool? : Json → Option Bool
  | .bool b => some b
  | _ => none

def asNat? : Json → Option Nat
  | .number n => some n
  | _ => none

def asString? : Json → Option String
  | .string s => some s
  | _ => none

def asArray? : Json → Option (List Json)
  | .array items => some items
  | _ => none

def asObject? : Json → Option (List (String × Json))
  | .object members => some members
  | _ => none

/-- A required member, read by `read`. -/
def required {α : Type} (key : String) (read : Json → Option α) (j : Json) : Option α :=
  (j.get? key).bind read

/-- A member that may be left out or `null`. -/
def optional {α : Type} (key : String) (read : Json → Option α) (j : Json) : Option (Option α) :=
  match j.get? key with
  | none | some .null => some none
  | some v => (read v).map some

/-- A list whose elements are read by `read`. -/
def list {α : Type} (read : Json → Option α) (j : Json) : Option (List α) :=
  j.asArray?.bind (·.mapM read)

def ofOption {α : Type} (write : α → Json) : Option α → Json
  | none => .null
  | some a => write a

def ofList {α : Type} (write : α → Json) (xs : List α) : Json := .array (xs.map write)

mutual

/-- The number of levels of a value; a scalar has one. -/
def height : Json → Nat
  | .array items => heightItems items + 1
  | .object members => heightMembers members + 1
  | _ => 1

def heightItems : List Json → Nat
  | [] => 0
  | j :: js => max (height j) (heightItems js)

def heightMembers : List (String × Json) → Nat
  | [] => 0
  | (_, j) :: js => max (height j) (heightMembers js)

end

end Json

end PatternFinder
