/-! Values of a TOML document. -/
namespace PatternFinder

/-- A float and a date are kept as text, because no setting reads them. -/
inductive Toml where
  | string (s : String)
  | integer (n : Int)
  | float (text : String)
  | boolean (b : Bool)
  | datetime (text : String)
  | array (items : List Toml)
  | table (entries : List (String × Toml))
deriving Repr, BEq, Inhabited

namespace Toml

/-- The integers that a document can hold: those of sixty-four bits, one of them for the sign. -/
def IsWord (n : Int) : Prop := -0x8000000000000000 ≤ n ∧ n < 0x8000000000000000

instance (n : Int) : Decidable (IsWord n) := inferInstanceAs (Decidable (_ ∧ _))

def asString? : Toml → Option String
  | .string s => some s
  | _ => none

def asBool? : Toml → Option Bool
  | .boolean b => some b
  | _ => none

/-- Refuses a negative number. -/
def asNat? : Toml → Option Nat
  | .integer (.ofNat n) => some n
  | _ => none

def asStrings? : Toml → Option (List String)
  | .array items => items.mapM asString?
  | _ => none

/-- The key under which a date shows its text where entries are expected. -/
def datetimeKey : String := "$__toml_private_datetime"

/-- The entries of a table. A date counts as a table with its text as the only entry. -/
def entries? : Toml → Option (List (String × Toml))
  | .table entries => some entries
  | .datetime text => some [(datetimeKey, .string text)]
  | _ => none

/-- The entries of a record with the given fields, which may also be written as an array of values
in the order of the fields. -/
def fields? (names : List String) : Toml → Option (List (String × Toml))
  | .array items => some (names.zip items)
  | other => other.entries?

/-- Read the value of a key that may be absent. -/
def optional? {α : Type} (entries : List (String × Toml)) (key : String)
    (read : Toml → Option α) : Option (Option α) :=
  match entries.lookup key with
  | none => some none
  | some v => (read v).map some

/-- Read a list of strings; an absent one is empty. -/
def strings? (entries : List (String × Toml)) (key : String) : Option (List String) :=
  (optional? entries key asStrings?).map (·.getD [])

/-- The entry of a value that may be absent. -/
def entry {α : Type} (key : String) (write : α → Toml) : Option α → List (String × Toml)
  | none => []
  | some a => [(key, write a)]

def ofStrings (xs : List String) : Toml := .array (xs.map .string)

def ofNat (n : Nat) : Toml := .integer n

end Toml

end PatternFinder
