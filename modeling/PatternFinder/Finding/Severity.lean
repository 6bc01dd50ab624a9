import PatternFinder.Text.Basic

/-! How much a finding matters. -/
namespace PatternFinder

inductive Severity where
  | error | warning | info | hint
deriving Repr, BEq, ReflBEq, LawfulBEq, DecidableEq, Inhabited

namespace Severity

def all : List Severity := [.error, .warning, .info, .hint]

theorem mem_all (s : Severity) : s ∈ all := by
  cases s <;> decide

def name : Severity → String
  | .error => "error"
  | .warning => "warning"
  | .info => "info"
  | .hint => "hint"

/-- The most severe comes first. -/
def rank : Severity → Nat
  | .error => 0
  | .warning => 1
  | .info => 2
  | .hint => 3

/-- The severity with exactly this name. -/
def ofExactName? (s : String) : Option Severity := all.find? (·.name == s)

/-- Like `ofExactName?`, but case and surrounding blanks do not matter. -/
def ofName? (s : String) : Option Severity := ofExactName? (Text.lowerAscii (Text.trim s))

@[simp] theorem ofName?_name (s : Severity) : ofName? s.name = some s := by
  cases s <;> decide

def atLeast (s minimum : Severity) : Bool := s.rank ≤ minimum.rank

end Severity

end PatternFinder
