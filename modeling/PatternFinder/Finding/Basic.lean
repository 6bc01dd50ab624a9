import PatternFinder.Finding.Rule
import PatternFinder.Source.Location

/-! Findings, and their order in a report. -/
namespace PatternFinder

structure Finding where
  ruleId : String
  pattern : Pattern
  check : String
  severity : Severity
  message : String
  location : Location
  evidence : Option String
deriving Repr, BEq, ReflBEq, LawfulBEq, DecidableEq, Inhabited

namespace Finding

def line (f : Finding) : Nat := f.location.range.start.line

def column (f : Finding) : Nat := f.location.range.start.column

/-- Order by file, start line, start column, rule and check. -/
def order : Finding → Finding → Ordering :=
  compareLex (compareOn (·.location.file)) (compareLex (compareOn line) (compareLex (compareOn column)
    (compareLex (compareOn ruleId) (compareOn check))))

/-- The finding on one line. -/
def text (f : Finding) : String :=
  f.location.short ++ ": " ++ f.severity.name ++ ": " ++ f.message ++ " [" ++ f.ruleId ++ "/" ++
    f.check ++ "]"

end Finding

/-- Drop every element that equals the one before it. -/
def dropRepeats {α : Type} [BEq α] : List α → List α
  | [] => []
  | [x] => [x]
  | x :: y :: rest => if x == y then dropRepeats (y :: rest) else x :: dropRepeats (y :: rest)

/-- Findings in order of arrival. -/
structure FindingBag where
  items : List Finding

namespace FindingBag

def empty : FindingBag := ⟨[]⟩

def report (b : FindingBag) (f : Finding) : FindingBag := ⟨b.items ++ [f]⟩

def size (b : FindingBag) : Nat := b.items.length

def isEmpty (b : FindingBag) : Bool := b.items.isEmpty

/-- The findings in report order; equal ones keep their order of arrival, and neighbours that are
the same finding are reported once. -/
def sorted (b : FindingBag) : List Finding :=
  dropRepeats (b.items.mergeSort fun x y => (Finding.order x y).isLE)

end FindingBag

end PatternFinder
