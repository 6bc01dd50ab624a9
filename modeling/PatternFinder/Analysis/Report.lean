import PatternFinder.Error
import PatternFinder.Finding.Basic

/-! The result of an analysis. -/
namespace PatternFinder

/-- An analyzer that broke down on a file. -/
structure Failure where
  pattern : Pattern
  file : String
  message : String
deriving Repr, BEq, DecidableEq, Inhabited

def Failure.toError (f : Failure) : DetectionError :=
  .analyzerFailure f.pattern.name (f.file ++ ": " ++ f.message)

structure Report where
  findings : List Finding
  patterns : List Pattern
  filesAnalyzed : Nat
  filesWithSyntaxErrors : Nat
  declarationsVisited : Nat
  cancelled : Bool
  durationMs : Nat
  failures : List Failure
  fingerprint : UInt64
deriving Repr, BEq, DecidableEq, Inhabited

namespace Report

/-- The report of a run that has not looked at anything. -/
def blank : Report := ⟨[], [], 0, 0, 0, false, 0, [], 0⟩

def isEmpty (r : Report) : Bool := r.findings.isEmpty

def forPattern (r : Report) (p : Pattern) : List Finding := r.findings.filter (·.pattern == p)

def countFor (r : Report) (p : Pattern) : Nat := (r.forPattern p).length

/-- The number of findings of each pattern that was looked for or found, in pattern order. -/
def counts (r : Report) : List (Pattern × Nat) :=
  (Pattern.all.filter fun p => r.patterns.contains p || 0 < r.countFor p).map fun p =>
    (p, r.countFor p)

end Report

end PatternFinder
