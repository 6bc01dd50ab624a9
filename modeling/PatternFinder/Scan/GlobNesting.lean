import PatternFinder.Scan.Glob

/-! How deeply a glob is nested. -/
namespace PatternFinder.Glob

/-- How many pieces a token contributes to a sequence. -/
def pieces : GlobToken → Nat
  | .anySuffix => 2
  | .choice [] => 0
  | _ => 1

/-- A sequence of several pieces is a level of its own. -/
private def isSequence (tokens : List GlobToken) : Bool :=
  2 ≤ (tokens.map pieces).foldl (· + ·) 0

mutual

/-- The levels of a token: every group, every choice between alternatives, every sequence, every
repetition and every set of bytes is one, and so is the list in a set of several ranges. -/
def tokenNesting : GlobToken → Nat
  | .byte _ => 0
  | .one => 1
  | .star => 2
  | .anyPrefix => 4
  | .anySuffix => 1
  | .anyBetween => 4
  | .oneOf _ ranges => if ranges.length < 2 then 1 else 2
  | .choice options => min 1 options.length + min 1 (options.length - 1) + optionsNesting options

def tokensNesting : List GlobToken → Nat
  | [] => 0
  | token :: rest => max (tokenNesting token) (tokensNesting rest)

def optionsNesting : List (List GlobToken) → Nat
  | [] => 0
  | option :: rest =>
    max ((if isSequence option then 1 else 0) + tokensNesting option) (optionsNesting rest)

end

/-- A whole glob is a sequence. -/
def nesting (g : Glob) : Nat := tokensNesting g.tokens + 1

/-- Globs that are nested more deeply are refused. -/
def maxNesting : Nat := 250

def isTooDeep (g : Glob) : Bool := maxNesting < g.nesting

end PatternFinder.Glob
