/-! Globs over slash-separated paths, matched byte by byte. -/
namespace PatternFinder

/-- What a piece of a glob matches. Only the double stars and the sets reach across a slash. -/
inductive GlobToken where
  | byte (b : UInt8)
  /-- One byte other than a slash. -/
  | one
  /-- Any bytes other than slashes. -/
  | star
  /-- Nothing or whole directories, at the start of the glob. -/
  | anyPrefix
  /-- A slash with everything after it. -/
  | anySuffix
  /-- A slash, or two with anything between them. -/
  | anyBetween
  | oneOf (negated : Bool) (ranges : List (UInt8 × UInt8))
  /-- One of several globs; no choice at all matches nothing but the empty text. -/
  | choice (options : List (List GlobToken))

structure Glob where
  tokens : List GlobToken

namespace Glob

def slash : UInt8 := 47

/-- The places of a text that a match can end at: one flag for each place, the start of the text
first. A text of `n` bytes has `n + 1` places. -/
abbrev Reach := List Bool

namespace Reach

/-- Only the start of the text. -/
def start (text : List UInt8) : Reach := true :: text.map fun _ => false

def union (a b : Reach) : Reach := List.zipWith (· || ·) a b

/-- One byte further, if the byte has the given property. -/
def advance (p : UInt8 → Bool) (text : List UInt8) (reach : Reach) : Reach :=
  false :: List.zipWith (fun here b => here && p b) reach text

/-- Any number of bytes other than slashes further. `carried` says that earlier bytes lead to the
first place. -/
def spread (carried : Bool) : List UInt8 → Reach → Reach
  | b :: text, here :: rest =>
    let here := carried || here
    here :: spread (here && b != slash) text rest
  | _, here :: _ => [carried || here]
  | _, [] => []

/-- The places after the first that follow a slash and lie beyond a reached place. `seen` says that
such a place was passed already. -/
private def behindSlashes (seen : Bool) : List UInt8 → Reach → Reach
  | b :: text, here :: rest =>
    let seen := seen || here
    (seen && b == slash) :: behindSlashes seen text rest
  | _, _ => []

/-- As far as before, or further to any place behind a slash. -/
def leap (text : List UInt8) (reach : Reach) : Reach :=
  union reach (false :: behindSlashes false text reach)

/-- At or beyond a reached place. -/
def onward (seen : Bool) : Reach → Reach
  | [] => []
  | here :: rest => (seen || here) :: onward (seen || here) rest

end Reach

mutual

/-- How far a token leads from the places reached before it. -/
def reachToken (text : List UInt8) : GlobToken → Reach → Reach
  | .byte b, reach => Reach.advance (· == b) text reach
  | .one, reach => Reach.advance (· != slash) text reach
  | .star, reach => Reach.spread false text reach
  | .anyPrefix, reach => Reach.leap text reach
  | .anySuffix, reach => Reach.onward false (Reach.advance (· == slash) text reach)
  | .anyBetween, reach => Reach.leap text (Reach.advance (· == slash) text reach)
  | .oneOf negated ranges, reach =>
    Reach.advance (fun b => (ranges.any fun (low, high) => low ≤ b && b ≤ high) != negated) text reach
  | .choice [], reach => reach
  | .choice (option :: options), reach =>
    Reach.union (reachTokens text option reach) (reachOptions text options reach)

def reachTokens (text : List UInt8) : List GlobToken → Reach → Reach
  | [], reach => reach
  | token :: rest, reach => reachTokens text rest (reachToken text token reach)

/-- The places that one of several globs leads to. -/
def reachOptions (text : List UInt8) : List (List GlobToken) → Reach → Reach
  | [], reach => reach.map fun _ => false
  | option :: rest, reach =>
    Reach.union (reachTokens text option reach) (reachOptions text rest reach)

end

/-- A glob matches a whole path. A double star alone matches every path. -/
def matchesPath (g : Glob) (path : List UInt8) : Bool :=
  match g.tokens with
  | [.anyPrefix] => true
  | tokens => (reachTokens path tokens (.start path)).getLast?.getD false

end Glob

end PatternFinder
