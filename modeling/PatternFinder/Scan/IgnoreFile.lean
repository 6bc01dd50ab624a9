import PatternFinder.Scan.GlobNesting
import PatternFinder.Scan.IgnoreRule

/-! Files with rules about which paths are left out. -/
namespace PatternFinder

/-- The rules of a file in their order, and whether some of it is wrong. -/
structure IgnoreFile where
  rules : List IgnoreRule
  faulty : Bool

namespace IgnoreFile

def empty : IgnoreFile := ⟨[], false⟩

private def withoutReturn (line : List UInt8) : List UInt8 :=
  if line.getLast? == some 13 then line.dropLast else line

/-- The bytes of each line. A line ends with a line feed, which may have a carriage return before it;
what follows the last line feed is a line if it is not empty. -/
private def lineBytes (bytes : ByteArray) : List (List UInt8) :=
  let pieces := Text.splitList (· == 10) bytes.toList
  pieces.dropLast.map withoutReturn ++ pieces.getLast?.toList.filter (!·.isEmpty)

private def text? (line : List UInt8) : Option (List Char) :=
  (String.fromUTF8? ⟨line.toArray⟩).map String.toList

/-- The lines of a file up to the first that is not UTF-8. -/
private def linesOf (bytes : ByteArray) : List (List Char) :=
  (((lineBytes bytes).map text?).takeWhile Option.isSome).filterMap id

private def dropMark : List (List Char) → List (List Char)
  | [] => []
  | line :: rest => line.dropWhile (· == '\uFEFF') :: rest

/-- Read a file. A line that cannot be read is passed over, and a rule that is nested too deeply
takes all rules of the file with it; both are faults. -/
def ofBytes (bytes : ByteArray) : IgnoreFile :=
  let lines := (dropMark (linesOf bytes)).filter (!IgnoreRule.isIdle ·)
  let readings := lines.map (IgnoreRule.ofLine? true)
  let rules := readings.filterMap id
  if rules.any (·.glob.isTooDeep) then ⟨[], true⟩ else ⟨rules, readings.any Option.isNone⟩

/-- Whether a file starts with a line that is UTF-8. -/
def startsWithText (bytes : ByteArray) : Bool :=
  (text? (bytes.toList.takeWhile (· != 10))).isSome

end IgnoreFile

end PatternFinder
