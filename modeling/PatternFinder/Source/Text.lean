import PatternFinder.Source.Location
import PatternFinder.Source.Node

/-! Source files: the bytes of a file, and the text and place of a node in them. -/
namespace PatternFinder

/-- The bytes of a file, with the offsets of its newlines. -/
structure SourceText where
  path : String
  bytes : ByteArray
  newlines : List Nat

namespace SourceText

private def newlineOffsets : List UInt8 → Nat → List Nat
  | [], _ => []
  | b :: bs, i => if b == 10 then i :: newlineOffsets bs (i + 1) else newlineOffsets bs (i + 1)

def ofBytes (path : String) (bytes : ByteArray) : SourceText :=
  ⟨path, bytes, newlineOffsets bytes.toList 0⟩

/-- The bytes between two offsets as text; empty when they are not UTF-8. -/
def slice (s : SourceText) (start stop : Nat) : String :=
  (String.fromUTF8? (s.bytes.extract start stop)).getD ""

/-- The line of an offset is the number of newlines before it, its column the number of bytes since
the last of them. -/
def position (s : SourceText) (offset : Nat) : Position :=
  let before := s.newlines.filter (· < offset)
  ⟨before.length, offset - (before.map (· + 1)).foldl max 0⟩

def text (s : SourceText) (n : Node) : String := s.slice n.start n.stop

def range (s : SourceText) (n : Node) : Range := ⟨s.position n.start, s.position n.stop⟩

def location (s : SourceText) (n : Node) : Location := ⟨s.path, s.range n⟩

/-- The text of the child that carries a field, empty when there is none. -/
def fieldText (s : SourceText) (n : Node) (f : Field) : String :=
  ((n.child? f).map s.text).getD ""

end SourceText

end PatternFinder
