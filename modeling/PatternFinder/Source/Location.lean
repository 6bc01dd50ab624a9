import PatternFinder.Json.Basic

/-! Places in source files. Lines and columns count from zero; columns count bytes. -/
namespace PatternFinder

structure Position where
  line : Nat
  column : Nat
deriving Repr, BEq, ReflBEq, LawfulBEq, DecidableEq, Inhabited

structure Range where
  start : Position
  stop : Position
deriving Repr, BEq, ReflBEq, LawfulBEq, DecidableEq, Inhabited

structure Location where
  file : String
  range : Range
deriving Repr, BEq, ReflBEq, LawfulBEq, DecidableEq, Inhabited

namespace Range

def toJson (r : Range) : Json :=
  .array [.number r.start.line, .number r.start.column, .number r.stop.line, .number r.stop.column]

def ofJson? : Json → Option Range
  | .array [.number a, .number b, .number c, .number d] => some ⟨⟨a, b⟩, ⟨c, d⟩⟩
  | _ => none

end Range

namespace Location

/-- The start, counted from one, as it is shown to people. -/
def short (l : Location) : String :=
  l.file ++ ":" ++ toString (l.range.start.line + 1) ++ ":" ++ toString (l.range.start.column + 1)

def toJson (l : Location) : Json :=
  .array [.string l.file, .number l.range.start.line, .number l.range.start.column,
    .number l.range.stop.line, .number l.range.stop.column]

def ofJson? : Json → Option Location
  | .array [.string f, .number a, .number b, .number c, .number d] => some ⟨f, ⟨⟨a, b⟩, ⟨c, d⟩⟩⟩
  | _ => none

end Location

end PatternFinder
