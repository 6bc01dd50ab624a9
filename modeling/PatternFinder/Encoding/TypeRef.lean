import PatternFinder.Json.Basic
import PatternFinder.Model.TypeRef

/-! The JSON form of written types. -/
namespace PatternFinder.TypeRef

mutual

def toJson : TypeRef → Json
  | .predefined keyword => .object [("Predefined", .string keyword)]
  | .named name qualifier arguments =>
    .object [("Named", .object [("name", .string name),
      ("qualifier", Json.ofOption Json.string qualifier), ("arguments", .array (toJsons arguments))])]
  | .array element => .object [("Array", toJson element)]
  | .nullable inner => .object [("Nullable", toJson inner)]
  | .other text => .object [("Other", .string text)]

def toJsons : List TypeRef → List Json
  | [] => []
  | t :: ts => toJson t :: toJsons ts

end

/-- Read one level and leave what is below it to `inner`. -/
def ofJsonStep (inner : Json → Option TypeRef) : Json → Option TypeRef
  | .object [("Predefined", .string keyword)] => some (.predefined keyword)
  | .object [("Named", j)] => do
    let name ← j.required "name" Json.asString?
    let qualifier ← j.optional "qualifier" Json.asString?
    let arguments ← j.required "arguments" (Json.list inner)
    some (.named name qualifier arguments)
  | .object [("Array", j)] => (inner j).map .array
  | .object [("Nullable", j)] => (inner j).map .nullable
  | .object [("Other", .string text)] => some (.other text)
  | _ => none

/-- The reader of types of at most `levels` levels. -/
def ofJsonUpTo : (levels : Nat) → Json → Option TypeRef
  | 0 => fun _ => none
  | levels + 1 => ofJsonStep (ofJsonUpTo levels)

def ofJson? (j : Json) : Option TypeRef := ofJsonUpTo j.height j

end PatternFinder.TypeRef
