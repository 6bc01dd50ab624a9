import PatternFinder.Json.Basic
import PatternFinder.Text.Number

/-! The indented text of a JSON value, with the members of every object in key order. -/
namespace PatternFinder.Json

private def escape (c : Char) : String :=
  if c == '"' then "\\\""
  else if c == '\\' then "\\\\"
  else if c == '\n' then "\\n"
  else if c == '\r' then "\\r"
  else if c == '\t' then "\\t"
  else if c == Char.ofNat 0x08 then "\\b"
  else if c == Char.ofNat 0x0C then "\\f"
  else if c.toNat < 0x20 then "\\u" ++ String.ofList (Text.hexDigits 4 c.toNat)
  else c.toString

def quote (s : String) : String :=
  "\"" ++ String.join (s.toList.map escape) ++ "\""

private def margin (depth : Nat) : String := String.ofList (List.replicate (2 * depth) ' ')

/-- Items one per line between brackets, the closing one at the outer margin. -/
private def layout (opening closing : String) (depth : Nat) (items : List String) : String :=
  if items.isEmpty then opening ++ closing
  else opening ++ "\n" ++ String.intercalate ",\n" (items.map (margin (depth + 1) ++ ·)) ++
    "\n" ++ margin depth ++ closing

mutual

private def renderAt (depth : Nat) : Json → String
  | .null => "null"
  | .bool true => "true"
  | .bool false => "false"
  | .number n => toString n
  | .string s => quote s
  | .array items => layout "[" "]" depth (renderItems (depth + 1) items)
  | .object members =>
    let lines := (renderMembers (depth + 1) members).mergeSort (fun a b => decide (a.1 ≤ b.1))
    layout "\x7b" "\x7d" depth (lines.map fun line => quote line.1 ++ ": " ++ line.2)

private def renderItems (depth : Nat) : List Json → List String
  | [] => []
  | j :: js => renderAt depth j :: renderItems depth js

private def renderMembers (depth : Nat) : List (String × Json) → List (String × String)
  | [] => []
  | (k, j) :: js => (k, renderAt depth j) :: renderMembers depth js

end

/-- Two-space indentation, one element per line, empty brackets without a break. -/
def pretty (j : Json) : String := renderAt 0 j

end PatternFinder.Json
