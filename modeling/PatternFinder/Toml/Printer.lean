import PatternFinder.Text.Number
import PatternFinder.Toml.Value

/-! The text of a TOML document: sections under headers, one value per line. -/
namespace PatternFinder.Toml

/-- How a string is quoted. A literal form has no escapes, a long form may run over several lines. -/
inductive QuoteStyle where
  | basic
  | literal
  | longBasic
  | longLiteral
deriving Repr, BEq, DecidableEq

namespace QuoteStyle

def quotes : QuoteStyle → String
  | .basic => "\""
  | .literal => "'"
  | .longBasic => "\"\"\""
  | .longLiteral => "'''"

def isLong : QuoteStyle → Bool
  | .longBasic => true
  | .longLiteral => true
  | _ => false

def isLiteral : QuoteStyle → Bool
  | .literal => true
  | .longLiteral => true
  | _ => false

end QuoteStyle

def isControl (c : Char) : Bool := c.toNat < 0x20 || c.toNat == 0x7F

/-- A control character that only an escape can write. -/
def needsEscape (c : Char) : Bool := isControl c && c != '\t' && c != '\n'

/-- The length of the longest run of a character. -/
def longestRun (c : Char) (cs : List Char) : Nat :=
  (cs.foldl (fun (best, current) d =>
    if d == c then (max best (current + 1), current + 1) else (best, 0)) (0, 0)).1

/-- The first of the forms that can hold the text: without escapes if there is one. -/
def valueStyle (cs : List Char) : QuoteStyle :=
  let plain := !cs.any needsEscape
  let oneLine := !cs.contains '\n'
  if plain && oneLine && !cs.contains '\\' && !cs.contains '"' then .basic
  else if plain && oneLine && !cs.contains '\x27' then .literal
  else if plain && !cs.contains '\\' && longestRun '"' cs < 3 then .longBasic
  else if plain && longestRun '\x27' cs < 3 then .longLiteral
  else if oneLine then .basic
  else .longBasic

def escape (long : Bool) (c : Char) : List Char :=
  if c == '\x08' then ['\\', 'b']
  else if c == '\t' then ['\\', 't']
  else if c == '\n' then (if long then ['\n'] else ['\\', 'n'])
  else if c == '\x0C' then ['\\', 'f']
  else if c == '\r' then ['\\', 'r']
  else if c == '\\' then ['\\', '\\']
  else if isControl c then '\\' :: 'u' :: (Text.hexDigits 4 c.toNat).map Char.toUpper
  else [c]

/-- Escape a text. On several lines only a quote after `run` others needs one, that is the third of
three. -/
def escapeText (long : Bool) : (run : Nat) → List Char → List Char
  | _, [] => []
  | run, c :: cs =>
    if c == '"' then
      if long && run < 2 then '"' :: escapeText long (run + 1) cs
      else '\\' :: '"' :: escapeText long 0 cs
    else escape long c ++ escapeText long 0 cs

/-- A long form that holds a line end starts on a line of its own. -/
def quoteAs (style : QuoteStyle) (cs : List Char) : String :=
  let opening := if style.isLong && cs.contains '\n' then "\n" else ""
  let body := if style.isLiteral then cs else escapeText style.isLong 0 cs
  style.quotes ++ opening ++ String.ofList body ++ style.quotes

def stringText (s : String) : String := quoteAs (valueStyle s.toList) s.toList

def isBare (c : Char) : Bool := c.isAlphanum || c == '_' || c == '-'

/-- A key is quoted on one line unless it needs no quotes. -/
def keyText (key : String) : String :=
  let cs := key.toList
  if !cs.isEmpty && cs.all isBare then key
  else
    let plain := !cs.any fun c => needsEscape c || c == '\n'
    if plain && !cs.contains '\\' && !cs.contains '"' then quoteAs .basic cs
    else if plain && !cs.contains '\x27' then quoteAs .literal cs
    else quoteAs .basic cs

/-- Two or more items stand on a line each. -/
def arrayText : List String → String
  | [] => "[]"
  | [item] => "[" ++ item ++ "]"
  | items => "[" ++ String.join (items.map ("\n    " ++ · ++ ",")) ++ "\n]"

def bracesText (pairs : List String) : String :=
  if pairs.isEmpty then "\x7b\x7d" else "\x7b " ++ String.intercalate ", " pairs ++ " \x7d"

mutual

def valueText : Toml → String
  | .string s => stringText s
  | .integer n => toString n
  | .float text => text
  | .boolean true => "true"
  | .boolean false => "false"
  | .datetime text => text
  | .array items => arrayText (itemTexts items)
  | .table entries => bracesText (pairTexts entries)

def itemTexts : List Toml → List String
  | [] => []
  | item :: rest => valueText item :: itemTexts rest

def pairTexts : List (String × Toml) → List String
  | [] => []
  | (key, v) :: rest => (keyText key ++ " = " ++ valueText v) :: pairTexts rest

end

def isTable : Toml → Bool
  | .table _ => true
  | _ => false

/-- The header of a table with the values that stand right under it. A table that holds only other
tables has no header of its own. -/
def sectionText (path : List String) (entries : List (String × Toml)) : List String :=
  let pairs := pairTexts (entries.filter (!isTable ·.2))
  if pairs.isEmpty && (path.isEmpty || !entries.isEmpty) then []
  else
    let header :=
      if path.isEmpty then [] else ["[" ++ String.intercalate "." (path.map keyText) ++ "]"]
    [String.join ((header ++ pairs).map (· ++ "\n"))]

mutual

def sections (path : List String) : Toml → List String
  | .table entries => sectionText path entries ++ entrySections path entries
  | _ => []

def entrySections (path : List String) : List (String × Toml) → List String
  | [] => []
  | (key, v) :: rest => sections (path ++ [key]) v ++ entrySections path rest

end

/-- The sections of a document, a blank line between each two. -/
def print (document : Toml) : String := String.intercalate "\n" (sections [] document)

end PatternFinder.Toml
