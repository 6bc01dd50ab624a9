import PatternFinder.Scan.Glob

/-! The reader of globs. -/
namespace PatternFinder.Glob

/-- Braces that are still open: what stands before them, and the options read so far. Both lists are
in reverse. -/
structure OpenChoice where
  before : List GlobToken
  options : List (List GlobToken)

/-- What has been read: the current run of tokens in reverse inside its open braces. -/
structure Draft where
  current : List GlobToken
  openChoices : List OpenChoice
  /-- Set when a bracket without a partner was met; then all further brackets stand for themselves. -/
  looseBracket : Bool

namespace Draft

def start : Draft := ⟨[], [], false⟩

def push (d : Draft) (tokens : List GlobToken) : Draft :=
  { d with current := tokens.reverse ++ d.current }

def inChoice (d : Draft) : Bool := !d.openChoices.isEmpty

/-- A run that matches the empty text only. -/
private def isVoid (tokens : List GlobToken) : Bool :=
  tokens.all fun
    | .choice [] => true
    | _ => false

/-- Void options are no options. -/
private def closeChoice (options : List (List GlobToken)) : GlobToken :=
  .choice (options.reverse.filter (!isVoid ·))

def openBrace (d : Draft) : Draft :=
  { d with current := [], openChoices := ⟨d.current, []⟩ :: d.openChoices }

def comma (d : Draft) : Option Draft :=
  match d.openChoices with
  | [] => none
  | choice :: outer => some { d with
      current := []
      openChoices := { choice with options := d.current.reverse :: choice.options } :: outer }

def closeBrace (d : Draft) : Option Draft :=
  match d.openChoices with
  | [] => none
  | choice :: outer => some { d with
      current := closeChoice (d.current.reverse :: choice.options) :: choice.before
      openChoices := outer }

/-- A double star between slashes takes the place of the slash before it. -/
def absorbSlash (d : Draft) (token : GlobToken) : Draft :=
  match d.current with
  | .anyPrefix :: _ => d
  | .anySuffix :: _ => d
  | current => { d with current := token :: current.drop 1 }

end Draft

private def utf8 (c : Char) : List UInt8 := c.toString.toUTF8.toList

private def literal (c : Char) : List GlobToken := (utf8 c).map .byte

/-- The byte ranges of a range of characters. Only the bytes at which the two characters meet form a
range; the others stand alone. -/
private def byteRanges (low high : Char) : List (UInt8 × UInt8) :=
  let alone (bytes : List UInt8) := bytes.map fun b => (b, b)
  if low == high then alone (utf8 low)
  else
    match (utf8 low).getLast?, (utf8 high).head? with
    | some a, some b => alone (utf8 low).dropLast ++ [(a, b)] ++ alone ((utf8 high).drop 1)
    | _, _ => []

/-- How reading a set ended. -/
private inductive SetResult where
  | closed (ranges : List (Char × Char)) (rest : List Char)
  | unclosed
  | backwards

/-- Read the characters of a set after its first one. `ranges` is in reverse; `inRange` says that a
dash waits for the upper end of the last range. -/
private def readSet (ranges : List (Char × Char)) (inRange : Bool) : List Char → SetResult
  | [] => .unclosed
  | ']' :: cs => .closed ((if inRange then ('-', '-') :: ranges else ranges).reverse) cs
  | c :: cs =>
    if inRange then
      match ranges with
      | (low, _) :: others =>
        if c < low then .backwards else readSet ((low, c) :: others) false cs
      | [] => .unclosed
    else if c == '-' then readSet ranges true cs
    else readSet ((c, c) :: ranges) false cs

/-- A bracket or a dash stands for itself at the start of a set. -/
private def readSetStart : List Char → SetResult
  | [] => .unclosed
  | c :: cs => readSet [(c, c)] false cs

private def setToken (negated : Bool) (ranges : List (Char × Char)) : GlobToken :=
  .oneOf negated (ranges.flatMap fun (low, high) => byteRanges low high)

/-- What a double star becomes, given the character before it, with what follows it. -/
private def doubleStar (d : Draft) (previous : Option Char) (rest : List Char) :
    Draft × Option Char × List Char :=
  let plain := (d.push [.star, .star], some '*', rest)
  if d.current.isEmpty then
    match rest with
    | [] => (d.push [.anyPrefix], some '*', [])
    | '/' :: rest => (d.push [.anyPrefix], some '/', rest)
    | _ => plain
  else if previous != some '/' &&
      (!d.inChoice || (previous != some ',' && previous != some '\x7b')) then plain
  else
    match rest with
    | [] => (d.absorbSlash .anySuffix, some '*', [])
    | '/' :: rest => (d.absorbSlash .anyBetween, some '/', rest)
    | c :: _ =>
      if d.inChoice && (c == ',' || c == '\x7d') then (d.absorbSlash .anySuffix, some '*', rest)
      else plain

/-- Read a glob. `looseBrackets` says whether a bracket without a partner stands for itself. -/
private def readFrom (looseBrackets : Bool) :
    Nat → Draft → Option Char → List Char → Option Draft
  | 0, _, _, _ => none
  | _, d, _, [] => some d
  | fuel + 1, d, previous, c :: cs =>
    if c == '?' then readFrom looseBrackets fuel (d.push [.one]) (some c) cs
    else if c == '*' then
      match cs with
      | '*' :: cs =>
        let (d, previous, rest) := doubleStar d previous cs
        readFrom looseBrackets fuel d previous rest
      | _ => readFrom looseBrackets fuel (d.push [.star]) (some c) cs
    else if c == '[' && !d.looseBracket then
      let (negated, set) := match cs with
        | '!' :: cs => (true, cs)
        | '^' :: cs => (true, cs)
        | _ => (false, cs)
      match readSetStart set with
      | .closed ranges rest =>
        readFrom looseBrackets fuel (d.push [setToken negated ranges]) (some ']') rest
      | .unclosed =>
        if looseBrackets then
          readFrom looseBrackets fuel { d.push (literal c) with looseBracket := true } (some c) cs
        else none
      | .backwards => none
    else if c == '\x7b' then readFrom looseBrackets fuel d.openBrace (some c) cs
    else if c == '\x7d' then do readFrom looseBrackets fuel (← d.closeBrace) (some c) cs
    else if c == ',' then
      readFrom looseBrackets fuel (d.comma.getD (d.push (literal c))) (some c) cs
    else if c == '\\' then
      match cs with
      | [] => none
      | escaped :: cs => readFrom looseBrackets fuel (d.push (literal escaped)) (some escaped) cs
    else readFrom looseBrackets fuel (d.push (literal c)) (some c) cs

/-- Read a glob; braces must be closed, ranges must go upwards, and no backslash may stand at the
end. -/
def read? (looseBrackets : Bool) (text : List Char) : Option Glob := do
  let d ← readFrom looseBrackets (text.length + 1) .start none text
  if d.inChoice then none else some ⟨d.current.reverse⟩

end PatternFinder.Glob
