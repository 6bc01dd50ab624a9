import PatternFinder.Toml.Draft
import PatternFinder.Toml.Quoted
import PatternFinder.Toml.Scalar

/-! The reader of TOML documents. -/
namespace PatternFinder.Toml

/-- A reader gives what it read and what follows it. -/
abbrev Reads (α : Type) := List Char → Option (α × List Char)

/-- Brackets nest, and keys have parts, up to this number. -/
def maxNesting : Nat := 79

def dropGap (cs : List Char) : List Char := cs.dropWhile Quoted.isGap

/-- Skip blanks, line ends and comments. -/
def skipLines (inComment : Bool) : List Char → List Char
  | '\n' :: cs => skipLines false cs
  | '\r' :: '\n' :: cs => skipLines false cs
  | c :: cs =>
    if inComment then (if Quoted.isPlain c then skipLines true cs else c :: cs)
    else if Quoted.isGap c then skipLines false cs
    else if c == '#' then skipLines true cs
    else c :: cs
  | [] => []

/-- Nothing but blanks and a comment may be left on the line. -/
def lineEnd? (cs : List Char) : Option (List Char) :=
  let rest := match dropGap cs with
    | '#' :: comment => comment.dropWhile Quoted.isPlain
    | other => other
  if rest.isEmpty then some [] else Quoted.newline? rest

def isBareKeyChar (c : Char) : Bool := c.isAlphanum || c == '_' || c == '-'

def keyPart? (cs : List Char) : Option (String × List Char) :=
  let name := cs.takeWhile isBareKeyChar
  if name.isEmpty then Quoted.readShort? cs
  else some (String.ofList name, cs.drop name.length)

/-- The parts of a key, with dots between them and blanks around them. -/
def keyPath? : Nat → Reads (List String)
  | 0, _ => none
  | parts + 1, cs => do
    let (part, rest) ← keyPart? (dropGap cs)
    match dropGap rest with
    | '.' :: rest =>
      let (path, rest) ← keyPath? parts rest
      some (part :: path, rest)
    | rest => some ([part], rest)

def expect (text : List Char) (cs : List Char) : Option (List Char) :=
  if text.isPrefixOf cs then some (cs.drop text.length) else none

/-- A key, an equality sign and a value. -/
def pair? (value : Reads Toml) (cs : List Char) :
    Option (List String × Toml × List Char) := do
  let (path, rest) ← keyPath? maxNesting cs
  let rest ← expect ['='] rest
  let (v, rest) ← value (dropGap rest)
  some (path, v, rest)

/-- The items of an array up to its closing bracket. A comma may follow the last one. -/
def items? (value : Reads Toml) : Nat → Reads (List Toml)
  | 0, _ => none
  | fuel + 1, cs =>
    match skipLines false cs with
    | ']' :: rest => some ([], rest)
    | cs => do
      let (item, rest) ← value cs
      match skipLines false rest with
      | ',' :: rest =>
        let (items, rest) ← items? value fuel rest
        some (item :: items, rest)
      | ']' :: rest => some ([item], rest)
      | _ => none

/-- The pairs of a table between braces, of which there is one at least. -/
def pairs? (value : Reads Toml) : Nat → Draft.Entries → Reads Draft.Entries
  | 0, _, _ => none
  | fuel + 1, entries, cs => do
    let (path, v, rest) ← pair? value cs
    let entries ← Draft.insert v path entries
    match dropGap rest with
    | ',' :: rest => pairs? value fuel entries rest
    | '\x7d' :: rest => some (entries, rest)
    | _ => none

/-- A table between braces stands on one line and has no comma at the end. -/
def inlineTable? (value : Reads Toml) (cs : List Char) : Option (Toml × List Char) :=
  match dropGap cs with
  | '\x7d' :: rest => some (.table [], rest)
  | cs => (pairs? value cs.length [] cs).map fun (entries, rest) =>
    (.table (Draft.closeEntries entries), rest)

def plainValue? : Reads Toml := fun cs =>
  match cs with
  | '"' :: _ => (Quoted.read? cs).map fun (s, rest) => (.string s, rest)
  | '\x27' :: _ => (Quoted.read? cs).map fun (s, rest) => (.string s, rest)
  | _ => Scalar.read? cs

/-- A value in which brackets are nested up to the given number of levels. -/
def value? : Nat → Reads Toml
  | 0, cs => plainValue? cs
  | levels + 1, cs =>
    match cs with
    | '[' :: rest => (items? (value? levels) rest.length rest).map fun (items, rest) =>
      (.array items, rest)
    | '\x7b' :: rest => inlineTable? (value? levels) rest
    | _ => plainValue? cs

/-- The tables read so far, and the header under which the next lines stand. -/
structure Progress where
  root : Draft.Entries
  current : List String

/-- Read the lines of a document one by one. -/
def lines? : Nat → Progress → List Char → Option Draft.Entries
  | 0, _, _ => none
  | fuel + 1, p, cs =>
    match dropGap cs with
    | [] => some p.root
    | '[' :: '[' :: rest => do
      let (path, rest) ← keyPath? maxNesting rest
      let rest ← (expect [']', ']'] rest).bind lineEnd?
      lines? fuel ⟨← Draft.openRow path p.root, path⟩ rest
    | '[' :: rest => do
      let (path, rest) ← keyPath? maxNesting rest
      let rest ← (expect [']'] rest).bind lineEnd?
      lines? fuel ⟨← Draft.openTable path p.root, path⟩ rest
    | cs =>
      match lineEnd? cs with
      | some rest => lines? fuel p rest
      | none => do
        let (path, v, rest) ← pair? (value? maxNesting) cs
        let rest ← lineEnd? rest
        lines? fuel { p with root := ← Draft.under p.current (Draft.insert v path) p.root } rest

/-- Read a document. A byte order mark in front of it is dropped. -/
def read? (text : String) : Option Toml :=
  let cs := match text.toList with
    | '\uFEFF' :: cs => cs
    | cs => cs
  (lines? (cs.length + 1) ⟨[], []⟩ cs).map fun entries => .table (Draft.closeEntries entries)

end PatternFinder.Toml
