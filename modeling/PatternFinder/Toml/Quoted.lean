import PatternFinder.Text.Number

/-! Quoted strings of a TOML document: basic and literal, on one line or on several. -/
namespace PatternFinder.Toml.Quoted

/-- One step inside a string: a piece of text, or the last piece with what follows the string. -/
inductive Step where
  | more (text rest : List Char)
  | done (text rest : List Char)

/-- Take steps until the string ends. -/
def run (step : List Char → Option Step) : Nat → List Char → Option (List Char × List Char)
  | 0, _ => none
  | fuel + 1, cs =>
    match step cs with
    | none => none
    | some (.done text rest) => some (text, rest)
    | some (.more text rest) => (run step fuel rest).map fun (tail, rest) => (text ++ tail, rest)

/-- A tab, or any character that is not a control character. -/
def isPlain (c : Char) : Bool := c == '\t' || (0x20 ≤ c.toNat && c.toNat != 0x7F)

/-- The character with the code that the hexadecimal digits write. -/
def scalar? (digits : List Char) : Option Char := do
  let n ← Text.readDigits? 16 digits
  if n.isValidChar then some (Char.ofNat n) else none

/-- Read what follows a backslash. -/
def escape? : List Char → Option Step
  | 'b' :: cs => some (.more ['\x08'] cs)
  | 't' :: cs => some (.more ['\t'] cs)
  | 'n' :: cs => some (.more ['\n'] cs)
  | 'f' :: cs => some (.more ['\x0C'] cs)
  | 'r' :: cs => some (.more ['\r'] cs)
  | '"' :: cs => some (.more ['"'] cs)
  | '\\' :: cs => some (.more ['\\'] cs)
  | 'u' :: cs => if cs.length < 4 then none
    else (scalar? (cs.take 4)).map fun c => .more [c] (cs.drop 4)
  | 'U' :: cs => if cs.length < 8 then none
    else (scalar? (cs.take 8)).map fun c => .more [c] (cs.drop 8)
  | _ => none

/-- A line ends with a line feed, which a carriage return may precede. -/
def newline? : List Char → Option (List Char)
  | '\n' :: cs => some cs
  | '\r' :: '\n' :: cs => some cs
  | _ => none

def isGap (c : Char) : Bool := c == ' ' || c == '\t'

/-- Drop blanks and line ends. -/
def dropBlank : List Char → List Char
  | '\r' :: '\n' :: cs => dropBlank cs
  | c :: cs => if isGap c || c == '\n' then dropBlank cs else c :: cs
  | [] => []

/-- A backslash at the end of a line joins it with the next text. -/
def joined? (cs : List Char) : Option (List Char) :=
  (newline? (cs.dropWhile isGap)).map dropBlank

/-- Three quotes end a string; one or two more of them right there belong to the text. -/
def closing (quote : Char) (cs : List Char) : Step :=
  let extra := (cs.take 2).takeWhile (· == quote)
  .done extra (cs.drop extra.length)

def basicStep : List Char → Option Step
  | '"' :: cs => some (.done [] cs)
  | '\\' :: cs => escape? cs
  | c :: cs => if isPlain c then some (.more [c] cs) else none
  | [] => none

def literalStep : List Char → Option Step
  | '\x27' :: cs => some (.done [] cs)
  | c :: cs => if isPlain c then some (.more [c] cs) else none
  | [] => none

/-- A character of a string on several lines, where every line end counts as a line feed. -/
def plainOrNewline? : List Char → Option Step
  | c :: cs =>
    match newline? (c :: cs) with
    | some rest => some (.more ['\n'] rest)
    | none => if isPlain c then some (.more [c] cs) else none
  | [] => none

def longBasicStep : List Char → Option Step
  | '"' :: '"' :: '"' :: cs => some (closing '"' cs)
  | '\\' :: cs =>
    match joined? cs with
    | some rest => some (.more [] rest)
    | none => escape? cs
  | cs => plainOrNewline? cs

def longLiteralStep : List Char → Option Step
  | '\x27' :: '\x27' :: '\x27' :: cs => some (closing '\x27' cs)
  | cs => plainOrNewline? cs

def readBy (step : List Char → Option Step) (cs : List Char) :
    Option (String × List Char) :=
  (run step cs.length cs).map fun (text, rest) => (String.ofList text, rest)

/-- A line end right after the opening quotes is dropped. -/
def afterOpening (cs : List Char) : List Char := (newline? cs).getD cs

/-- A quoted string on one line, with what follows it. -/
def readShort? : List Char → Option (String × List Char)
  | '"' :: cs => readBy basicStep cs
  | '\x27' :: cs => readBy literalStep cs
  | _ => none

/-- A quoted string, with what follows it. -/
def read? : List Char → Option (String × List Char)
  | '"' :: '"' :: '"' :: cs => readBy longBasicStep (afterOpening cs)
  | '\x27' :: '\x27' :: '\x27' :: cs => readBy longLiteralStep (afterOpening cs)
  | cs => readShort? cs

end PatternFinder.Toml.Quoted
