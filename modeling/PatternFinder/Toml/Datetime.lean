import PatternFinder.Text.Number

/-! Dates and times of a TOML document, brought into one spelling. -/
namespace PatternFinder.Toml.Datetime

/-- A piece of the spelling with what follows it. -/
abbrev Piece := Option (List Char × List Char)

/-- A number of exactly `width` digits between two bounds. -/
def field (width low high : Nat) (cs : List Char) : Option (Nat × List Char) := do
  let digits := cs.take width
  if digits.length == width then
    let n ← Text.readDigits? 10 digits
    if low ≤ n && n ≤ high then some (n, cs.drop width) else none
  else none

def expect (c : Char) : List Char → Option (List Char)
  | d :: cs => if c == d then some cs else none
  | [] => none

def isLeapYear (year : Nat) : Bool := year % 4 == 0 && (year % 100 != 0 || year % 400 == 0)

def daysInMonth (year month : Nat) : Nat :=
  if month == 2 then (if isLeapYear year then 29 else 28)
  else if [4, 6, 9, 11].contains month then 30
  else 31

/-- Year, month and day; the day must exist. -/
def date? (cs : List Char) : Piece := do
  let (year, rest) ← field 4 0 9999 cs
  let rest ← expect '-' rest
  let (month, rest) ← field 2 1 12 rest
  let rest ← expect '-' rest
  let (_, rest) ← field 2 1 (daysInMonth year month) rest
  some (cs.take 10, rest)

/-- The first nine digits of a fraction, without zeros at the end. -/
private def fraction? : List Char → Piece
  | '.' :: cs =>
    let digits := cs.takeWhile Char.isDigit
    let kept := ((digits.take 9).reverse.dropWhile (· == '0')).reverse
    if digits.isEmpty then none
    else some (if kept.isEmpty then [] else '.' :: kept, cs.drop digits.length)
  | cs => some ([], cs)

/-- Hour, minute, second (with room for a leap second) and an optional fraction. -/
def time? (cs : List Char) : Piece := do
  let (_, rest) ← field 2 0 23 cs
  let rest ← expect ':' rest
  let (_, rest) ← field 2 0 59 rest
  let rest ← expect ':' rest
  let (_, rest) ← field 2 0 60 rest
  let (fraction, rest) ← fraction? rest
  some (cs.take 8 ++ fraction, rest)

/-- The distance from Greenwich. An offset of nothing has a plus sign. -/
private def offset? : List Char → Piece
  | [] => some ([], [])
  | 'Z' :: cs => some (['Z'], cs)
  | 'z' :: cs => some (['Z'], cs)
  | sign :: cs =>
    if sign == '+' || sign == '-' then do
      let (hours, rest) ← field 2 0 23 cs
      let rest ← expect ':' rest
      let (minutes, rest) ← field 2 0 59 rest
      some ((if hours + minutes == 0 then '+' else sign) :: cs.take 5, rest)
    else none

/-- A date, a time, or both; only a date with a time has an offset. -/
def read? (cs : List Char) : Option String :=
  match date? cs with
  | some (date, []) => some (String.ofList date)
  | some (date, delimiter :: rest) =>
    if ['T', 't', ' '].contains delimiter then do
      let (time, rest) ← time? rest
      let (offset, rest) ← offset? rest
      if rest.isEmpty then some (String.ofList (date ++ 'T' :: time ++ offset)) else none
    else none
  | none => do
    let (time, rest) ← time? cs
    if rest.isEmpty then some (String.ofList time) else none

end PatternFinder.Toml.Datetime
