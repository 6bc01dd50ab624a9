import PatternFinder.Text.Basic
import PatternFinder.Toml.Datetime
import PatternFinder.Toml.Value

/-! Unquoted values of a TOML document: truth values, integers, floats and dates. -/
namespace PatternFinder.Toml.Scalar

/-- Digits with single underscores between them, without the underscores. -/
def digits? (isDigit : Char → Bool) (cs : List Char) : Option (List Char) :=
  let groups := Text.splitList (· == '_') cs
  if groups.all fun group => !group.isEmpty && group.all isDigit then some groups.flatten else none

/-- A sign, if there is one, and the rest. -/
def sign : List Char → Bool × List Char
  | '+' :: cs => (false, cs)
  | '-' :: cs => (true, cs)
  | cs => (false, cs)

def isDigitOf (base : Nat) (c : Char) : Bool :=
  match Text.hexValue? c with
  | some n => n < base
  | none => false

def ofBase? (base : Nat) (cs : List Char) : Option Int := do
  let digits ← digits? (isDigitOf base) cs
  let n ← Text.readDigits? base digits
  some n

/-- Decimal digits without a zero in front of others. -/
def decimal? (cs : List Char) : Option (List Char) := do
  let digits ← digits? Char.isDigit cs
  if digits.head? == some '0' && digits.length != 1 then none else some digits

def signed (negative : Bool) (n : Nat) : Int := if negative then -n else n

/-- Decimal with an optional sign, or with a base mark and no sign. -/
def integer? (cs : List Char) : Option Int :=
  let number := match cs with
    | '0' :: 'x' :: rest => ofBase? 16 rest
    | '0' :: 'o' :: rest => ofBase? 8 rest
    | '0' :: 'b' :: rest => ofBase? 2 rest
    | _ => do
      let (negative, rest) := sign cs
      let digits ← decimal? rest
      let n ← Text.readDigits? 10 digits
      some (signed negative n)
  number.filter fun n => decide (IsWord n)

/-- The parts of a float: the digits of the whole and of the fraction, and the exponent. -/
structure FloatParts where
  negative : Bool
  whole : List Char
  fraction : List Char
  exponent : Int

private def isDigitOrUnderscore (c : Char) : Bool := c.isDigit || c == '_'

private def exponent? (cs : List Char) : Option Int := do
  let (negative, rest) := sign cs
  let digits ← digits? Char.isDigit rest
  let n ← Text.readDigits? 10 digits
  some (signed negative n)

/-- A whole part, then a fraction or an exponent or both. -/
def floatParts? (cs : List Char) : Option FloatParts := do
  let (negative, cs) := sign cs
  let whole ← decimal? (cs.takeWhile isDigitOrUnderscore)
  match cs.dropWhile isDigitOrUnderscore with
  | '.' :: rest =>
    let fraction ← digits? Char.isDigit (rest.takeWhile isDigitOrUnderscore)
    match rest.dropWhile isDigitOrUnderscore with
    | [] => some ⟨negative, whole, fraction, 0⟩
    | mark :: rest =>
      if mark == 'e' || mark == 'E' then (exponent? rest).map (⟨negative, whole, fraction, ·⟩)
      else none
  | mark :: rest =>
    if mark == 'e' || mark == 'E' then (exponent? rest).map (⟨negative, whole, [], ·⟩) else none
  | [] => none

/-- The least number that rounds to infinity in double precision. -/
private def overflowThreshold : Nat := Nat.pow 2 1024 - Nat.pow 2 970

/-- Whether the size of a float rounds to infinity. Leading zeros do not count, so that the number
of digits bounds the size from both sides. -/
def FloatParts.overflows (f : FloatParts) : Bool :=
  let digits := (f.whole ++ f.fraction).dropWhile (· == '0')
  let scale := f.exponent - f.fraction.length
  let n := (Text.readDigits? 10 digits).getD 0
  if digits.isEmpty || scale + digits.length < 300 then false
  else if 320 < scale + digits.length then true
  else decide (overflowThreshold * Nat.pow 10 (-scale).toNat ≤ n * Nat.pow 10 scale.toNat)

/-- Only a float below zero may be too large for double precision. -/
def isFloat (cs : List Char) : Bool :=
  [['i', 'n', 'f'], ['n', 'a', 'n']].contains (sign cs).2 ||
    match floatParts? cs with
    | some parts => parts.negative || !parts.overflows
    | none => false

/-- The characters of an unquoted value. -/
def isTokenChar (c : Char) : Bool := c.isAlphanum || ['+', '-', '_', '.', ':'].contains c

def ofToken? (cs : List Char) : Option Toml :=
  match cs with
  | ['t', 'r', 'u', 'e'] => some (.boolean true)
  | ['f', 'a', 'l', 's', 'e'] => some (.boolean false)
  | _ =>
    match integer? cs with
    | some n => some (.integer n)
    | none =>
      if isFloat cs then some (.float (String.ofList cs)) else (Datetime.read? cs).map .datetime

/-- A blank may stand between a date and its time. -/
def timeAfterBlank : List Char → List Char
  | ' ' :: c :: cs => if c.isDigit then ' ' :: c :: cs.takeWhile isTokenChar else []
  | _ => []

/-- An unquoted value, with what follows it. -/
def read? (cs : List Char) : Option (Toml × List Char) :=
  let token := cs.takeWhile isTokenChar
  let rest := cs.drop token.length
  let time := match Datetime.date? token with
    | some (_, []) => timeAfterBlank rest
    | _ => []
  (ofToken? (token ++ time)).map fun v => (v, rest.drop time.length)

end PatternFinder.Toml.Scalar
