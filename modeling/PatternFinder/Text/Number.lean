/-! Number texts: fixed-width hexadecimal words and unsigned decimals of a bounded width. -/
namespace PatternFinder.Text

/-- The lower-case hexadecimal digit of `n`, for `n < 16`. -/
def hexDigit (n : Nat) : Char :=
  if n < 10 then Char.ofNat ('0'.toNat + n) else Char.ofNat ('a'.toNat + (n - 10))

/-- The last `width` hexadecimal digits of `n`, most significant first. -/
def hexDigits : (width : Nat) → (n : Nat) → List Char
  | 0, _ => []
  | w + 1, n => hexDigits w (n / 16) ++ [hexDigit (n % 16)]

/-- A 64-bit word as sixteen hexadecimal digits. -/
def hexWord (w : UInt64) : String := String.ofList (hexDigits 16 w.toNat)

/-- The value of a hexadecimal digit of either case. -/
def hexValue? (c : Char) : Option Nat :=
  if '0' ≤ c && c ≤ '9' then some (c.toNat - '0'.toNat)
  else if 'a' ≤ c && c ≤ 'f' then some (c.toNat - 'a'.toNat + 10)
  else if 'A' ≤ c && c ≤ 'F' then some (c.toNat - 'A'.toNat + 10)
  else none

/-- The number that a list of digits writes in the given base; `none` for a foreign character. -/
def readDigits? (base : Nat) (cs : List Char) : Option Nat :=
  cs.foldl (fun acc c => do
    let n ← acc
    let d ← hexValue? c
    if d < base then some (n * base + d) else none) (some 0)

theorem hexValue?_hexDigit : ∀ n < 16, hexValue? (hexDigit n) = some n := by decide

theorem readDigits?_concat (base : Nat) (cs : List Char) (c : Char) :
    readDigits? base (cs ++ [c]) = (do
      let n ← readDigits? base cs
      let d ← hexValue? c
      if d < base then some (n * base + d) else none) := by
  rw [readDigits?, List.foldl_append]
  rfl

@[simp] theorem length_hexDigits (width n : Nat) : (hexDigits width n).length = width := by
  induction width generalizing n with
  | zero => rfl
  | succ width ih => rw [hexDigits, List.length_append, ih]; rfl

/-- The last digits of a number write what is left of it modulo a power of the base. -/
theorem readDigits?_hexDigits (width n : Nat) :
    readDigits? 16 (hexDigits width n) = some (n % Nat.pow 16 width) := by
  induction width generalizing n with
  | zero =>
    rw [Nat.pow, Nat.mod_one]
    rfl
  | succ width ih =>
    have hlast : n % 16 < 16 := Nat.mod_lt _ (by decide)
    have hmod : n % Nat.pow 16 (width + 1) = n / 16 % Nat.pow 16 width * 16 + n % 16 := by
      have hsplit : n % (16 * Nat.pow 16 width) = n % 16 + 16 * (n / 16 % Nat.pow 16 width) :=
        Nat.mod_mul
      rw [Nat.pow, Nat.mul_eq, Nat.mul_comm, hsplit]
      omega
    rw [hexDigits, readDigits?_concat, ih, hexValue?_hexDigit _ hlast, hmod]
    simp [hlast]

theorem hexValue?_digitChar : ∀ d < 10, hexValue? (Nat.digitChar d) = some d := by decide

/-- A number is read back from its decimal digits. -/
theorem readDigits?_toDigits (n : Nat) : readDigits? 10 (Nat.toDigits 10 n) = some n := by
  induction n using Nat.strongRecOn with
  | ind n ih =>
    rw [Nat.toDigits_eq_if (by decide)]
    split
    case isTrue hlt => simp [readDigits?, hexValue?_digitChar n hlt, hlt]
    case isFalse hlt =>
      have hlast : n % 10 < 10 := Nat.mod_lt n (by decide)
      rw [readDigits?_concat, ih (n / 10) (by omega), hexValue?_digitChar _ hlast]
      simp [hlast]
      omega

/-- No zero stands in front of the decimal digits of a number. -/
theorem head?_toDigits {n : Nat} (h : 0 < n) : (Nat.toDigits 10 n).head? ≠ some '0' := by
  induction n using Nat.strongRecOn with
  | ind n ih =>
    rw [Nat.toDigits_eq_if (by decide)]
    split
    case isTrue hlt =>
      have hdigit : ∀ d < 10, 0 < d → Nat.digitChar d ≠ '0' := by decide
      simpa using hdigit n hlt h
    case isFalse hlt =>
      have hhead := ih (n / 10) (by omega) (by omega)
      simpa [List.head?_append, List.head?_eq_some_head Nat.toDigits_ne_nil] using hhead

/-- The word that exactly sixteen hexadecimal digits write. -/
def hexWord? (s : String) : Option UInt64 :=
  let cs := s.toList
  if cs.length == 16 then (readDigits? 16 cs).map UInt64.ofNat else none

/-- A word is read back from its digits. -/
theorem hexWord?_hexWord (w : UInt64) : hexWord? (hexWord w) = some w := by
  have hsize : w.toNat % Nat.pow 16 16 = w.toNat := Nat.mod_eq_of_lt w.toNat_lt
  have hdigits : readDigits? 16 (hexDigits 16 w.toNat) = some w.toNat := by
    rw [readDigits?_hexDigits, hsize]
  rw [hexWord?, hexWord]
  simp [hdigits]

/-- Bytes written as pairs of hexadecimal digits. -/
def hexBytes? : List Char → Option (List UInt8)
  | [] => some []
  | hi :: lo :: rest => do
    let h ← hexValue? hi
    let l ← hexValue? lo
    let bytes ← hexBytes? rest
    some (UInt8.ofNat (16 * h + l) :: bytes)
  | [_] => none

/-- An unsigned number below `bound`: an optional plus sign, then one or more decimal digits and
nothing else. -/
def readNat? (bound : Nat) (s : String) : Option Nat :=
  let digits := match s.toList with
    | '+' :: rest => rest
    | cs => cs
  if digits.isEmpty then none
  else (readDigits? 10 digits).filter (· < bound)

end PatternFinder.Text
