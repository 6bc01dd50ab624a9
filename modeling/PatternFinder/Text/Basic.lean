/-! White space, cutting, replacing, and ASCII case folding. -/
namespace PatternFinder.Text

/-- The code points with the Unicode property `White_Space`. -/
def isBlank (c : Char) : Bool :=
  let n := c.toNat
  (0x09 ≤ n && n ≤ 0x0D) || n == 0x20 || n == 0x85 || n == 0xA0 || n == 0x1680 ||
    (0x2000 ≤ n && n ≤ 0x200A) || n == 0x2028 || n == 0x2029 || n == 0x202F || n == 0x205F ||
    n == 0x3000

/-- Drop the blanks at both ends. -/
def trimList (cs : List Char) : List Char :=
  ((cs.dropWhile isBlank).reverse.dropWhile isBlank).reverse

def trim (s : String) : String := String.ofList (trimList s.toList)

/-- Cut at every element that satisfies `p`; there is always one piece more than cuts. -/
def splitList {α : Type} (p : α → Bool) : List α → List (List α)
  | [] => [[]]
  | x :: xs =>
    if p x then [] :: splitList p xs
    else match splitList p xs with
      | [] => [[x]]
      | piece :: rest => (x :: piece) :: rest

/-- There is one piece when nothing is cut. -/
theorem splitList_of_forall {α : Type} {p : α → Bool} {xs : List α} (h : ∀ x ∈ xs, p x = false) :
    splitList p xs = [xs] := by
  induction xs with
  | nil => rfl
  | cons x xs ih =>
    have hx := h x List.mem_cons_self
    have hxs := ih fun y hy => h y (List.mem_cons_of_mem x hy)
    simp [splitList, hx, hxs]

/-- Cut at every occurrence of the character `c`. -/
def splitAt (c : Char) (s : String) : List String :=
  (splitList (· == c) s.toList).map String.ofList

/-- The maximal runs of characters that are not blank. -/
def words (s : String) : List String :=
  ((splitList isBlank s.toList).filter (!·.isEmpty)).map String.ofList

/-- Replace the occurrences of `target` from left to right; what was put in is not searched again. -/
def replaceList (target new : List Char) : List Char → List Char
  | [] => []
  | c :: cs =>
    match target with
    | [] => c :: cs
    | t :: ts =>
      if (t :: ts).isPrefixOf (c :: cs) then new ++ replaceList (t :: ts) new (cs.drop ts.length)
      else c :: replaceList (t :: ts) new cs
termination_by cs => cs.length
decreasing_by
  all_goals simp only [List.length_drop, List.length_cons]
  all_goals omega

def replace (s target new : String) : String :=
  String.ofList (replaceList target.toList new.toList s.toList)

/-- Lower-case the letters `A` to `Z` and leave every other character alone. -/
def lowerAscii (s : String) : String := String.ofList (s.toList.map Char.toLower)

end PatternFinder.Text
