import Mathlib.Data.List.Chain
import Mathlib.Data.List.Pairwise
import PatternFinder.Finding.Basic

/-! Stable sorting by a comparison, and dropping repeats from a sorted list. Elements that compare
as equal need not be equal. -/
namespace PatternFinder

section Comparison

variable {α : Type} (cmp : α → α → Ordering) [Std.TransCmp cmp]

theorem isLE_total (a b : α) : (cmp a b).isLE || (cmp b a).isLE := by
  have hswap : cmp b a = (cmp a b).swap := Std.OrientedCmp.eq_swap
  rw [hswap]
  cases cmp a b <;> rfl

theorem eq_of_isLE_of_isLE {a b : α} (hab : (cmp a b).isLE) (hba : (cmp b a).isLE) :
    cmp a b = .eq := by
  have hswap : cmp b a = (cmp a b).swap := Std.OrientedCmp.eq_swap
  rw [hswap] at hba
  cases h : cmp a b <;> simp [h] at hab hba ⊢

theorem pairwise_sorted (l : List α) :
    (l.mergeSort fun x y => (cmp x y).isLE).Pairwise fun x y => (cmp x y).isLE :=
  List.pairwise_mergeSort (fun _ _ _ => Std.TransCmp.isLE_trans) (isLE_total cmp) l

/-- Sorting puts an element before the first one that it does not exceed. -/
theorem mergeSort_cons_split (a : α) (l : List α) :
    ∃ l₁ l₂, ((a :: l).mergeSort fun x y => (cmp x y).isLE) = l₁ ++ a :: l₂ ∧
      (l.mergeSort fun x y => (cmp x y).isLE) = l₁ ++ l₂ ∧
      (∀ b ∈ l₁, (cmp a b).isLE = false) ∧ ∀ b ∈ l₂, (cmp a b).isLE = true := by
  obtain ⟨l₁, l₂, hcons, hl, hlow⟩ := List.mergeSort_cons
    (fun _ _ _ => Std.TransCmp.isLE_trans) (isLE_total cmp) a l
  have hs := pairwise_sorted cmp (a :: l)
  rw [hcons, List.pairwise_append] at hs
  refine ⟨l₁, l₂, hcons, hl, fun b hb => by simpa using hlow b hb, ?_⟩
  exact (List.pairwise_cons.mp hs.2.1).1

/-- A list is taken apart by a test that its first part fails and the rest passes. -/
private theorem filter_split {q : α → Bool} {u v : List α} (hu : ∀ b ∈ u, q b = false)
    (hv : ∀ b ∈ v, q b = true) : (u ++ v).filter q = v ∧ (u ++ v).filter (!q ·) = u := by
  constructor
  · rw [List.filter_append, List.filter_eq_nil_iff.mpr (by simpa using hu),
      List.filter_eq_self.mpr hv, List.nil_append]
  · rw [List.filter_append, List.filter_eq_self.mpr (by simpa using hu),
      List.filter_eq_nil_iff.mpr (by simpa using hv), List.append_nil]

/-- A list is cut in one way only into elements that fail a test and elements that pass it. -/
private theorem split_unique {q : α → Bool} {u₁ u₂ v₁ v₂ : List α} (h : u₁ ++ u₂ = v₁ ++ v₂)
    (hu₁ : ∀ b ∈ u₁, q b = false) (hu₂ : ∀ b ∈ u₂, q b = true)
    (hv₁ : ∀ b ∈ v₁, q b = false) (hv₂ : ∀ b ∈ v₂, q b = true) : u₁ = v₁ ∧ u₂ = v₂ := by
  obtain ⟨hu, hu'⟩ := filter_split hu₁ hu₂
  obtain ⟨hv, hv'⟩ := filter_split hv₁ hv₂
  rw [h] at hu hu'
  exact ⟨hu'.symm.trans hv', hu.symm.trans hv⟩

theorem filter_mergeSort (p : α → Bool) (l : List α) :
    (l.mergeSort fun x y => (cmp x y).isLE).filter p =
      (l.filter p).mergeSort fun x y => (cmp x y).isLE := by
  induction l with
  | nil => simp
  | cons a l ih =>
    obtain ⟨l₁, l₂, hcons, hl, hlow, hhigh⟩ := mergeSort_cons_split cmp a l
    rw [hl, List.filter_append] at ih
    rw [hcons, List.filter_append]
    by_cases hp : p a
    · obtain ⟨m₁, m₂, hcons', hl', hlow', hhigh'⟩ := mergeSort_cons_split cmp a (l.filter p)
      obtain ⟨h₁, h₂⟩ := split_unique (ih.trans hl')
        (fun b hb => hlow b (List.mem_filter.mp hb).1)
        (fun b hb => hhigh b (List.mem_filter.mp hb).1) hlow' hhigh'
      rw [List.filter_cons_of_pos hp, List.filter_cons_of_pos hp, hcons', h₁, h₂]
    · rw [List.filter_cons_of_neg hp, List.filter_cons_of_neg hp, ih]

/-- Sorting fewer elements gives the same list with some elements left out. -/
theorem mergeSort_sublist {l l' : List α} (h : l.Sublist l') :
    (l.mergeSort fun x y => (cmp x y).isLE).Sublist
      (l'.mergeSort fun x y => (cmp x y).isLE) := by
  induction h with
  | slnil => exact List.Sublist.refl _
  | @cons l l' a _ ih =>
    obtain ⟨v₁, v₂, hcons, hl', -, -⟩ := mergeSort_cons_split cmp a l'
    rw [hl'] at ih
    rw [hcons]
    exact ih.trans ((List.sublist_cons_self a v₂).append_left v₁)
  | @cons_cons l l' a _ ih =>
    obtain ⟨u₁, u₂, hcons, hl, hlow, hhigh⟩ := mergeSort_cons_split cmp a l
    obtain ⟨v₁, v₂, hcons', hl', hlow', hhigh'⟩ := mergeSort_cons_split cmp a l'
    rw [hl, hl'] at ih
    -- In both lists the element stands between those that it exceeds and the others.
    obtain ⟨hu₂, hu₁⟩ := filter_split hlow hhigh
    obtain ⟨hv₂, hv₁⟩ := filter_split hlow' hhigh'
    have hbefore : u₁.Sublist v₁ := by
      rw [← hu₁, ← hv₁]
      exact ih.filter _
    have hafter : u₂.Sublist v₂ := by
      rw [← hu₂, ← hv₂]
      exact ih.filter _
    rw [hcons, hcons']
    exact hbefore.append (hafter.cons_cons a)

private theorem ne_eq_symm {x y : α} (h : cmp x y ≠ .eq) : cmp y x ≠ .eq :=
  fun h' => h (Std.OrientedCmp.eq_symm h')

/-- Elements that all compare as different are sorted into one list, however they arrive. -/
theorem mergeSort_eq_of_perm {l l' : List α} (hp : l.Perm l')
    (hl : l.Pairwise fun x y => cmp x y ≠ .eq) :
    (l.mergeSort fun x y => (cmp x y).isLE) = l'.mergeSort fun x y => (cmp x y).isLE := by
  have hsymm : Std.Symm fun x y => cmp x y ≠ .eq := ⟨fun _ _ => ne_eq_symm cmp⟩
  have hperm : (l.mergeSort fun x y => (cmp x y).isLE).Perm
      (l'.mergeSort fun x y => (cmp x y).isLE) :=
    ((List.mergeSort_perm l _).trans hp).trans (List.mergeSort_perm l' _).symm
  refine List.Perm.eq_of_pairwise ?_ (pairwise_sorted cmp l) (pairwise_sorted cmp l') hperm
  intro a b ha hb hab hba
  by_contra hne
  have ha' : a ∈ l := List.mem_mergeSort.mp ha
  have hb' : b ∈ l := hp.mem_iff.mpr (List.mem_mergeSort.mp hb)
  exact hl.forall ha' hb' hne (eq_of_isLE_of_isLE cmp hab hba)

/-- Elements that all compare as different come out in strictly increasing order. -/
theorem mergeSort_pairwise_lt {l : List α} (hl : l.Pairwise fun x y => cmp x y ≠ .eq) :
    (l.mergeSort fun x y => (cmp x y).isLE).Pairwise fun x y => cmp x y = .lt := by
  have hne := (List.mergeSort_perm l fun x y => (cmp x y).isLE).symm.pairwise hl (ne_eq_symm cmp)
  refine ((pairwise_sorted cmp l).and hne).imp ?_
  rintro x y ⟨hle, hne⟩
  cases h : cmp x y <;> simp [h] at hle hne ⊢

end Comparison

section Repeats

variable {α : Type} [BEq α] [LawfulBEq α]

theorem mem_dropRepeats {x : α} {l : List α} : x ∈ dropRepeats l ↔ x ∈ l := by
  fun_induction dropRepeats l with
  | case1 => rfl
  | case2 => rfl
  | case3 y z rest heq ih =>
    have hyz : y = z := eq_of_beq heq
    rw [ih, hyz]
    simp
  | case4 y z rest hne ih => rw [List.mem_cons, List.mem_cons, ih]

theorem head?_dropRepeats (l : List α) : (dropRepeats l).head? = l.head? := by
  fun_induction dropRepeats l with
  | case1 => rfl
  | case2 => rfl
  | case3 x y rest heq ih =>
    rw [ih, eq_of_beq heq]
    rfl
  | case4 => rfl

omit [LawfulBEq α] in
theorem dropRepeats_sublist (l : List α) : (dropRepeats l).Sublist l := by
  fun_induction dropRepeats l with
  | case1 => exact .slnil
  | case2 => exact List.Sublist.refl _
  | case3 x y rest _ ih => exact ih.cons x
  | case4 x y rest _ ih => exact ih.cons_cons x

theorem isChain_dropRepeats (l : List α) : (dropRepeats l).IsChain (· ≠ ·) := by
  fun_induction dropRepeats l with
  | case1 => exact .nil
  | case2 x => exact .singleton x
  | case3 _ _ _ _ ih => exact ih
  | case4 x y rest hne ih =>
    refine List.isChain_cons.mpr ⟨?_, ih⟩
    intro z hz
    rw [head?_dropRepeats] at hz
    obtain rfl : y = z := Option.some.inj hz
    exact fun heq => hne (beq_iff_eq.mpr heq)

/-- Dropping repeats leaves in place every choice of elements that has no repeats itself. -/
theorem sublist_dropRepeats {c l : List α} (hc : c.IsChain (· ≠ ·)) (h : c.Sublist l) :
    c.Sublist (dropRepeats l) := by
  fun_induction dropRepeats l generalizing c with
  | case1 => exact h
  | case2 => exact h
  | case3 x y rest heq ih =>
    apply ih hc
    obtain rfl : x = y := eq_of_beq heq
    cases h with
    | cons _ h => exact h
    | cons_cons _ h =>
      refine List.Sublist.cons_cons x ?_
      -- What follows `x` in the choice is not `x` again, so it comes from behind both.
      cases h with
      | cons _ h => exact h
      | cons_cons _ h => exact absurd rfl (List.isChain_cons_cons.mp hc).1
  | case4 x y rest _ ih =>
    cases h with
    | cons _ h => exact (ih hc h).cons x
    | cons_cons _ h => exact (ih hc.tail h).cons_cons x

theorem dropRepeats_mono {l l' : List α} (h : l.Sublist l') :
    (dropRepeats l).Sublist (dropRepeats l') := by
  have hl := (dropRepeats_sublist l).trans h
  exact sublist_dropRepeats (isChain_dropRepeats l) hl

theorem dropRepeats_cons_of_notMem {x : α} {l : List α} (h : x ∉ l) :
    dropRepeats (x :: l) = x :: dropRepeats l := by
  cases l with
  | nil => rfl
  | cons y rest =>
    have hne : ¬(x == y) = true := fun heq => h (by simp [eq_of_beq heq])
    rw [dropRepeats, if_neg hne]

theorem dropRepeats_eq_self {l : List α} (h : l.Nodup) : dropRepeats l = l := by
  induction l with
  | nil => rfl
  | cons x l ih =>
    obtain ⟨hx, hl⟩ := List.nodup_cons.mp h
    rw [dropRepeats_cons_of_notMem hx, ih hl]

/-- A test that cannot tell apart what compares as equal may be applied before or after repeats are
dropped: in a sorted list it never brings two equal elements together. -/
theorem filter_dropRepeats (cmp : α → α → Ordering) [Std.TransCmp cmp] {p : α → Bool} {l : List α}
    (hp : ∀ x ∈ l, ∀ y ∈ l, cmp x y = .eq → p x = p y)
    (hl : l.Pairwise fun x y => (cmp x y).isLE) :
    (dropRepeats l).filter p = dropRepeats (l.filter p) := by
  fun_induction dropRepeats l with
  | case1 => rfl
  | case2 x => cases h : p x <;> simp [h, dropRepeats]
  | case3 x y rest heq ih =>
    have hxy : x = y := eq_of_beq heq
    subst hxy
    rw [ih (fun a ha b hb => hp a (by simp [ha]) b (by simp [hb])) hl.tail]
    cases h : p x <;> simp [h, dropRepeats]
  | case4 x y rest hne ih =>
    have ih := ih (fun a ha b hb => hp a (by simp [ha]) b (by simp [hb])) hl.tail
    cases hx : p x with
    | false => simpa [hx] using ih
    | true =>
      rw [List.filter_cons_of_pos hx, List.filter_cons_of_pos hx, ih]
      cases hy : p y with
      | true => rw [List.filter_cons_of_pos hy, dropRepeats, if_neg hne]
      | false =>
        refine (dropRepeats_cons_of_notMem fun hmem => ?_).symm
        rw [List.filter_cons_of_neg (by simp [hy])] at hmem
        have hxy := (List.pairwise_cons.mp hl).1 y (by simp)
        have hyx := (List.pairwise_cons.mp hl.tail).1 x (List.mem_filter.mp hmem).1
        have := hp x (by simp) y (by simp) (eq_of_isLE_of_isLE cmp hxy hyx)
        simp [hx, hy] at this

end Repeats

end PatternFinder
