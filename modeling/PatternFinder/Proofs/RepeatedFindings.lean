import Mathlib.Data.List.Nodup
import PatternFinder.Proofs.FindingOrder

/-! Which findings a report repeats: those that came again after a different finding with the same
key. -/
namespace PatternFinder

section Repeats

variable {α : Type}

/-- Where neighbours differ, an element that comes twice has another one in between. -/
theorem exists_between_of_isChain {a : α} {l : List α} (hl : l.IsChain (· ≠ ·))
    (h : [a, a].Sublist l) : ∃ b, b ≠ a ∧ [a, b, a].Sublist l := by
  induction l with
  | nil => cases h
  | cons x l ih =>
    cases h with
    | cons _ h =>
      obtain ⟨b, hb, hbetween⟩ := ih hl.tail h
      exact ⟨b, hb, hbetween.cons x⟩
    | cons_cons _ h =>
      cases l with
      | nil => cases h
      | cons y l =>
        have hne : a ≠ y := (List.isChain_cons_cons.mp hl).1
        refine ⟨y, hne.symm, List.Sublist.cons_cons a (List.Sublist.cons_cons y ?_)⟩
        rw [List.singleton_sublist] at h ⊢
        exact (List.mem_cons.mp h).resolve_left hne

/-- Dropping repeats leaves an element twice exactly when another one stands in between. -/
theorem nodup_dropRepeats_iff [BEq α] [LawfulBEq α] {l : List α} :
    (dropRepeats l).Nodup ↔ ∀ x y, [x, y, x].Sublist l → x = y := by
  constructor
  · intro hnodup x y hbetween
    by_contra hne
    have hchain : [x, y, x].IsChain (· ≠ ·) := by simp [hne, Ne.symm hne]
    have hkept := hnodup.sublist (sublist_dropRepeats hchain hbetween)
    simp at hkept
  · intro h
    rw [List.nodup_iff_sublist]
    intro x htwice
    obtain ⟨y, hne, hbetween⟩ := exists_between_of_isChain (isChain_dropRepeats l) htwice
    exact hne (h x y (hbetween.trans (dropRepeats_sublist l))).symm

/-- Elements that compare as equal keep their order of arrival. -/
theorem filter_mergeSort_of_eq (cmp : α → α → Ordering) [Std.TransCmp cmp] {p : α → Bool}
    {l : List α} (hp : ∀ x ∈ l, ∀ y ∈ l, p x → p y → cmp x y = .eq) :
    (l.mergeSort fun x y => (cmp x y).isLE).filter p = l.filter p := by
  rw [filter_mergeSort]
  refine List.mergeSort_of_pairwise (List.pairwise_of_forall_mem_list fun x hx y hy => ?_)
  obtain ⟨hx, hpx⟩ := List.mem_filter.mp hx
  obtain ⟨hy, hpy⟩ := List.mem_filter.mp hy
  rw [hp x hx y hy hpx hpy]
  rfl

/-- Sorting brings elements between two others only if they compare as equal to both. -/
theorem between_mergeSort_iff (cmp : α → α → Ordering) [Std.TransCmp cmp] {x y : α} {l : List α} :
    [x, y, x].Sublist (l.mergeSort fun a b => (cmp a b).isLE) ↔
      cmp x y = .eq ∧ [x, y, x].Sublist l := by
  have hself : cmp x x = .eq := Std.ReflCmp.compare_self
  constructor
  · intro h
    have hordered := (pairwise_sorted cmp l).sublist h
    simp only [List.pairwise_cons, List.mem_cons, List.not_mem_nil, or_false] at hordered
    have hxy : cmp x y = .eq :=
      eq_of_isLE_of_isLE cmp (hordered.1 y (.inl rfl)) (hordered.2.1 x rfl)
    refine ⟨hxy, ?_⟩
    have hfilter := h.filter fun z => cmp x z == .eq
    rw [filter_mergeSort_of_eq] at hfilter
    · simp only [List.filter_cons, hself, hxy, List.filter_nil, beq_self_eq_true, if_true]
        at hfilter
      exact hfilter.trans List.filter_sublist
    · intro a _ b _ ha hb
      have hax : cmp a x = .eq := Std.OrientedCmp.eq_symm (beq_iff_eq.mp ha)
      exact Std.TransCmp.eq_trans hax (beq_iff_eq.mp hb)
  · rintro ⟨hxy, h⟩
    have hyx : cmp y x = .eq := Std.OrientedCmp.eq_symm hxy
    refine List.sublist_mergeSort (fun _ _ _ => Std.TransCmp.isLE_trans) (isLE_total cmp) ?_ h
    simp [hxy, hyx, hself]

end Repeats

namespace FindingBag

theorem report_foldl (b : FindingBag) (fs : List Finding) :
    fs.foldl report b = ⟨b.items ++ fs⟩ := by
  induction fs generalizing b with
  | nil => simp
  | cons f fs ih => rw [List.foldl_cons, ih, report, List.append_assoc, List.singleton_append]

theorem nodup_sorted_iff {fs : List Finding} : (FindingBag.mk fs).sorted.Nodup ↔
    ∀ f g, [f, g, f].Sublist fs → Finding.order f g = .eq → f = g := by
  rw [sorted, nodup_dropRepeats_iff]
  simp only [between_mergeSort_iff, and_imp]
  exact forall₂_congr fun f g => forall_comm

/-- Of the findings that were reported, in whatever order, the report holds each, no other, and
sorted by key. Equal ones are never neighbours in it; all equal ones are reported once exactly when
no finding came again after a different one with the same key. -/
theorem sorted_account (fs : List Finding) :
    let report := (fs.foldl FindingBag.report .empty).sorted
    report.Pairwise (fun f g => (Finding.order f g).isLE) ∧ (∀ f, f ∈ report ↔ f ∈ fs) ∧
      report.IsChain (· ≠ ·) ∧
        (report.Nodup ↔ ∀ f g, [f, g, f].Sublist fs → Finding.order f g = .eq → f = g) := by
  rw [report_foldl, empty, List.nil_append]
  exact ⟨(pairwise_sorted Finding.order fs).sublist (dropRepeats_sublist _), fun f => mem_sorted,
    isChain_dropRepeats _, nodup_sorted_iff⟩

/-- A finding about one place, with what it goes by. -/
def sharedPlace (evidence : Option String) : Finding :=
  ⟨"SingletonPatternAnalyzer", .singleton, "Singleton", .info, "m", ⟨"a.cs", ⟨⟨2, 0⟩, ⟨2, 3⟩⟩⟩,
    evidence⟩

/-- The second finding has the key of the first and keeps the third from being its neighbour. -/
theorem finding_reported_twice :
    ¬(([sharedPlace none, sharedPlace (some "x"), sharedPlace none].foldl FindingBag.report
      .empty).sorted.Nodup) := by
  rw [report_foldl, empty, List.nil_append, nodup_sorted_iff]
  intro h
  have hsame := h (sharedPlace none) (sharedPlace (some "x")) (List.Sublist.refl _)
    (Finding.order_eq_eq_iff.mpr ⟨rfl, rfl, rfl, rfl⟩)
  cases hsame

end FindingBag

end PatternFinder
