import PatternFinder.Proofs.StableSort

/-! The order of findings in a report, and what sorting keeps of the findings that arrived. -/
namespace PatternFinder

namespace Finding

instance : Std.TransCmp order := by
  unfold order
  infer_instance

/-- Findings that compare as equal agree on the place, the rule and the check. -/
theorem order_eq_eq_iff {x y : Finding} :
    order x y = .eq ↔ x.location.file = y.location.file ∧
      x.location.range.start = y.location.range.start ∧ x.ruleId = y.ruleId ∧
        x.check = y.check := by
  simp only [order, compareLex_eq_eq, compareOn, Std.compare_eq_iff_eq, line, column]
  constructor
  · rintro ⟨hfile, hline, hcolumn, hrule, hcheck⟩
    refine ⟨hfile, ?_, hrule, hcheck⟩
    cases hx : x.location.range.start
    cases hy : y.location.range.start
    simp_all
  · rintro ⟨hfile, hstart, hrule, hcheck⟩
    exact ⟨hfile, by rw [hstart], by rw [hstart], hrule, hcheck⟩

theorem nodup_of_increasing {l : List Finding} (hl : l.Pairwise fun x y => order x y = .lt) :
    l.Nodup := by
  refine hl.imp fun {x y} h heq => ?_
  have hself : order y y = .eq := Std.ReflCmp.compare_self
  rw [heq, hself] at h
  cases h

end Finding

namespace FindingBag

theorem mem_sorted {f : Finding} {l : List Finding} : f ∈ (FindingBag.mk l).sorted ↔ f ∈ l := by
  rw [sorted, mem_dropRepeats, List.mem_mergeSort]

/-- A test that cannot tell findings with one key apart may be applied before or after sorting. -/
theorem filter_sorted {p : Finding → Bool} {l : List Finding}
    (hp : ∀ x ∈ l, ∀ y ∈ l, Finding.order x y = .eq → p x = p y) :
    (FindingBag.mk l).sorted.filter p = (FindingBag.mk (l.filter p)).sorted := by
  unfold sorted
  rw [filter_dropRepeats Finding.order ?_ (pairwise_sorted Finding.order l), filter_mergeSort]
  intro x hx y hy
  exact hp x (List.mem_mergeSort.mp hx) y (List.mem_mergeSort.mp hy)

/-- Of fewer findings the same report is made, with some findings left out. Where findings that
kept equal ones apart are missing, the equal ones are still reported. -/
theorem sorted_sublist {l l' : List Finding} (h : l.Sublist l') :
    (FindingBag.mk l).sorted.Sublist (FindingBag.mk l').sorted := by
  have hsorted := mergeSort_sublist Finding.order h
  exact dropRepeats_mono hsorted

theorem sorted_pairwise_lt {l : List Finding} (hl : l.Pairwise fun x y => Finding.order x y ≠ .eq) :
    (FindingBag.mk l).sorted.Pairwise fun x y => Finding.order x y = .lt := by
  have hlt := mergeSort_pairwise_lt Finding.order hl
  rwa [sorted, dropRepeats_eq_self (Finding.nodup_of_increasing hlt)]

/-- Findings with different keys are reported in one order, however they arrive. -/
theorem sorted_eq_of_perm {l l' : List Finding} (hp : l.Perm l')
    (hl : l.Pairwise fun x y => Finding.order x y ≠ .eq) :
    (FindingBag.mk l).sorted = (FindingBag.mk l').sorted := by
  unfold sorted
  rw [mergeSort_eq_of_perm Finding.order hp hl]

end FindingBag

end PatternFinder
