import PatternFinder.Proofs.FindingOrder
import PatternFinder.Proofs.Judgement

/-! A run that is told to stop leaves findings out and changes nothing else, whenever and however
often it is told so. -/
namespace PatternFinder.Host

variable {σ : Type} (h : Host) (c : Compilation) (signal : Signal σ)

/-- A pass finds some of what there is to find, in the same order. -/
theorem pass_findings_sublist (s : σ) (items : List WorkItem) :
    (h.pass c signal s items).1.findings.Sublist (items.flatMap (h.findingsAt c)) := by
  induction items generalizing s with
  | nil => exact .slnil
  | cons item rest ih =>
    rw [List.flatMap_cons]
    obtain ⟨s', ⟨-, hfindings⟩ | ⟨-, hfindings⟩⟩ := pass_step h c signal s item rest
    · rw [hfindings]
      exact (ih s').trans (List.sublist_append_right _ _)
    · rw [hfindings]
      exact (ih s').append_left _

/-- Whatever a run is answered when it asks whether to stop: a report that does not say it was
cancelled is the report of a run that is never cancelled, and any report leaves findings out of that
one at most. -/
theorem interrupted_findings_sublist (s : σ) :
    (h.run c .script []).1.cancelled = false ∧
      ((h.run c signal s).1.cancelled = false →
        (h.run c signal s).1.findings = (h.run c .script []).1.findings) ∧
      (h.run c signal s).1.findings.Sublist (h.run c .script []).1.findings := by
  have hnever := run_script_nil h c
  obtain ⟨-, hall⟩ := run_findings h c .script [] hnever
  refine ⟨hnever, ?_, ?_⟩
  · intro hrun
    obtain ⟨-, hfindings⟩ := run_findings h c signal s hrun
    rw [hfindings, hall]
  · rw [hall]
    exact FindingBag.sorted_sublist (pass_findings_sublist h c signal s _)

/-- Two files with a singleton each. A request after the last question comes too late, and one that
is withdrawn after the first question leaves the first file out. -/
theorem interrupted_findings_sublist_solo :
    ((selected (· == .singleton) .standard false).run
        (.ofTrees [soloTree "b.cs", soloTree "a.cs"] true) .script
        [false, false, false, true]).1.findings =
      ((selected (· == .singleton) .standard false).run
        (.ofTrees [soloTree "b.cs", soloTree "a.cs"] true) .script []).1.findings ∧
    ((selected (· == .singleton) .standard false).run
        (.ofTrees [soloTree "b.cs", soloTree "a.cs"] true) .script
        [true, false, false]).1.cancelled = true ∧
    ((selected (· == .singleton) .standard false).run
        (.ofTrees [soloTree "b.cs", soloTree "a.cs"] true) .script
        [true, false, false]).1.findings.Sublist
      ((selected (· == .singleton) .standard false).run
        (.ofTrees [soloTree "b.cs", soloTree "a.cs"] true) .script []).1.findings := by
  refine ⟨(interrupted_findings_sublist _ _ _ _).2.1 ?_, ?_,
    (interrupted_findings_sublist _ _ _ _).2.2⟩
  · decide
  · decide

end PatternFinder.Host
