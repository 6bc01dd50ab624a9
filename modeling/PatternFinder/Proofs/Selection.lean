import PatternFinder.Proofs.FindingOrder
import PatternFinder.Proofs.Judgement

/-! Choosing patterns, options and semantics filters the findings of one full run. -/
namespace PatternFinder

theorem Rule.ofPattern_id_injective {p q : Pattern}
    (h : (Rule.ofPattern p).id = (Rule.ofPattern q).id) : p = q := by
  cases p <;> cases q <;> first | rfl | simp [Rule.ofPattern] at h

namespace Flyweight

theorem hasCollection_of_no_semantics {c : Compilation} (hc : c.semantics = none)
    (f : FieldDeclaration) : hasCollection f c = .unsupported .noSemanticModel := by
  unfold hasCollection
  rw [hc]

theorem Context.collect_of_no_semantics {c : Compilation} (hc : c.semantics = none)
    (t : TypeDeclaration) : (Context.collect t c).elementTypes = [] := by
  have hnone : (t.fields.map (hasCollection · c)).filter (·.matched) = [] := by
    rw [List.filter_eq_nil_iff]
    intro outcome ho
    obtain ⟨f, -, rfl⟩ := List.mem_map.mp ho
    rw [hasCollection_of_no_semantics hc]
    decide
  unfold Context.collect
  dsimp only
  rw [hnone]
  rfl

private theorem hasGetMethod_of_no_elements {context : Context} (hc : context.elementTypes = [])
    (m : MethodDeclaration) : (hasGetMethod m context).matched = false := by
  have htracks : ∀ name, context.tracks name = false := by
    intro name
    rw [Context.tracks, hc]
    rfl
  unfold hasGetMethod
  split
  · rfl
  · split
    · simp only [htracks, Bool.false_eq_true, if_false]
      split_ifs <;> rfl
    · rfl

end Flyweight

/-- Only judgements about flyweights look at the semantics, and without them none is a match. -/
theorem flatMap_judgements_without_semantics {F : Judgement → List Finding}
    (hF : ∀ j : Judgement, j.outcome.matched = false → F j = []) (trees : List SourceTree)
    (site : Site) (owner : Option TypeDeclaration) :
    (judgements (.ofTrees trees false) site owner).flatMap F =
      (judgements (.ofTrees trees true) site owner).flatMap fun j =>
        if j.pattern == .flyweight then [] else F j := by
  have hnone : (Compilation.ofTrees trees false).semantics = none := rfl
  cases site with
  | type t =>
    have hsame : judgements (.ofTrees trees false) (.type t) owner =
        judgements (.ofTrees trees true) (.type t) owner := rfl
    rw [hsame]
    cases ht : t.isInterface <;> simp [judgements, ht, Check.pattern]
  | «local» l =>
    have hsame : judgements (.ofTrees trees false) (.local l) owner =
        judgements (.ofTrees trees true) (.local l) owner := rfl
    rw [hsame]
    simp [judgements, Check.pattern]
  | field f =>
    have hfield : F (.ofCheck (.ofTrees trees false) (.hasCollection f) f.firstName) = [] := by
      refine hF _ ?_
      change (Flyweight.hasCollection f (.ofTrees trees false)).matched = false
      rw [Flyweight.hasCollection_of_no_semantics hnone]
      rfl
    simp [judgements, Check.pattern, hfield]
  | method m =>
    have hsame : judgements (.ofTrees trees false) (.method m) none =
        judgements (.ofTrees trees true) (.method m) none := rfl
    cases owner with
    | none =>
      rw [hsame]
      simp [judgements, Check.pattern]
    | some t =>
      have hmethod : F (.ofCheck (.ofTrees trees false)
          (.hasGetMethod m (.collect t (.ofTrees trees false))) m.identifier) = [] :=
        hF _ (Flyweight.hasGetMethod_of_no_elements
          (Flyweight.Context.collect_of_no_semantics hnone t) m)
      simp [judgements, Check.pattern, hmethod]
      rfl
  | _ => rfl

/-- The options that let everything through, with the same severities. -/
def ReportOptions.unfiltered (o : ReportOptions) : ReportOptions :=
  { o with minSeverity := .hint, includePartial := true }

/-- Whether a finding is about a chosen pattern, severe enough, not left out as partial and, unless
there are semantics, not about flyweights. -/
def ReportOptions.admits (keep : Pattern → Bool) (o : ReportOptions) (semantic : Bool)
    (f : Finding) : Bool :=
  keep f.pattern && f.severity.atLeast o.minSeverity &&
    (o.includePartial || !Judgement.partialChecks.contains f.check) &&
    (semantic || f.pattern != .flyweight)

namespace Judgement

theorem reported_unfiltered (o : ReportOptions) (j : Judgement) :
    j.reported o.unfiltered = j.findings o := by
  have hpass : j.passes o.unfiltered = true := by
    unfold passes ReportOptions.unfiltered Severity.atLeast
    cases ReportOptions.severityFor _ j.pattern <;> rfl
  rw [reported, hpass]
  rfl

/-- All findings of a judgement are admitted, or none is. -/
theorem filter_findings (keep : Pattern → Bool) (o : ReportOptions) (semantic : Bool)
    (j : Judgement) :
    (j.findings o).filter (o.admits keep semantic) =
      if keep j.pattern && j.passes o && (semantic || j.pattern != .flyweight) then j.findings o
      else [] := by
  have hadmits : ∀ f ∈ j.findings o, o.admits keep semantic f =
      (keep j.pattern && j.passes o && (semantic || j.pattern != .flyweight)) := by
    intro f hf
    obtain ⟨-, -, hf⟩ := mem_findings_iff.mp hf
    rw [hf]
    simp only [ReportOptions.admits, passes, finding, Bool.and_assoc]
  rw [List.filter_congr hadmits]
  split_ifs with h <;> simp [h]

private theorem findings_of_not_matched (o : ReportOptions) {j : Judgement}
    (h : j.outcome.matched = false) : j.findings o = [] := by
  rw [findings, h]

end Judgement

private theorem flatMap_reported_eq_filter (keep : Pattern → Bool) (o : ReportOptions)
    (trees : List SourceTree) (semantic : Bool) (site : Site) (owner : Option TypeDeclaration) :
    ((judgements (.ofTrees trees semantic) site owner).filter (keep ·.pattern)).flatMap
        (Judgement.reported o) =
      ((judgements (.ofTrees trees true) site owner).flatMap
        (Judgement.findings o)).filter (o.admits keep semantic) := by
  rw [flatMap_filter, List.filter_flatMap]
  simp only [Judgement.filter_findings]
  cases semantic with
  | true =>
    congr 1
    funext j
    cases hk : keep j.pattern <;> simp [Judgement.reported]
  | false =>
    rw [flatMap_judgements_without_semantics]
    · congr 1
      funext j
      cases hk : keep j.pattern <;> cases hp : j.pattern == .flyweight <;>
        simp [Judgement.reported, hp, bne]
    · intro j hj
      simp [Judgement.reported, Judgement.findings_of_not_matched o hj]

namespace Host

theorem reported_eq_filter (keep : Pattern → Bool) (o : ReportOptions) (parallel : Bool)
    (trees : List SourceTree) (semantic : Bool) :
    (selected keep o parallel).reported (.ofTrees trees semantic) =
      ((selected (fun _ => true) o.unfiltered parallel).reported (.ofTrees trees true)).filter
        (o.admits keep semantic) := by
  have hsame : declarations (.ofTrees trees semantic) = declarations (.ofTrees trees true) := rfl
  simp only [reported_selected, hsame, flatMap_reported_eq_filter, List.filter_flatMap,
    List.filter_true, Judgement.reported_unfiltered]

theorem mem_reported {keep : Pattern → Bool} {o : ReportOptions} {parallel : Bool} {c : Compilation}
    {f : Finding} (hf : f ∈ (selected keep o parallel).reported c) :
    f.ruleId = (Rule.ofPattern f.pattern).id ∧ f.severity = o.severityFor f.pattern := by
  rw [reported_selected] at hf
  obtain ⟨item, -, hf⟩ := List.mem_flatMap.mp hf
  obtain ⟨j, -, hf⟩ := List.mem_flatMap.mp hf
  obtain ⟨-, -, -, -, hf⟩ := Judgement.mem_reported_iff.mp hf
  rw [hf]
  exact ⟨rfl, rfl⟩

/-- Running the analyzers of some patterns with any options, and with or without semantics, gives
the admitted findings of the run of all analyzers that leaves nothing out. -/
theorem selected_run_eq_filter {σ τ : Type} (trees : List SourceTree) (semantic : Bool)
    (keep : Pattern → Bool) (o : ReportOptions) (signal : Signal σ) (s : σ) (signal' : Signal τ)
    (s' : τ)
    (hrun : ((selected keep o false).run (.ofTrees trees semantic) signal s).1.cancelled = false)
    (hfull : ((selected (fun _ => true) o.unfiltered false).run
      (.ofTrees trees true) signal' s').1.cancelled = false) :
    ((selected keep o false).run (.ofTrees trees semantic) signal s).1.findings =
      ((selected (fun _ => true) o.unfiltered false).run
        (.ofTrees trees true) signal' s').1.findings.filter fun f =>
          keep f.pattern && f.severity.atLeast o.minSeverity &&
            (o.includePartial || !Judgement.partialChecks.contains f.check) &&
            (semantic || f.pattern != .flyweight) := by
  obtain ⟨-, hrun⟩ := run_findings _ _ signal s hrun
  obtain ⟨-, hfull⟩ := run_findings _ _ signal' s' hfull
  rw [hrun, hfull, reported_eq_filter]
  refine (FindingBag.filter_sorted ?_).symm
  intro x hx y hy hxy
  obtain ⟨hxid, hxsev⟩ := mem_reported hx
  obtain ⟨hyid, hysev⟩ := mem_reported hy
  obtain ⟨-, -, hid, hcheck⟩ := Finding.order_eq_eq_iff.mp hxy
  have hpattern : x.pattern = y.pattern := by
    apply Rule.ofPattern_id_injective
    rw [← hxid, ← hyid, hid]
  unfold ReportOptions.admits
  rw [hxsev, hysev, hpattern, hcheck]

/-- Asking two files with a singleton each for severe singletons only. -/
theorem selected_run_eq_filter_solo :
    ((selected (· == .singleton) ⟨.warning, false, fun _ => some .error⟩ false).run
      (.ofTrees [soloTree "b.cs", soloTree "a.cs"] false) .script []).1.findings =
      ((selected (fun _ => true) ⟨.hint, true, fun _ => some .error⟩ false).run
        (.ofTrees [soloTree "b.cs", soloTree "a.cs"] true) .script []).1.findings.filter fun f =>
          f.pattern == .singleton && f.severity.atLeast .warning &&
            (false || !Judgement.partialChecks.contains f.check) &&
            (false || f.pattern != .flyweight) :=
  selected_run_eq_filter [soloTree "b.cs", soloTree "a.cs"] false (· == .singleton)
    ⟨.warning, false, fun _ => some .error⟩ .script [] .script []
    (run_script_nil _ _) (run_script_nil _ _)

end Host

end PatternFinder
