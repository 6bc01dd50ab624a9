import Mathlib.Data.Set.List
import PatternFinder.Pipeline
import PatternFinder.Proofs.Judgement

/-! Settings that are accepted are read without a failure, and the host that comes out of them does
what they say. -/
namespace PatternFinder

theorem Pattern.name_injective : Function.Injective Pattern.name := by
  intro p q h
  have hread : Pattern.ofName? p.name = Pattern.ofName? q.name := congrArg _ h
  simpa only [Pattern.ofName?_name, Option.some.injEq] using hread

theorem Registry.patterns_retain_standard (keep : Pattern → Bool) :
    (Registry.standard.retain keep).patterns = Pattern.all.filter keep := by
  rw [Registry.patterns, Host.analyzers_retain_standard, List.map_map]
  simp only [Function.comp_def, Host.pattern_ofPattern, List.map_id']

theorem Host.patterns_selected (keep : Pattern → Bool) (o : ReportOptions) (parallel : Bool) :
    (selected keep o parallel).patterns = Pattern.all.filter keep :=
  Registry.patterns_retain_standard keep

theorem PatternSettings.isEnabled_name {s : PatternSettings} {ps : List Pattern}
    (hnames : s.effectiveEnabled = ps.map Pattern.name) (p : Pattern) :
    s.isEnabled p.name = ps.contains p := by
  rw [isEnabled, hnames, Pattern.normalizeName_name, Bool.eq_iff_iff, List.contains_iff_mem,
    List.contains_iff_mem, List.mem_map_of_injective Pattern.name_injective]

namespace Settings.Valid

variable {s : Settings} (hs : s.Valid)
include hs

/-- Whether or not patterns are listed, what is enabled are some patterns by their own names. -/
theorem exists_enabled : ∃ ps ≠ [], s.patterns.effectiveEnabled = ps.map Pattern.name := by
  unfold PatternSettings.effectiveEnabled
  split_ifs with hempty
  · exact ⟨Pattern.all, by decide, rfl⟩
  · have hrange : s.patterns.enabled.map Pattern.normalizeName ∈
        Set.range (List.map Pattern.name) := by
      rw [Set.range_list_map]
      intro name hname
      obtain ⟨spelling, hspelling, rfl⟩ := List.mem_map.mp hname
      obtain ⟨p, hp⟩ := hs.enabled spelling hspelling
      exact ⟨p, hp.symm⟩
    obtain ⟨ps, hps⟩ := hrange
    refine ⟨ps, ?_, hps.symm⟩
    rintro rfl
    exact hempty (by simpa using hps.symm)

theorem override_read {entry : String × String} (hentry : entry ∈ s.patterns.severityOverrides) :
    ∃ p v, Pattern.ofName? entry.1 = some p ∧ Severity.ofName? entry.2 = some v := by
  obtain ⟨⟨p, hp⟩, v, hv⟩ := hs.overrides entry hentry
  refine ⟨p, v, Pattern.ofName?_eq_some_iff.mpr hp, ?_⟩
  rw [hv, Severity.ofName?_name]

theorem exists_minSeverity : ∃ v : Severity, s.patterns.effectiveMinSeverity = v.name := by
  unfold PatternSettings.effectiveMinSeverity
  cases hmin : s.patterns.minSeverity with
  | none => exact ⟨.hint, rfl⟩
  | some name => exact hs.minSeverity name hmin

theorem exists_format : ∃ f, ReportFormat.ofName? s.output.effectiveFormat = some f := by
  have hknown : s.output.effectiveFormat ∈ knownFormats := by
    unfold OutputSettings.effectiveFormat
    cases hformat : s.output.format with
    | none => decide
    | some name => exact hs.format name hformat
  have hread : ∀ name ∈ knownFormats, (ReportFormat.ofName? name).isSome := by decide
  exact Option.isSome_iff_exists.mp (hread _ hknown)

/-- Some pattern is always enabled. -/
theorem enabled_ne_nil : Pattern.all.filter (fun p => s.patterns.isEnabled p.name) ≠ [] := by
  obtain ⟨ps, hps, hnames⟩ := hs.exists_enabled
  obtain ⟨p, hp⟩ := List.exists_mem_of_ne_nil ps hps
  have henabled : s.patterns.isEnabled p.name = true := by
    rw [PatternSettings.isEnabled_name hnames, List.contains_iff_mem]
    exact hp
  exact List.ne_nil_of_mem (List.mem_filter.mpr ⟨p.mem_all, henabled⟩)

theorem registry_eq : Registry.ofSettings s.patterns =
    .ok (Registry.standard.retain fun p => s.patterns.isEnabled p.name) := by
  have hne := hs.enabled_ne_nil
  obtain ⟨ps, -, hnames⟩ := hs.exists_enabled
  rw [funext (PatternSettings.isEnabled_name hnames)] at hne ⊢
  refine Registry.ofSettings_eq_ok hnames ?_
  rw [Registry.isEmpty, Host.analyzers_retain_standard, List.isEmpty_map,
    List.isEmpty_eq_false_iff]
  exact hne

theorem host_eq : Host.ofSettings s = .ok (Host.selected (fun p => s.patterns.isEnabled p.name)
    (Host.optionsOf s) s.analysis.effectiveParallel) := by
  refine Host.ofSettings_eq_ok hs.registry_eq ?_
  intro entry hentry
  obtain ⟨p, -, hp, -⟩ := hs.override_read hentry
  exact ⟨p, hp⟩

end Settings.Valid

/-- A host that runs the enabled patterns, in their fixed order, and grades what they find as the
settings say. Where several spellings of a pattern are overridden, the last one counts. -/
structure Host.Follows (h : Host) (s : Settings) : Prop where
  patterns : h.patterns = Pattern.all.filter fun p => s.patterns.isEnabled p.name
  nodup : h.patterns.Nodup
  nonempty : h.patterns ≠ []
  subscriptions : h.subscriptions =
    h.patterns.flatMap fun p => (Analyzer.ofPattern p).actions.map (⟨p, ·⟩)
  minSeverity : h.options.minSeverity.name = s.patterns.effectiveMinSeverity
  includePartial : h.options.includePartial = s.output.effectiveIncludePartial
  overrides : ∀ p, h.options.severityOverrides p =
    (askedFor s.patterns.severityOverrides p).getLast?
  parallel : h.parallel = s.analysis.effectiveParallel

theorem Settings.Valid.follows {s : Settings} (hs : s.Valid) :
    ∃ h, Host.ofSettings s = .ok h ∧ h.Follows s := by
  have hpatterns := Host.patterns_selected (fun p => s.patterns.isEnabled p.name)
    (Host.optionsOf s) s.analysis.effectiveParallel
  refine ⟨_, hs.host_eq, hpatterns, ?_, ?_, ?_, ?_, rfl, fun _ => rfl, rfl⟩
  · rw [hpatterns]
    exact List.Pairwise.filter _ (by decide)
  · rw [hpatterns]
    exact hs.enabled_ne_nil
  · rw [Host.subscriptions_selected, hpatterns]
  · obtain ⟨v, hv⟩ := hs.exists_minSeverity
    change (Host.optionsOf s).minSeverity.name = _
    rw [Host.optionsOf, hv, Severity.ofName?_name, Option.getD_some]

/-- Settings that are accepted never fail later: the registry and the host are made, no override is
passed over, and every report can be written. -/
theorem Host.ofSettings_of_validate (s : Settings) (hvalid : s.validate = .ok ()) :
    (∃ r, Registry.ofSettings s.patterns = .ok r ∧
        r.patterns = Pattern.all.filter fun p => s.patterns.isEnabled p.name) ∧
      (∃ h, Host.ofSettings s = .ok h ∧ h.Follows s) ∧
      (∀ entry ∈ s.patterns.severityOverrides,
        ∃ p v, Pattern.ofName? entry.1 = some p ∧ Severity.ofName? entry.2 = some v) ∧
      ∀ report, ∃ text, Pipeline.render s report = .ok text := by
  have hs := Settings.validate_eq_ok_iff.mp hvalid
  refine ⟨⟨_, hs.registry_eq, Registry.patterns_retain_standard _⟩, hs.follows, ?_, ?_⟩
  · intro entry hentry
    exact hs.override_read hentry
  · intro report
    obtain ⟨f, hf⟩ := hs.exists_format
    exact ⟨f.render s.output.effectiveColor report, by rw [Pipeline.render, hf]⟩

/-- Two spellings of one pattern, with an override each. -/
def spelledSettings : Settings where
  scan := .unset
  analysis := .unset
  patterns := ⟨[" Factory-Method", "factory method"], some "info",
    [("Factory Method", "error"), ("factory_method", "warning")]⟩
  output := ⟨some "sarif", none, none⟩

theorem Host.ofSettings_of_validate_spelled :
    ∃ h, Host.ofSettings spelledSettings = .ok h ∧ h.patterns = [.factoryMethod] ∧
      h.options.minSeverity = .info ∧
      h.options.severityOverrides .factoryMethod = some .warning ∧
      h.options.severityOverrides .singleton = none := by
  obtain ⟨-, ⟨h, hread, hfollows⟩, -, -⟩ :=
    Host.ofSettings_of_validate spelledSettings (by decide)
  refine ⟨h, hread, hfollows.patterns.trans (by decide), ?_,
    (hfollows.overrides _).trans (by decide), (hfollows.overrides _).trans (by decide)⟩
  have hname : h.options.minSeverity.name = Severity.info.name := hfollows.minSeverity
  simpa only [Severity.ofName?_name, Option.some.injEq] using congrArg Severity.ofName? hname

end PatternFinder
