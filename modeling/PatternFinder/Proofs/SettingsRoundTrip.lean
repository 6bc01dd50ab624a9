import PatternFinder.Proofs.KeyedEntries
import PatternFinder.Proofs.TomlDocument

/-! Settings are read back from the text that is written of them. -/
namespace PatternFinder

namespace Toml

/-! ## Entries of settings -/

theorem asNat?_ofNat (n : Nat) : asNat? (ofNat n) = some n := rfl

theorem asStrings?_ofStrings (ss : List String) : asStrings? (ofStrings ss) = some ss := by
  rw [ofStrings, asStrings?]
  induction ss with
  | nil => rfl
  | cons s ss ih => simp [asString?, ih]

variable {α : Type} {key : String} {write : α → Toml} {value : Option α}

theorem isSetting_entry (h : ∀ a ∈ value, IsSetting (write a)) :
    ∀ e ∈ entry key write value, IsSetting e.2 := by
  intro e he
  cases value with
  | none => cases he
  | some a =>
    obtain rfl := List.mem_singleton.mp he
    exact h a rfl

end Toml

open Toml

theorem ScanSettings.ofToml?_toToml (s : ScanSettings) : ofToml? s.toToml = some s := by
  obtain ⟨size, ignore, follow, hidden⟩ := s
  have hignore := asStrings?_ofStrings ignore
  cases size <;> cases follow <;> cases hidden <;>
    simp only [ofToml?, toToml, fields?, entries?, optional?, strings?, entry, List.nil_append,
      List.append_nil, List.cons_append, List.lookup_cons, List.lookup_nil, String.reduceBEq,
      hignore, asNat?_ofNat, asBool?, Option.map_some, Option.getD_some, Option.bind_eq_bind,
      Option.bind_some]

theorem AnalysisSettings.ofToml?_toToml (s : AnalysisSettings) : ofToml? s.toToml = some s := by
  obtain ⟨parallel, threads, model⟩ := s
  cases parallel <;> cases threads <;> cases model <;>
    simp only [ofToml?, toToml, fields?, entries?, optional?, entry, List.nil_append,
      List.append_nil, List.cons_append, List.lookup_cons, List.lookup_nil, String.reduceBEq,
      asNat?_ofNat, asBool?, Option.map_some, Option.bind_eq_bind, Option.bind_some]

theorem OutputSettings.ofToml?_toToml (s : OutputSettings) : ofToml? s.toToml = some s := by
  obtain ⟨format, included, color⟩ := s
  cases format <;> cases included <;> cases color <;>
    simp only [ofToml?, toToml, fields?, entries?, optional?, entry, List.nil_append,
      List.append_nil, List.cons_append, List.lookup_cons, List.lookup_nil, String.reduceBEq,
      asString?, asBool?, Option.map_some, Option.bind_eq_bind, Option.bind_some]

theorem PatternSettings.overrides?_table {entries : List (String × String)}
    (h : KeysIncrease entries) :
    overrides? (.table (entries.map fun entry => (entry.1, .string entry.2))) = some entries := by
  have hpairs : ∀ entries : List (String × String),
      (entries.map fun entry => (entry.1, Toml.string entry.2)).mapM
        (fun entry => entry.2.asString?.map ((entry.1, ·))) = some entries := by
    intro entries
    induction entries with
    | nil => rfl
    | cons entry entries ih =>
      rw [List.map_cons, List.mapM_cons, ih]
      rfl
  simp only [overrides?, entries?, Option.bind_eq_bind, Option.bind_some]
  rw [hpairs, Option.bind_some, h.overlay_nil]

theorem PatternSettings.ofToml?_toToml {s : PatternSettings}
    (h : KeysIncrease s.severityOverrides) : ofToml? s.toToml = some s := by
  obtain ⟨enabled, severity, overrides⟩ := s
  have henabled := asStrings?_ofStrings enabled
  have hoverrides := overrides?_table h
  dsimp only at hoverrides
  cases severity <;>
    simp only [ofToml?, toToml, fields?, entries?, optional?, strings?, entry, List.nil_append,
      List.append_nil, List.cons_append, List.lookup_cons, List.lookup_nil, String.reduceBEq,
      henabled, hoverrides, asString?, Option.map_some, Option.getD_some, Option.bind_eq_bind,
      Option.bind_some]

/-! ## The text of a document -/

theorem ScanSettings.exists_section (s : ScanSettings) (h : ∀ n ∈ s.maxFileSize, IsWord n) :
    ∃ entries, s.toToml = .table entries ∧ IsSection entries := by
  refine ⟨_, rfl, ?_, ?_⟩
  · simp only [List.forall_mem_append, List.forall_mem_singleton]
    exact ⟨⟨⟨isSetting_entry fun n hn => .number (h n hn), .strings _⟩,
      isSetting_entry fun b _ => .boolean b⟩, isSetting_entry fun b _ => .boolean b⟩
  · obtain ⟨size, ignore, follow, hidden⟩ := s
    cases size <;> cases follow <;> cases hidden <;> simp [entry]

theorem AnalysisSettings.exists_section (s : AnalysisSettings) (h : ∀ n ∈ s.threads, IsWord n) :
    ∃ entries, s.toToml = .table entries ∧ IsSection entries := by
  refine ⟨_, rfl, ?_, ?_⟩
  · simp only [List.forall_mem_append]
    exact ⟨⟨isSetting_entry fun b _ => .boolean b, isSetting_entry fun n hn => .number (h n hn)⟩,
      isSetting_entry fun b _ => .boolean b⟩
  · obtain ⟨parallel, threads, model⟩ := s
    cases parallel <;> cases threads <;> cases model <;> simp [entry]

theorem OutputSettings.exists_section (s : OutputSettings) :
    ∃ entries, s.toToml = .table entries ∧ IsSection entries := by
  refine ⟨_, rfl, ?_, ?_⟩
  · simp only [List.forall_mem_append]
    exact ⟨⟨isSetting_entry fun t _ => .string t, isSetting_entry fun b _ => .boolean b⟩,
      isSetting_entry fun b _ => .boolean b⟩
  · obtain ⟨format, included, color⟩ := s
    cases format <;> cases included <;> cases color <;> simp [entry]

/-- The overrides stand in a section of their own behind that of the patterns. -/
theorem PatternSettings.exists_sections {s : PatternSettings}
    (h : KeysIncrease s.severityOverrides) :
    ∃ entries overrides, s.toToml = .table (entries ++ [("severity_overrides", .table overrides)]) ∧
      IsSection entries ∧ entries ≠ [] ∧ "severity_overrides" ∉ entries.map Prod.fst ∧
      IsSection overrides := by
  obtain ⟨enabled, severity, overrides⟩ := s
  refine ⟨_, _, rfl, ⟨?_, ?_⟩, by simp, ?_, ?_, ?_⟩
  · simp only [List.forall_mem_append, List.forall_mem_singleton]
    exact ⟨.strings enabled, isSetting_entry fun t _ => .string t⟩
  · cases severity <;> simp [entry]
  · cases severity <;> simp [entry]
  · intro entry hentry
    obtain ⟨⟨key, v⟩, -, rfl⟩ := List.mem_map.mp hentry
    exact .string v
  · simp only [List.map_map]
    refine List.pairwise_map.mpr (h.imp fun hlt => hlt.ne)

namespace Toml

/-- What stands in the sections of a document with settings. -/
structure Sections where
  scan : List (String × Toml)
  analysis : List (String × Toml)
  patterns : List (String × Toml)
  overrides : List (String × Toml)
  output : List (String × Toml)
  isSection_scan : IsSection scan
  isSection_analysis : IsSection analysis
  isSection_patterns : IsSection patterns
  isSection_overrides : IsSection overrides
  isSection_output : IsSection output
  patterns_ne_nil : patterns ≠ []
  overrides_not_mem : "severity_overrides" ∉ patterns.map Prod.fst

namespace Sections

def document (d : Sections) : Toml :=
  .table [("scan", .table d.scan), ("analysis", .table d.analysis),
    ("patterns", .table (d.patterns ++ [("severity_overrides", .table d.overrides)])),
    ("output", .table d.output)]

theorem toList_print (d : Sections) :
    (print d.document).toList =
      (headed ["scan"] d.scan).toList ++ '\n' ::
        ((headed ["analysis"] d.analysis).toList ++ '\n' ::
          ((headed ["patterns"] d.patterns).toList ++ '\n' ::
            ((headed ["patterns", "severity_overrides"] d.overrides).toList ++ '\n' ::
              (headed ["output"] d.output).toList))) := by
  have hscan : sections ([] ++ ["scan"]) (.table d.scan) = [headed ["scan"] d.scan] :=
    d.isSection_scan.sections_eq (by simp)
  have hanalysis : sections ([] ++ ["analysis"]) (.table d.analysis) =
      [headed ["analysis"] d.analysis] := d.isSection_analysis.sections_eq (by simp)
  have hpatterns : sections ([] ++ ["patterns"])
      (.table (d.patterns ++ [("severity_overrides", .table d.overrides)])) =
        [headed ["patterns"] d.patterns, headed ["patterns", "severity_overrides"] d.overrides] :=
    d.isSection_patterns.sections_nested d.patterns_ne_nil d.isSection_overrides (by simp) _
  have houtput : sections ([] ++ ["output"]) (.table d.output) = [headed ["output"] d.output] :=
    d.isSection_output.sections_eq (by simp)
  have hsections : sections [] d.document =
      [headed ["scan"] d.scan, headed ["analysis"] d.analysis, headed ["patterns"] d.patterns,
        headed ["patterns", "severity_overrides"] d.overrides, headed ["output"] d.output] := by
    rw [document, sections_of_tables (by simp [isTable])]
    rw [entrySections, hscan, entrySections, hanalysis, entrySections, hpatterns, entrySections,
      houtput, entrySections]
    rfl
  rw [print, hsections]
  simp

/-- The lines of the document open its tables one after the other and fill them. -/
theorem readsTo (d : Sections) :
    ReadsTo ⟨[], []⟩ (print d.document).toList
      [("scan", .table .header (Draft.ofValues d.scan)),
        ("analysis", .table .header (Draft.ofValues d.analysis)),
        ("patterns", .table .header (Draft.ofValues d.patterns ++
          [("severity_overrides", .table .header (Draft.ofValues d.overrides))])),
        ("output", .table .header (Draft.ofValues d.output))] := by
  have hoverrides : "severity_overrides" ∉ (Draft.ofValues d.patterns).map Prod.fst := by
    rw [Draft.map_fst_ofValues]
    exact d.overrides_not_mem
  have hpatterns : "patterns" ∉ ([("scan", .table .header (Draft.ofValues d.scan)),
      ("analysis", .table .header (Draft.ofValues d.analysis))] : Draft.Entries).map Prod.fst := by
    simp
  rw [d.toList_print, ← List.append_nil (headed ["output"] d.output).toList]
  refine .headed Draft.leads_nil (by decide) (by simp) d.isSection_scan (.blank ?_)
  refine .headed Draft.leads_nil (by decide) (by simp) d.isSection_analysis (.blank ?_)
  refine .headed Draft.leads_nil (by decide) hpatterns d.isSection_patterns (.blank ?_)
  refine .headed (Draft.leads_nil.table hpatterns .header) (by decide) hoverrides
    d.isSection_overrides (.blank ?_)
  refine .headed Draft.leads_nil (by decide) (by simp) d.isSection_output ?_
  exact .nil _

/-- A document with settings is read back from its text. -/
theorem read?_print (d : Sections) : read? (print d.document) = some d.document := by
  have hhead : (print d.document).toList.head? = some '[' := by
    rw [d.toList_print, List.head?_append, head?_headed]
    rfl
  rw [d.readsTo.read?_eq hhead]
  simp [document, Draft.closeEntries, Draft.close, Draft.closeEntries_append,
    Draft.closeEntries_ofValues]

end Sections

end Toml

namespace Settings

theorem exists_sections {s : Settings} (hkeys : KeysIncrease s.patterns.severityOverrides)
    {document : Toml} (h : s.toToml? = some document) : ∃ d : Sections, document = d.document := by
  unfold toToml? at h
  split_ifs at h with hwritable
  obtain rfl := Option.some.inj h
  obtain ⟨scan, hscan, hscan'⟩ := s.scan.exists_section hwritable.1
  obtain ⟨analysis, hanalysis, hanalysis'⟩ := s.analysis.exists_section hwritable.2
  obtain ⟨patterns, overrides, hpatterns, hpatterns', hne, hnested, hoverrides⟩ :=
    PatternSettings.exists_sections hkeys
  obtain ⟨output, houtput, houtput'⟩ := s.output.exists_section
  refine ⟨⟨scan, analysis, patterns, overrides, output, hscan', hanalysis', hpatterns', hoverrides,
    houtput', hne, hnested⟩, ?_⟩
  rw [hscan, hanalysis, hpatterns, houtput]
  rfl

private theorem ofToml?_toToml? {s : Settings} (hkeys : KeysIncrease s.patterns.severityOverrides)
    {document : Toml} (h : s.toToml? = some document) : ofToml? document = some s := by
  unfold toToml? at h
  split_ifs at h
  obtain rfl := Option.some.inj h
  simp [ofToml?, entries?, optional?, List.lookup_cons, s.scan.ofToml?_toToml,
    s.analysis.ofToml?_toToml, PatternSettings.ofToml?_toToml hkeys, s.output.ofToml?_toToml]

/-- Whatever strings the settings hold, and whichever of them are set: the text that is written of
them, if there is one, gives the same settings when it is read. -/
theorem read_back_from_text (s : Settings) (hkeys : KeysIncrease s.patterns.severityOverrides)
    (text : String) (h : s.toText? = some text) : ofText? text = some s := by
  obtain ⟨document, hdocument, rfl⟩ := Option.map_eq_some_iff.mp h
  obtain ⟨d, rfl⟩ := exists_sections hkeys hdocument
  rw [ofText?, d.read?_print, Option.bind_some]
  exact ofToml?_toToml? hkeys hdocument

/-- Settings whose strings need every form of quotes. -/
def quotedSettings : Settings where
  scan := ⟨some 0, ["", "a\"b", "it's \"so\"", "\x27\x27\x27\\\n"], none, some true⟩
  analysis := ⟨none, some 9223372036854775807, none⟩
  patterns := ⟨["\"\"\"\"\n\x01\"", "tab\there", "\r\n\\"], some "\n\"\"",
    [("", "\x7f"), ("a b", "]"), ("dot.key", ","), ("it's \"so\"\n", ""), ("singleton", "é")]⟩
  output := ⟨some "\\", none, some false⟩

theorem read_back_from_text_quoted :
    KeysIncrease quotedSettings.patterns.severityOverrides ∧
      ∃ text, quotedSettings.toText? = some text ∧ ofText? text = some quotedSettings := by
  have hkeys : KeysIncrease quotedSettings.patterns.severityOverrides := by decide
  obtain ⟨text, htext⟩ : ∃ text, quotedSettings.toText? = some text := ⟨_, rfl⟩
  exact ⟨hkeys, text, htext, read_back_from_text quotedSettings hkeys text htext⟩

end Settings

end PatternFinder
