import Mathlib.Data.List.Nodup
import PatternFinder.Config.Layers
import PatternFinder.Proofs.KeyedEntries
import PatternFinder.Proofs.ValidSettings

/-! Severity overrides are kept under the spelling in which they were written. A host takes the last
spelling of a pattern and the settings show the first one; when two layers are merged, the spelling
that comes last wins and not the layer that is stronger. -/
namespace PatternFinder

/-- The override that settings show for a pattern. -/
def PatternSettings.overrideFor? (s : PatternSettings) (p : Pattern) : Option Severity :=
  (s.severityOverride? p.name).bind Severity.ofName?

/-- No two keys spell the same pattern. -/
def OneSpelling (entries : List (String × String)) : Prop :=
  (entries.map fun entry => Pattern.normalizeName entry.1).Nodup

instance (entries : List (String × String)) : Decidable (OneSpelling entries) :=
  inferInstanceAs (Decidable (List.Nodup _))

variable {entries : List (String × String)} {entry : String × String} {p : Pattern} {v : Severity}

/-- What settings show is the first override that is asked for. -/
theorem head?_askedFor {s : PatternSettings}
    (hknown : ∀ entry ∈ s.severityOverrides, ∃ v, Severity.ofName? entry.2 = some v) (p : Pattern) :
    (Host.askedFor s.severityOverrides p).head? = s.overrideFor? p := by
  obtain ⟨enabled, minSeverity, entries⟩ := s
  simp only [PatternSettings.overrideFor?, PatternSettings.severityOverride?] at hknown ⊢
  induction entries with
  | nil => rfl
  | cons entry rest ih =>
    rw [List.forall_mem_cons] at hknown
    obtain ⟨⟨v, hv⟩, hrest⟩ := hknown
    by_cases hp : Pattern.ofName? entry.1 = some p
    · have hspelled := Pattern.ofName?_eq_some_iff.mp hp
      simp [Host.askedFor, hp, hv, hspelled]
    · have hother : Pattern.normalizeName entry.1 ≠ p.name := fun h =>
        hp (Pattern.ofName?_eq_some_iff.mpr h)
      have hskip : Host.askedFor (entry :: rest) p = Host.askedFor rest p := by
        simp [Host.askedFor, hp]
      rw [hskip, ih hrest, List.find?_cons_of_neg]
      simpa using hother

theorem askedFor_eq_nil (h : ∀ entry ∈ entries, Pattern.ofName? entry.1 ≠ some p) :
    Host.askedFor entries p = [] := by
  refine List.filterMap_eq_nil_iff.mpr fun entry hentry => ?_
  rw [if_neg (h entry hentry)]

/-- Of several spellings of a pattern, the one with the greatest key is asked for last. -/
theorem KeysIncrease.getLast?_askedFor (hkeys : KeysIncrease entries) (hentry : entry ∈ entries)
    (hp : Pattern.ofName? entry.1 = some p) (hv : Severity.ofName? entry.2 = some v)
    (hlast : ∀ other ∈ entries, Pattern.ofName? other.1 = some p → other.1 ≤ entry.1) :
    (Host.askedFor entries p).getLast? = some v := by
  obtain ⟨before, after, rfl⟩ := List.append_of_mem hentry
  have hafter : Host.askedFor after p = [] := by
    refine askedFor_eq_nil fun other hother hspells => ?_
    have hgreater : entry.1 < other.1 :=
      (List.pairwise_cons.mp (List.pairwise_append.mp hkeys).2.1).1 other hother
    have hle := hlast other (List.mem_append_right _ (List.mem_cons_of_mem _ hother)) hspells
    exact absurd hgreater (not_lt.mpr hle)
  have hsplit : Host.askedFor (before ++ entry :: after) p = Host.askedFor before p ++ [v] := by
    rw [Host.askedFor, List.filterMap_append, List.filterMap_cons_some (by rw [if_pos hp, hv])]
    exact congrArg (Host.askedFor before p ++ v :: ·) hafter
  rw [hsplit, List.getLast?_concat]

theorem OneSpelling.eq_of_spells (h : OneSpelling entries) {other : String × String}
    (hentry : entry ∈ entries) (hother : other ∈ entries)
    (hp : Pattern.ofName? entry.1 = some p) (hp' : Pattern.ofName? other.1 = some p) :
    entry = other := by
  refine List.inj_on_of_nodup_map h hentry hother ?_
  rw [Pattern.ofName?_eq_some_iff.mp hp, Pattern.ofName?_eq_some_iff.mp hp']

section Shown

variable {s : PatternSettings}

theorem OneSpelling.overrideFor?_eq (h : OneSpelling s.severityOverrides)
    (hentry : entry ∈ s.severityOverrides) (hp : Pattern.ofName? entry.1 = some p) :
    s.overrideFor? p = Severity.ofName? entry.2 := by
  have hspelled : Pattern.normalizeName entry.1 = Pattern.normalizeName p.name := by
    rw [Pattern.ofName?_eq_some_iff.mp hp, Pattern.normalizeName_name]
  unfold PatternSettings.overrideFor? PatternSettings.severityOverride?
  cases hfound : s.severityOverrides.find? _ with
  | none => exact absurd (List.find?_eq_none.mp hfound entry hentry) (by simpa using hspelled)
  | some other =>
    have hmem : other ∈ s.severityOverrides := List.mem_of_find?_eq_some hfound
    have hother : Pattern.normalizeName other.1 = Pattern.normalizeName p.name := by
      simpa using List.find?_some hfound
    rw [List.inj_on_of_nodup_map h hentry hmem (hspelled.trans hother.symm), Option.map_some,
      Option.bind_some]

theorem overrideFor?_eq_none (h : ∀ entry ∈ s.severityOverrides, Pattern.ofName? entry.1 ≠ some p) :
    s.overrideFor? p = none := by
  unfold PatternSettings.overrideFor? PatternSettings.severityOverride?
  rw [List.find?_eq_none.mpr, Option.map_none, Option.bind_none]
  intro entry hentry hspelled
  refine h entry hentry (Pattern.ofName?_eq_some_iff.mpr ?_)
  rw [eq_of_beq hspelled, Pattern.normalizeName_name]

end Shown

theorem Host.Follows.severityFor {h : Host} {s : Settings} (hfollows : h.Follows s) (p : Pattern) :
    h.options.severityFor p = (askedFor s.patterns.severityOverrides p).getLast?.getD
      (Rule.ofPattern p).defaultSeverity := by
  rw [ReportOptions.severityFor, hfollows.overrides]

theorem Settings.Valid.merge {weak strong : Settings} (hweak : weak.Valid)
    (hstrong : strong.Valid) : (weak.merge strong).Valid := by
  have hor : ∀ {α : Type} {P : α → Prop} {x y : Option α}, (∀ a ∈ x, P a) → (∀ a ∈ y, P a) →
      ∀ a ∈ x.or y, P a := by
    intro α P x y hx hy a ha
    rcases Option.or_eq_some_iff.mp ha with h | ⟨-, h⟩
    · exact hx a h
    · exact hy a h
  refine ⟨?_, ?_, hor hstrong.minSeverity hweak.minSeverity, hor hstrong.format hweak.format,
    hor hstrong.threads hweak.threads, hor hstrong.maxFileSize hweak.maxFileSize⟩
  · intro name hname
    change name ∈ strongerList _ _ at hname
    unfold strongerList at hname
    split_ifs at hname
    · exact hweak.enabled name hname
    · exact hstrong.enabled name hname
  · intro entry hentry
    rcases mem_of_mem_overlay hentry with h | h
    · exact hweak.overrides entry h
    · exact hstrong.overrides entry h

/-- Settings that are accepted and spell every pattern in one way at most. -/
structure Settings.Unambiguous (s : Settings) : Prop where
  accepted : s.validate = .ok ()
  keys : KeysIncrease s.patterns.severityOverrides
  spelling : OneSpelling s.patterns.severityOverrides

namespace Settings.Unambiguous

theorem exists_severity {s : Settings} (hs : s.Unambiguous)
    (hentry : entry ∈ s.patterns.severityOverrides) :
    ∃ v : Severity, entry.2 = v.name ∧ Severity.ofName? entry.2 = some v := by
  obtain ⟨-, v, hv⟩ := (validate_eq_ok_iff.mp hs.accepted).overrides entry hentry
  exact ⟨v, hv, by rw [hv, Severity.ofName?_name]⟩

variable {weak strong : Settings} (hweak : weak.Unambiguous) (hstrong : strong.Unambiguous)
include hweak hstrong

/-- An override of the stronger layer is read last unless the weaker one has a greater spelling. -/
theorem asked_of_strong {t : String × String} (ht : t ∈ strong.patterns.severityOverrides)
    (hp : Pattern.ofName? t.1 = some p) (hv : Severity.ofName? t.2 = some v)
    (hlast : ∀ w ∈ weak.patterns.severityOverrides, Pattern.ofName? w.1 = some p → w.1 ≤ t.1) :
    (Host.askedFor (weak.merge strong).patterns.severityOverrides p).getLast? = some v := by
  refine (hweak.keys.overlay _).getLast?_askedFor
    ((hweak.keys.mem_overlay_iff hstrong.keys).mpr (.inl ht)) hp hv ?_
  intro other hother hspells
  rcases mem_of_mem_overlay hother with h | h
  · exact hlast other h hspells
  · rw [hstrong.spelling.eq_of_spells h ht hspells hp]

/-- An override of the weaker layer is read last when all spellings in the stronger layer are
smaller. -/
theorem asked_of_weak {w : String × String} (hw : w ∈ weak.patterns.severityOverrides)
    (hp : Pattern.ofName? w.1 = some p) (hv : Severity.ofName? w.2 = some v)
    (hlast : ∀ t ∈ strong.patterns.severityOverrides, Pattern.ofName? t.1 = some p → t.1 < w.1) :
    (Host.askedFor (weak.merge strong).patterns.severityOverrides p).getLast? = some v := by
  have habsent : strong.patterns.severityOverrides.lookup w.1 = none := by
    refine List.lookup_eq_none_iff.mpr fun t ht => bne_iff_ne.mpr fun heq => ?_
    exact (hlast t ht (heq ▸ hp)).ne heq.symm
  refine (hweak.keys.overlay _).getLast?_askedFor
    ((hweak.keys.mem_overlay_iff hstrong.keys).mpr (.inr ⟨hw, habsent⟩)) hp hv ?_
  intro other hother hspells
  rcases mem_of_mem_overlay hother with h | h
  · rw [hweak.spelling.eq_of_spells h hw hspells hp]
  · exact (hlast other h hspells).le

/-- Where the stronger layer is silent the weaker one decides. -/
theorem asked_of_silent (hsilent : ∀ t ∈ strong.patterns.severityOverrides,
      Pattern.ofName? t.1 ≠ some p) :
    (Host.askedFor (weak.merge strong).patterns.severityOverrides p).getLast? =
      weak.patterns.overrideFor? p := by
  by_cases hgiven : ∃ w ∈ weak.patterns.severityOverrides, Pattern.ofName? w.1 = some p
  · obtain ⟨w, hw, hwp⟩ := hgiven
    obtain ⟨v, -, hv⟩ := hweak.exists_severity hw
    rw [hweak.spelling.overrideFor?_eq hw hwp, hv]
    exact hweak.asked_of_weak hstrong hw hwp hv fun t ht htp => absurd htp (hsilent t ht)
  · push Not at hgiven
    rw [overrideFor?_eq_none hgiven, askedFor_eq_nil, List.getLast?_nil]
    intro entry hentry
    exact (mem_of_mem_overlay hentry).elim (hgiven entry) (hsilent entry)

end Settings.Unambiguous

/-- The severity under which a host reports a pattern is the one that the settings show exactly when
the first and the last spelling of the pattern ask for the same. -/
theorem Host.severityFor_eq_shown_iff (s : Settings) (hvalid : s.validate = .ok ()) :
    ∃ h, Host.ofSettings s = .ok h ∧ ∀ p,
      (h.options.severityFor p =
          (s.patterns.overrideFor? p).getD (Rule.ofPattern p).defaultSeverity ↔
        (askedFor s.patterns.severityOverrides p).head? =
          (askedFor s.patterns.severityOverrides p).getLast?) := by
  have hs := Settings.validate_eq_ok_iff.mp hvalid
  obtain ⟨h, hread, hfollows⟩ := hs.follows
  refine ⟨h, hread, fun p => ?_⟩
  have hknown : ∀ entry ∈ s.patterns.severityOverrides, ∃ v, Severity.ofName? entry.2 = some v := by
    intro entry hentry
    obtain ⟨-, v, -, hv⟩ := hs.override_read hentry
    exact ⟨v, hv⟩
  rw [hfollows.severityFor, ← head?_askedFor hknown p]
  cases askedFor s.patterns.severityOverrides p with
  | nil => simp
  | cons v rest => simp [List.getLast?_cons, eq_comm]

/-- Two spellings of one pattern that agree, and two of another that do not. -/
def respelledSettings : Settings where
  scan := .unset
  analysis := .unset
  patterns := ⟨[], none, [("Decorator", "warning"), ("Singleton", "error"),
    ("decorator", "warning"), ("singleton", "hint")]⟩
  output := .unset

theorem Host.severityFor_eq_shown_iff_respelled :
    ∃ h, Host.ofSettings respelledSettings = .ok h ∧ h.options.severityFor .decorator = .warning ∧
      h.options.severityFor .singleton ≠ .error := by
  obtain ⟨h, hread, hshown⟩ := Host.severityFor_eq_shown_iff respelledSettings (by decide)
  refine ⟨h, hread, ((hshown .decorator).mpr (by decide)).trans (by decide), ?_⟩
  intro herror
  exact absurd ((hshown .singleton).mp (herror.trans (by decide))) (by decide)

/-- The settings show an error and the host reports a hint. -/
theorem Host.shown_override_not_reported :
    respelledSettings.validate = .ok () ∧
      respelledSettings.patterns.severityOverride? Pattern.singleton.name = some "error" ∧
      (Host.ofSettings respelledSettings).map (·.options.severityFor .singleton) = .ok .hint := by
  decide

/-- The stronger of two layers decides about a pattern exactly when its spelling does not come
before another one in the weaker layer, or both ask for the same. -/
theorem Host.merged_severityFor_iff (weak strong : Settings) (hweak : weak.Unambiguous)
    (hstrong : strong.Unambiguous) :
    ∃ h, Host.ofSettings (weak.merge strong) = .ok h ∧ ∀ p,
      (h.options.severityFor p =
          ((strong.patterns.overrideFor? p).or (weak.patterns.overrideFor? p)).getD
            (Rule.ofPattern p).defaultSeverity ↔
        ∀ w ∈ weak.patterns.severityOverrides, ∀ t ∈ strong.patterns.severityOverrides,
          Pattern.ofName? w.1 = some p → Pattern.ofName? t.1 = some p → w.1 ≤ t.1 ∨ w.2 = t.2) := by
  have hvalid := (Settings.validate_eq_ok_iff.mp hweak.accepted).merge
    (Settings.validate_eq_ok_iff.mp hstrong.accepted)
  obtain ⟨h, hread, hfollows⟩ := hvalid.follows
  refine ⟨h, hread, fun p => ?_⟩
  rw [hfollows.severityFor]
  by_cases hgiven : ∃ t ∈ strong.patterns.severityOverrides, Pattern.ofName? t.1 = some p
  · obtain ⟨t, ht, htp⟩ := hgiven
    obtain ⟨vt, htv, hvt⟩ := hstrong.exists_severity ht
    have hone : ∀ t' ∈ strong.patterns.severityOverrides, Pattern.ofName? t'.1 = some p → t' = t :=
      fun t' ht' htp' => hstrong.spelling.eq_of_spells ht' ht htp' htp
    rw [hstrong.spelling.overrideFor?_eq ht htp, hvt, Option.some_or, Option.getD_some]
    by_cases hlater : ∃ w ∈ weak.patterns.severityOverrides,
        Pattern.ofName? w.1 = some p ∧ t.1 < w.1
    · -- The weaker layer is read last, so the two must ask for the same.
      obtain ⟨w, hw, hwp, hlt⟩ := hlater
      obtain ⟨vw, hwv, hvw⟩ := hweak.exists_severity hw
      rw [hweak.asked_of_weak hstrong hw hwp hvw fun t' ht' htp' => (hone t' ht' htp').symm ▸ hlt,
        Option.getD_some]
      constructor
      · rintro rfl w' hw' t' ht' hwp' htp'
        rw [hweak.spelling.eq_of_spells hw' hw hwp' hwp, hone t' ht' htp']
        exact .inr (hwv.trans htv.symm)
      · intro hagree
        have hsame := (hagree w hw t ht hwp htp).resolve_left (not_le.mpr hlt)
        exact Option.some.inj (by rw [← hvw, hsame, hvt])
    · push Not at hlater
      rw [hweak.asked_of_strong hstrong ht htp hvt hlater, Option.getD_some]
      refine iff_of_true rfl fun w hw t' ht' hwp htp' => .inl ?_
      rw [hone t' ht' htp']
      exact hlater w hw hwp
  · push Not at hgiven
    rw [overrideFor?_eq_none hgiven, Option.none_or, hweak.asked_of_silent hstrong hgiven]
    exact iff_of_true rfl fun w hw t ht hwp htp => absurd htp (hgiven t ht)

/-- A weaker layer. -/
def userSettings : Settings where
  scan := .unset
  analysis := .unset
  patterns := ⟨[], none, [("Decorator", "info"), ("singleton", "error")]⟩
  output := .unset

/-- A stronger layer, which spells the same patterns in another way. -/
def projectSettings : Settings where
  scan := .unset
  analysis := .unset
  patterns := ⟨[], none, [("Singleton", "warning"), ("decorator", "hint")]⟩
  output := .unset

theorem Host.merged_severityFor_iff_respelled :
    ∃ h, Host.ofSettings (userSettings.merge projectSettings) = .ok h ∧
      h.options.severityFor .decorator = .hint ∧ h.options.severityFor .flyweight = .info ∧
      h.options.severityFor .singleton ≠ .warning := by
  obtain ⟨h, hread, hdecides⟩ := Host.merged_severityFor_iff userSettings projectSettings
    ⟨by decide, by decide, by decide⟩ ⟨by decide, by decide, by decide⟩
  refine ⟨h, hread, ((hdecides .decorator).mpr (by decide)).trans (by decide),
    ((hdecides .flyweight).mpr (by decide)).trans (by decide), ?_⟩
  intro hwarning
  exact absurd ((hdecides .singleton).mp (hwarning.trans (by decide))) (by decide)

/-- The stronger layer asks for a warning and the host reports an error. -/
theorem Host.stronger_override_not_reported :
    userSettings.Unambiguous ∧ projectSettings.Unambiguous ∧
      projectSettings.patterns.overrideFor? .singleton = some .warning ∧
      (Host.ofSettings (userSettings.merge projectSettings)).map
        (·.options.severityFor .singleton) = .ok .error :=
  ⟨⟨by decide, by decide, by decide⟩, ⟨by decide, by decide, by decide⟩, by decide, by decide⟩

end PatternFinder
