import PatternFinder.Config.Settings
import PatternFinder.Error

/-! Which settings are accepted. -/
namespace PatternFinder

def knownFormats : List String := ["console", "json", "sarif"]

def maxThreads : Nat := 1024

namespace Settings

private def isKnownPattern (name : String) : Bool :=
  (Pattern.all.map Pattern.name).contains (Pattern.normalizeName name)

private def isKnownSeverity (name : String) : Bool := (Severity.all.map Severity.name).contains name

private def checkThat (ok : Bool) (field message : String) : Except ConfigError Unit :=
  if ok then .ok () else .error (.validation field message)

private def unknownPattern (name : String) : String := "unknown pattern '" ++ name ++ "'"

private def unknownSeverity (name : String) : String := "unknown severity '" ++ name ++ "'"

private def checkOption {α : Type} (value : Option α) (check : α → Except ConfigError Unit) :
    Except ConfigError Unit :=
  match value with
  | some a => check a
  | none => .ok ()

private def checkEnabled : List String → Except ConfigError Unit
  | [] => .ok ()
  | name :: rest => do
    checkThat (isKnownPattern name) "patterns.enabled" (unknownPattern name)
    checkEnabled rest

private def checkOverrides : List (String × String) → Except ConfigError Unit
  | [] => .ok ()
  | (name, severity) :: rest => do
    checkThat (isKnownPattern name) "patterns.severity_overrides" (unknownPattern name)
    checkThat (isKnownSeverity severity) ("patterns.severity_overrides." ++ name)
      (unknownSeverity severity)
    checkOverrides rest

/-- The first fault wins: enabled patterns, overrides, least severity, format, threads, file size. -/
def validate (s : Settings) : Except ConfigError Unit := do
  checkEnabled s.patterns.enabled
  checkOverrides s.patterns.severityOverrides
  checkOption s.patterns.minSeverity fun severity =>
    checkThat (isKnownSeverity severity) "patterns.min_severity" (unknownSeverity severity)
  checkOption s.output.format fun format =>
    checkThat (knownFormats.contains format) "output.format"
      ("must be one of " ++ String.intercalate ", " knownFormats)
  checkOption s.analysis.threads fun threads =>
    checkThat (threads ≤ maxThreads) "analysis.threads" ("must be at most " ++ toString maxThreads)
  checkOption s.scan.maxFileSize fun size =>
    checkThat (size != 0) "scan.max_file_size" "must be greater than 0"

/-- Patterns are named in any of their spellings, severities and formats exactly. -/
structure Valid (s : Settings) : Prop where
  enabled : ∀ name ∈ s.patterns.enabled, ∃ p : Pattern, Pattern.normalizeName name = p.name
  overrides : ∀ entry ∈ s.patterns.severityOverrides,
    (∃ p : Pattern, Pattern.normalizeName entry.1 = p.name) ∧ ∃ v : Severity, entry.2 = v.name
  minSeverity : ∀ name ∈ s.patterns.minSeverity, ∃ v : Severity, name = v.name
  format : ∀ name ∈ s.output.format, name ∈ knownFormats
  threads : ∀ n ∈ s.analysis.threads, n ≤ maxThreads
  maxFileSize : ∀ n ∈ s.scan.maxFileSize, n ≠ 0

private theorem isKnownPattern_iff {name : String} :
    isKnownPattern name = true ↔ ∃ p : Pattern, Pattern.normalizeName name = p.name := by
  unfold isKnownPattern
  rw [List.contains_iff_mem, List.mem_map]
  constructor
  · rintro ⟨p, -, hp⟩
    exact ⟨p, hp.symm⟩
  · rintro ⟨p, hp⟩
    exact ⟨p, p.mem_all, hp.symm⟩

private theorem isKnownSeverity_iff {name : String} :
    isKnownSeverity name = true ↔ ∃ v : Severity, name = v.name := by
  unfold isKnownSeverity
  rw [List.contains_iff_mem, List.mem_map]
  constructor
  · rintro ⟨v, -, hv⟩
    exact ⟨v, hv.symm⟩
  · rintro ⟨v, hv⟩
    exact ⟨v, v.mem_all, hv.symm⟩

private theorem checkThat_eq_ok_iff {ok : Bool} {field message : String} :
    checkThat ok field message = .ok () ↔ ok = true := by
  unfold checkThat
  cases ok <;> simp

private theorem andThen_eq_ok_iff {x y : Except ConfigError Unit} :
    (do x; y) = .ok () ↔ x = .ok () ∧ y = .ok () := by
  cases x <;> simp [bind, Except.bind]

private theorem checkOption_eq_ok_iff {α : Type} {value : Option α}
    {check : α → Except ConfigError Unit} :
    checkOption value check = .ok () ↔ ∀ a ∈ value, check a = .ok () := by
  unfold checkOption
  cases value <;> simp

private theorem checkEnabled_eq_ok_iff {names : List String} :
    checkEnabled names = .ok () ↔
      ∀ name ∈ names, ∃ p : Pattern, Pattern.normalizeName name = p.name := by
  induction names with
  | nil => simp [checkEnabled]
  | cons name rest ih =>
    rw [checkEnabled, andThen_eq_ok_iff, checkThat_eq_ok_iff, isKnownPattern_iff, ih,
      List.forall_mem_cons]

private theorem checkOverrides_eq_ok_iff {entries : List (String × String)} :
    checkOverrides entries = .ok () ↔
      ∀ entry ∈ entries, (∃ p : Pattern, Pattern.normalizeName entry.1 = p.name) ∧
        ∃ v : Severity, entry.2 = v.name := by
  induction entries with
  | nil => simp [checkOverrides]
  | cons entry rest ih =>
    rw [checkOverrides, andThen_eq_ok_iff, andThen_eq_ok_iff, checkThat_eq_ok_iff,
      checkThat_eq_ok_iff, isKnownPattern_iff, isKnownSeverity_iff, ih, List.forall_mem_cons,
      and_assoc]

theorem validate_eq_ok_iff {s : Settings} : s.validate = .ok () ↔ s.Valid := by
  unfold validate
  simp only [andThen_eq_ok_iff, checkEnabled_eq_ok_iff, checkOverrides_eq_ok_iff,
    checkOption_eq_ok_iff, checkThat_eq_ok_iff, isKnownSeverity_iff, List.contains_iff_mem,
    decide_eq_true_eq, bne_iff_ne]
  constructor
  · rintro ⟨henabled, hoverrides, hseverity, hformat, hthreads, hsize⟩
    exact ⟨henabled, hoverrides, hseverity, hformat, hthreads, hsize⟩
  · rintro ⟨henabled, hoverrides, hseverity, hformat, hthreads, hsize⟩
    exact ⟨henabled, hoverrides, hseverity, hformat, hthreads, hsize⟩

end Settings

end PatternFinder
