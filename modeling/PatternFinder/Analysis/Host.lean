import PatternFinder.Analysis.Cancellation
import PatternFinder.Analysis.Registry

/-! Running analyzers over a compilation. -/
namespace PatternFinder

/-- An action and the pattern on whose behalf it runs. -/
structure Subscription where
  pattern : Pattern
  action : Action

structure Host where
  subscriptions : List Subscription
  patterns : List Pattern
  options : ReportOptions
  parallel : Bool

/-- What a pass over work items leaves behind; `skipped` says that an item was left out. -/
structure Pass where
  findings : List Finding
  failures : List Failure
  skipped : Bool

namespace Host

def ofRegistry (r : Registry) : Host where
  subscriptions := r.analyzers.flatMap fun a => a.actions.map (⟨a.pattern, ·⟩)
  patterns := r.patterns
  options := .standard
  parallel := true

def withOptions (h : Host) (options : ReportOptions) : Host := { h with options }

def sequential (h : Host) : Host := { h with parallel := false }

/-- Overrides in order of their keys: of several spellings of one pattern the last wins, and a
severity that is not known is passed over. -/
private def readOverrides (o : ReportOptions) :
    List (String × String) → Except DetectionError ReportOptions
  | [] => .ok o
  | (name, severity) :: rest =>
    match Pattern.ofName? name with
    | none => .error (.unknownPattern name)
    | some p => match Severity.ofName? severity with
      | some s => readOverrides (o.override p s) rest
      | none => readOverrides o rest

def ofSettings (s : Settings) : Except DetectionError Host := do
  let registry ← Registry.ofSettings s.patterns
  let options ← readOverrides
    ⟨(Severity.ofName? s.patterns.effectiveMinSeverity).getD .hint,
      s.output.effectiveIncludePartial, fun _ => none⟩ s.patterns.severityOverrides
  .ok { ofRegistry registry with options, parallel := s.analysis.effectiveParallel }

/-- The severities that entries ask for a pattern, under all of its spellings and in order. -/
def askedFor (entries : List (String × String)) (p : Pattern) : List Severity :=
  entries.filterMap fun entry =>
    if Pattern.ofName? entry.1 = some p then Severity.ofName? entry.2 else none

private theorem getLast?_askedFor_cons {name severity : String} {rest : List (String × String)}
    {p : Pattern} (hp : Pattern.ofName? name = some p) (q : Pattern) (before : Option Severity) :
    (askedFor ((name, severity) :: rest) q).getLast?.or before =
      (askedFor rest q).getLast?.or
        (if q = p then (Severity.ofName? severity).or before else before) := by
  unfold askedFor
  by_cases hq : q = p
  · subst hq
    cases hv : Severity.ofName? severity with
    | none => simp [hp, hv]
    | some v =>
      -- An entry that is read later wins over this one, and this one over what was there before.
      rw [List.filterMap_cons_some (by simp only [hp, if_true]; exact hv), List.getLast?_cons]
      cases (rest.filterMap _).getLast? <;> simp
  · rw [List.filterMap_cons_none (by simp [hp, Ne.symm hq]), if_neg hq]

private theorem readOverrides_eq_ok {entries : List (String × String)}
    (hnames : ∀ entry ∈ entries, ∃ p, Pattern.ofName? entry.1 = some p) (o : ReportOptions) :
    readOverrides o entries = .ok ⟨o.minSeverity, o.includePartial,
      fun q => (askedFor entries q).getLast?.or (o.severityOverrides q)⟩ := by
  induction entries generalizing o with
  | nil => rfl
  | cons entry rest ih =>
    obtain ⟨name, severity⟩ := entry
    rw [List.forall_mem_cons] at hnames
    obtain ⟨⟨p, hp⟩, hrest⟩ := hnames
    replace hp : Pattern.ofName? name = some p := hp
    rw [readOverrides, hp, funext fun q => getLast?_askedFor_cons hp q (o.severityOverrides q)]
    cases Severity.ofName? severity with
    | none => simp only [ih hrest, Option.none_or, ite_self]
    | some v => simp only [ih hrest, ReportOptions.override, Option.some_or, beq_iff_eq]

/-- The options that settings ask for. -/
def optionsOf (s : Settings) : ReportOptions where
  minSeverity := (Severity.ofName? s.patterns.effectiveMinSeverity).getD .hint
  includePartial := s.output.effectiveIncludePartial
  severityOverrides p := (askedFor s.patterns.severityOverrides p).getLast?

theorem ofSettings_eq_ok {s : Settings} {r : Registry}
    (hregistry : Registry.ofSettings s.patterns = .ok r)
    (hnames : ∀ entry ∈ s.patterns.severityOverrides, ∃ p, Pattern.ofName? entry.1 = some p) :
    ofSettings s = .ok { (ofRegistry r).withOptions (optionsOf s) with
      parallel := s.analysis.effectiveParallel } := by
  unfold ofSettings
  rw [hregistry]
  simp only [bind, Except.bind, readOverrides_eq_ok hnames, Option.or_none]
  rfl

def subscribed (h : Host) (kind : SiteKind) : Bool := h.subscriptions.any (·.action.kind == kind)

/-- All actions for the kind of an item, in order of registration. A breakdown of one does not keep
the others from running. -/
def visit (h : Host) (c : Compilation) (item : WorkItem) : List (Pattern × Reaction) :=
  (h.subscriptions.filter (·.action.kind == item.site.kind)).map fun s =>
    (s.pattern, s.action.react ⟨item, c, h.options⟩)

private def failuresOf (item : WorkItem) (reactions : List (Pattern × Reaction)) : List Failure :=
  reactions.filterMap fun (p, r) => r.failure.map fun message => ⟨p, item.tree.path, message⟩

/-- Visit items one after the other. Before each the signal is asked, and an item is left out when
the answer is yes. -/
def pass {σ : Type} (h : Host) (c : Compilation) (signal : Signal σ) :
    σ → List WorkItem → Pass × σ
  | s, [] => (⟨[], [], false⟩, s)
  | s, item :: rest =>
    match signal.poll s with
    | (true, s) =>
      let (p, s) := pass h c signal s rest
      (⟨p.findings, p.failures, true⟩, s)
    | (false, s) =>
      let reactions := h.visit c item
      let s := if reactions.any (·.2.cancels) then signal.request s else s
      let (p, s) := pass h c signal s rest
      (⟨reactions.flatMap (·.2.findings) ++ p.findings,
        failuresOf item reactions ++ p.failures, p.skipped⟩, s)

/-- Order by file, then by pattern. -/
def failureOrder : Failure → Failure → Ordering :=
  compareLex (compareOn Failure.file) (compareOn (·.pattern.rank))

/-- Run all analyzers over a compilation. A run counts as cancelled when an item was left out or the
signal says so at the end. The duration is left to a caller with a clock. -/
def run {σ : Type} (h : Host) (c : Compilation) (signal : Signal σ) (s : σ) : Report × σ :=
  let items := workItems c h.subscribed
  let (p, s) := h.pass c signal s items
  let (cancelled, s) := if p.skipped then (true, s) else signal.poll s
  ({ findings := (FindingBag.mk p.findings).sorted
     patterns := h.patterns
     filesAnalyzed := c.trees.length
     filesWithSyntaxErrors := (c.trees.filter (·.hasErrors)).length
     declarationsVisited := items.length
     cancelled
     durationMs := 0
     failures := p.failures.mergeSort fun a b => (failureOrder a b).isLE
     fingerprint := c.fingerprint }, s)

end Host

end PatternFinder
