import Mathlib.Data.List.Basic
import PatternFinder.Analysis.Host

/-! The verdicts that are asked for at each declaration, and how a run turns them into findings. -/
namespace PatternFinder

/-- A verdict about a declaration, with the names under which a match is reported. -/
structure Judgement where
  pattern : Pattern
  check : String
  subject : String
  outcome : Outcome

namespace Judgement

def ofCheck (c : Compilation) (check : Check) (subject : String) : Judgement :=
  ⟨check.pattern, check.name, subject, check.evaluate c⟩

/-- The finding that a match with the given place and evidence is reported as. -/
def finding (o : ReportOptions) (j : Judgement) (location : Location) (evidence : Option String) :
    Finding :=
  ⟨(Rule.ofPattern j.pattern).id, j.pattern, j.check, o.severityFor j.pattern,
    (Rule.ofPattern j.pattern).message j.subject j.check, location, evidence⟩

/-- A match is one finding, and everything else none. -/
def findings (o : ReportOptions) (j : Judgement) : List Finding :=
  match j.outcome.matched, j.outcome.location with
  | true, some location => [j.finding o location j.outcome.evidence]
  | _, _ => []

/-- The checks that look at a single statement. -/
def partialChecks : List String := ["DeclarationWithFactoryMethod", "AnalyzeStatement"]

def passes (o : ReportOptions) (j : Judgement) : Bool :=
  (o.severityFor j.pattern).atLeast o.minSeverity &&
    (o.includePartial || !partialChecks.contains j.check)

def reported (o : ReportOptions) (j : Judgement) : List Finding :=
  if j.passes o then j.findings o else []

@[simp] theorem ofCheck_pattern (c : Compilation) (check : Check) (subject : String) :
    (ofCheck c check subject).pattern = check.pattern := rfl

@[simp] theorem ofCheck_check (c : Compilation) (check : Check) (subject : String) :
    (ofCheck c check subject).check = check.name := rfl

theorem mem_findings_iff {o : ReportOptions} {j : Judgement} {f : Finding} :
    f ∈ j.findings o ↔ j.outcome.verdict = .found ∧ j.outcome.location = some f.location ∧
      f = j.finding o f.location j.outcome.evidence := by
  unfold findings Outcome.matched
  split
  case h_1 location hverdict hlocation =>
    rw [List.mem_singleton, hlocation]
    constructor
    · rintro rfl
      exact ⟨eq_of_beq hverdict, rfl, rfl⟩
    · rintro ⟨-, hf, hfinding⟩
      rw [hfinding, ← Option.some.inj hf]
  case h_2 hnone =>
    refine ⟨fun hf => absurd hf List.not_mem_nil, ?_⟩
    rintro ⟨hverdict, hlocation, -⟩
    exact (hnone f.location (by rw [hverdict]; rfl) hlocation).elim

theorem mem_reported_iff {o : ReportOptions} {j : Judgement} {f : Finding} :
    f ∈ j.reported o ↔ (o.severityFor j.pattern).atLeast o.minSeverity = true ∧
      (j.check ∈ partialChecks → o.includePartial = true) ∧ j.outcome.verdict = .found ∧
        j.outcome.location = some f.location ∧
          f = j.finding o f.location j.outcome.evidence := by
  have hpasses : j.passes o = true ↔ (o.severityFor j.pattern).atLeast o.minSeverity = true ∧
      (j.check ∈ partialChecks → o.includePartial = true) := by
    simp only [passes, Bool.and_eq_true, Bool.or_eq_true, Bool.not_eq_true',
      List.contains_eq_mem, decide_eq_false_iff_not]
    tauto
  unfold reported
  split_ifs with h
  · obtain ⟨hseverity, hpartial⟩ := hpasses.mp h
    rw [mem_findings_iff]
    exact ⟨fun hf => ⟨hseverity, hpartial, hf⟩, fun hf => hf.2.2⟩
  · refine ⟨fun hf => absurd hf List.not_mem_nil, ?_⟩
    rintro ⟨hseverity, hpartial, -⟩
    exact absurd (hpasses.mpr ⟨hseverity, hpartial⟩) h

end Judgement

/-- What is asked about a declaration and the type that contains it, pattern by pattern. -/
def judgements (c : Compilation) : Site → Option TypeDeclaration → List Judgement
  | .type t, _ =>
    if t.isInterface then [.ofCheck c (.isProductInterface t) t.identifier]
    else [⟨.singleton, "Singleton", t.identifier, Singleton.verdict t⟩,
      .ofCheck c (.isConcreteProduct t) t.identifier,
      ⟨.decorator, "Decorator", t.identifier, Decorator.verdict t c⟩]
  | .field f, _ => [.ofCheck c (.hasCollection f) f.firstName]
  | .method m, owner =>
    [.ofCheck c (.isAbstractFactoryMethod m) m.identifier,
      .ofCheck c (.overridesAbstractFactoryMethod m) m.identifier] ++
      owner.toList.map fun t =>
        .ofCheck c (.hasGetMethod m (Flyweight.Context.collect t c)) m.identifier
  | .local l, _ =>
    [.ofCheck c (.declarationWithFactoryMethod l) (localSubject l),
      .ofCheck c (.wrapsInStatement l) (localSubject l)]
  | _, _ => []

/-- The place that a match at a declaration is reported at. -/
def Site.focus : Site → Location
  | .type t => t.identifierLocation
  | .method m => m.identifierLocation
  | site => site.location

/-- A match says where it is, and nothing else has a place. -/
def Outcome.PlacedAt (l : Location) (o : Outcome) : Prop :=
  (o.verdict = .found ∧ o.location = some l) ∨ (o.verdict ≠ .found ∧ o.location = none)

namespace Outcome

theorem placedAt_found (l : Location) (evidence : Option String) :
    (found l evidence).PlacedAt l := .inl ⟨rfl, rfl⟩

theorem placedAt_notFound (l : Location) : notFound.PlacedAt l := .inr ⟨by decide, rfl⟩

theorem placedAt_unsupported (l : Location) (reason : UnsupportedReason) :
    (unsupported reason).PlacedAt l := .inr ⟨by simp [unsupported], rfl⟩

theorem PlacedAt.eq_of_location {l l' : Location} {o : Outcome} (h : o.PlacedAt l)
    (ho : o.location = some l') : l' = l := by
  rcases h with ⟨-, h⟩ | ⟨-, h⟩
  · rw [h] at ho
    exact (Option.some.inj ho).symm
  · rw [h] at ho
    cases ho

theorem PlacedAt.location_of_found {l : Location} {o : Outcome} (h : o.PlacedAt l)
    (ho : o.verdict = .found) : o.location = some l := by
  rcases h with ⟨-, h⟩ | ⟨h, -⟩
  · exact h
  · exact absurd ho h

end Outcome

section Places

attribute [local simp] Outcome.placedAt_found Outcome.placedAt_notFound
  Outcome.placedAt_unsupported

theorem FactoryMethod.isAbstractFactoryMethod_placedAt (m : MethodDeclaration) :
    (isAbstractFactoryMethod m).PlacedAt m.identifierLocation := by
  unfold isAbstractFactoryMethod
  split <;> simp

theorem FactoryMethod.overridesAbstractFactoryMethod_placedAt (m : MethodDeclaration) :
    (overridesAbstractFactoryMethod m).PlacedAt m.identifierLocation := by
  unfold overridesAbstractFactoryMethod
  split
  · simp
  · split
    · simp
    · split <;> simp

theorem FactoryMethod.isProductInterface_placedAt (t : TypeDeclaration) (c : Compilation) :
    (isProductInterface t c).PlacedAt t.identifierLocation := by
  unfold isProductInterface
  split
  · simp
  · split <;> simp

theorem FactoryMethod.isConcreteProduct_placedAt (t : TypeDeclaration) (c : Compilation) :
    (isConcreteProduct t c).PlacedAt t.identifierLocation := by
  unfold isConcreteProduct
  split
  · simp
  · split <;> simp

theorem FactoryMethod.declarationWithFactoryMethod_placedAt (l : LocalDeclaration)
    (c : Compilation) : (declarationWithFactoryMethod l c).PlacedAt l.location := by
  unfold declarationWithFactoryMethod
  split <;> simp

theorem Decorator.wrapsInStatement_placedAt (l : LocalDeclaration) :
    (wrapsInStatement l).PlacedAt l.location := by
  unfold wrapsInStatement
  split <;> simp

theorem Decorator.verdict_placedAt (t : TypeDeclaration) (c : Compilation) :
    (Decorator.verdict t c).PlacedAt t.identifierLocation := by
  unfold Decorator.verdict
  dsimp only
  split
  · simp
  · split <;> simp

theorem Singleton.verdict_placedAt (t : TypeDeclaration) :
    (Singleton.verdict t).PlacedAt t.identifierLocation := by
  unfold Singleton.verdict
  split <;> simp

theorem Flyweight.hasCollection_placedAt (f : FieldDeclaration) (c : Compilation) :
    (hasCollection f c).PlacedAt f.location := by
  unfold hasCollection
  split
  · simp
  · split
    · simp
    · simp
    · split <;> simp

theorem Flyweight.hasGetMethod_placedAt (m : MethodDeclaration) (context : Context) :
    (hasGetMethod m context).PlacedAt m.identifierLocation := by
  unfold hasGetMethod
  split
  · simp
  · split
    · split_ifs <;> simp
    · simp

end Places

/-- The judgements that there are, and the declarations that they are about. -/
theorem judgements_cases {c : Compilation} {motive : Site → Judgement → Prop} {site : Site}
    {owner : Option TypeDeclaration} {j : Judgement} (hj : j ∈ judgements c site owner)
    (isProductInterface : ∀ t, motive (.type t) (.ofCheck c (.isProductInterface t) t.identifier))
    (singleton : ∀ t,
      motive (.type t) ⟨.singleton, "Singleton", t.identifier, Singleton.verdict t⟩)
    (isConcreteProduct : ∀ t, motive (.type t) (.ofCheck c (.isConcreteProduct t) t.identifier))
    (decorator : ∀ t,
      motive (.type t) ⟨.decorator, "Decorator", t.identifier, Decorator.verdict t c⟩)
    (hasCollection : ∀ f, motive (.field f) (.ofCheck c (.hasCollection f) f.firstName))
    (isAbstractFactoryMethod : ∀ m,
      motive (.method m) (.ofCheck c (.isAbstractFactoryMethod m) m.identifier))
    (overridesAbstractFactoryMethod : ∀ m,
      motive (.method m) (.ofCheck c (.overridesAbstractFactoryMethod m) m.identifier))
    (hasGetMethod : ∀ m t, owner = some t → motive (.method m)
      (.ofCheck c (.hasGetMethod m (Flyweight.Context.collect t c)) m.identifier))
    (declarationWithFactoryMethod : ∀ l,
      motive (.local l) (.ofCheck c (.declarationWithFactoryMethod l) (localSubject l)))
    (wrapsInStatement : ∀ l,
      motive (.local l) (.ofCheck c (.wrapsInStatement l) (localSubject l))) :
    motive site j := by
  cases site with
  | type t =>
    simp only [judgements] at hj
    split_ifs at hj
    · obtain rfl := List.mem_singleton.mp hj
      exact isProductInterface t
    · simp only [List.mem_cons, List.not_mem_nil, or_false] at hj
      obtain rfl | rfl | rfl := hj
      · exact singleton t
      · exact isConcreteProduct t
      · exact decorator t
  | field f =>
    obtain rfl := List.mem_singleton.mp hj
    exact hasCollection f
  | method m =>
    simp only [judgements, List.mem_append, List.mem_cons, List.not_mem_nil, or_false,
      List.mem_map] at hj
    obtain (rfl | rfl) | ⟨t, ht, rfl⟩ := hj
    · exact isAbstractFactoryMethod m
    · exact overridesAbstractFactoryMethod m
    · exact hasGetMethod m t (Option.mem_toList.mp ht)
  | «local» l =>
    simp only [judgements, List.mem_cons, List.not_mem_nil, or_false] at hj
    obtain rfl | rfl := hj
    · exact declarationWithFactoryMethod l
    · exact wrapsInStatement l
  | _ => simp [judgements] at hj

/-- All judgements about a declaration place their matches at the same place. -/
theorem Judgement.placedAt_focus {c : Compilation} {site : Site} {owner : Option TypeDeclaration}
    {j : Judgement} (hj : j ∈ judgements c site owner) : j.outcome.PlacedAt site.focus :=
  judgements_cases (motive := fun site j => j.outcome.PlacedAt site.focus) hj
    (FactoryMethod.isProductInterface_placedAt · c) Singleton.verdict_placedAt
    (FactoryMethod.isConcreteProduct_placedAt · c) (Decorator.verdict_placedAt · c)
    (Flyweight.hasCollection_placedAt · c) FactoryMethod.isAbstractFactoryMethod_placedAt
    FactoryMethod.overridesAbstractFactoryMethod_placedAt
    (fun m _ _ => Flyweight.hasGetMethod_placedAt m _)
    (FactoryMethod.declarationWithFactoryMethod_placedAt · c) Decorator.wrapsInStatement_placedAt

def declarations (c : Compilation) : List WorkItem :=
  c.trees.flatMap fun tree => tree.types.flatMap (typeItems tree)

/-- A class that keeps its only instance to itself. -/
def soloType (file : String) : TypeDeclaration :=
  let place (line first last : Nat) : Location := ⟨file, ⟨line, first⟩, ⟨line, last⟩⟩
  ⟨.class, [], "Solo", place 0 6 10, place 0 0 90, none, none, [],
    [.field ⟨[.privateAccess, .static], .simple "Solo", [⟨"instance", none⟩], place 1 2 30⟩,
      .constructor ⟨[.privateAccess], "Solo", [], some ⟨[]⟩, place 2 2 18⟩,
      .method ⟨[.publicAccess, .static], "Get", place 3 21 24, .simple "Solo", [], some ⟨[]⟩,
        place 3 2 40⟩]⟩

def soloTree (file : String) : SourceTree := ⟨file, 0, 0, [], [soloType file]⟩

namespace Visit

def judgements (v : Visit) : List Judgement :=
  PatternFinder.judgements v.compilation v.item.site v.item.owner

theorem reportOutcome_eq (v : Visit) (p : Pattern) {check : String} (subject : String)
    (outcome : Outcome)
    (h : v.options.includePartial = true ∨ Judgement.partialChecks.contains check = false) :
    v.reportOutcome p check subject outcome =
      Judgement.reported v.options ⟨p, check, subject, outcome⟩ := by
  have hpartial : (v.options.includePartial || !Judgement.partialChecks.contains check) = true := by
    rcases h with h | h
    · rw [h, Bool.true_or]
    · rw [h, Bool.not_false, Bool.or_true]
  unfold reportOutcome report Judgement.reported Judgement.passes
  dsimp only
  rw [hpartial, Bool.and_true, Judgement.findings]
  dsimp only
  cases outcome.matched <;> cases outcome.location <;> simp [Judgement.finding]

theorem reportCheck_eq (v : Visit) {check : Check} (subject : String)
    (h : v.options.includePartial = true ∨ Judgement.partialChecks.contains check.name = false) :
    v.reportCheck check subject =
      Judgement.reported v.options (.ofCheck v.compilation check subject) :=
  v.reportOutcome_eq check.pattern subject (check.evaluate v.compilation) h

end Visit

namespace Analyzer

def findings (a : Analyzer) (v : Visit) : List Finding :=
  (a.actions.filter (·.kind == v.item.site.kind)).flatMap fun action => (action.react v).findings

/-- What the judgements about one pattern report at a visit. -/
def expected (p : Pattern) (v : Visit) : List Finding :=
  (v.judgements.filter (·.pattern == p)).flatMap (Judgement.reported v.options)

section Expected

attribute [local simp] findings expected Visit.judgements judgements onType onField onMethod onLocal
  Site.kind Reaction.ofFindings Reaction.nothing Check.pattern Check.name Visit.reportOutcome_eq
  Visit.reportCheck_eq Judgement.partialChecks

theorem findings_singleton (v : Visit) : singleton.findings v = expected .singleton v := by
  obtain ⟨⟨tree, site, owner⟩, c, o⟩ := v
  cases site with
  | type t => cases ht : t.isInterface <;> simp [singleton, ht]
  | method m => cases owner <;> simp [singleton]
  | _ => simp [singleton]

theorem findings_factoryMethod (v : Visit) :
    factoryMethod.findings v = expected .factoryMethod v := by
  obtain ⟨⟨tree, site, owner⟩, c, o⟩ := v
  cases site with
  | type t => cases ht : t.isInterface <;> simp [factoryMethod, ht]
  | method m => cases owner <;> simp [factoryMethod]
  | «local» l =>
    cases ho : o.includePartial <;>
      simp [factoryMethod, ho, Judgement.reported, Judgement.passes]
  | _ => simp [factoryMethod]

theorem findings_decorator (v : Visit) : decorator.findings v = expected .decorator v := by
  obtain ⟨⟨tree, site, owner⟩, c, o⟩ := v
  cases site with
  | type t => cases ht : t.isInterface <;> simp [decorator, ht]
  | method m => cases owner <;> simp [decorator]
  | «local» l =>
    cases ho : o.includePartial <;>
      simp [decorator, ho, Judgement.reported, Judgement.passes]
  | _ => simp [decorator]

private theorem findings_flyweight (v : Visit) : flyweight.findings v = expected .flyweight v := by
  obtain ⟨⟨tree, site, owner⟩, c, o⟩ := v
  cases site with
  | type t => cases ht : t.isInterface <;> simp [flyweight, ht]
  | method m => cases owner <;> simp [flyweight]
  | _ => simp [flyweight]

end Expected

/-- An analyzer reports what the judgements about its pattern do. -/
theorem findings_ofPattern (p : Pattern) (v : Visit) : (ofPattern p).findings v = expected p v := by
  cases p with
  | singleton => exact findings_singleton v
  | factoryMethod => exact findings_factoryMethod v
  | decorator => exact findings_decorator v
  | flyweight => exact findings_flyweight v

end Analyzer

/-- Judgements are asked pattern by pattern, in the fixed order. -/
theorem judgements_by_pattern (c : Compilation) (site : Site) (owner : Option TypeDeclaration) :
    Pattern.all.flatMap (fun p => (judgements c site owner).filter (·.pattern == p)) =
      judgements c site owner := by
  cases site with
  | type t => cases ht : t.isInterface <;> simp [judgements, Pattern.all, ht, Check.pattern]
  | method m => cases owner <;> simp [judgements, Pattern.all, Check.pattern]
  | _ => simp [judgements, Pattern.all, Check.pattern]

theorem filter_by_pattern (keep : Pattern → Bool) (js : List Judgement) (ps : List Pattern) :
    (ps.flatMap fun p => js.filter (·.pattern == p)).filter (keep ·.pattern) =
      (ps.filter keep).flatMap fun p => js.filter (·.pattern == p) := by
  induction ps with
  | nil => rfl
  | cons p ps ih =>
    have hp : (js.filter (·.pattern == p)).filter (keep ·.pattern) =
        if keep p then js.filter (·.pattern == p) else [] := by
      rw [List.filter_filter]
      split_ifs with hk
      · refine List.filter_congr fun j _ => ?_
        by_cases hj : j.pattern = p <;> simp [hj, hk]
      · refine List.filter_eq_nil_iff.mpr fun j _ => ?_
        by_cases hj : j.pattern = p <;> simp [hj, hk]
    rw [List.flatMap_cons, List.filter_append, ih, hp, List.filter_cons]
    split_ifs <;> simp

theorem flatMap_filter {α β : Type} (p : α → Bool) (f : α → List β) (l : List α) :
    (l.filter p).flatMap f = l.flatMap fun x => if p x then f x else [] := by
  induction l with
  | nil => rfl
  | cons x l ih => cases hx : p x <;> simp [hx, ih]

namespace Host

/-- The host of the standard analyzers of some patterns. -/
def selected (keep : Pattern → Bool) (o : ReportOptions) (parallel : Bool) : Host :=
  { (ofRegistry (Registry.standard.retain keep)).withOptions o with parallel }

theorem analyzers_standard : Registry.standard.analyzers = Pattern.all.map Analyzer.ofPattern := rfl

theorem pattern_ofPattern (p : Pattern) : (Analyzer.ofPattern p).pattern = p := by
  cases p <;> rfl

theorem analyzers_retain_standard (keep : Pattern → Bool) :
    (Registry.standard.retain keep).analyzers =
      (Pattern.all.filter keep).map Analyzer.ofPattern := by
  rw [Registry.retain, analyzers_standard, List.filter_map]
  simp only [Function.comp_def, pattern_ofPattern]

theorem subscriptions_selected (keep : Pattern → Bool) (o : ReportOptions) (parallel : Bool) :
    (selected keep o parallel).subscriptions = (Pattern.all.filter keep).flatMap fun p =>
      (Analyzer.ofPattern p).actions.map (⟨p, ·⟩) := by
  change (Registry.standard.retain keep).analyzers.flatMap _ = _
  rw [analyzers_retain_standard, List.flatMap_map]
  simp only [pattern_ofPattern]

def findingsAt (h : Host) (c : Compilation) (item : WorkItem) : List Finding :=
  (h.visit c item).flatMap (·.2.findings)

theorem findingsAt_selected (keep : Pattern → Bool) (o : ReportOptions) (parallel : Bool)
    (c : Compilation) (item : WorkItem) :
    (selected keep o parallel).findingsAt c item =
      ((judgements c item.site item.owner).filter (keep ·.pattern)).flatMap
        (Judgement.reported o) := by
  have hanalyzers : (selected keep o parallel).findingsAt c item =
      (Pattern.all.filter keep).flatMap fun p =>
        (Analyzer.ofPattern p).findings ⟨item, c, o⟩ := by
    unfold findingsAt visit
    rw [subscriptions_selected]
    simp only [Analyzer.findings, List.filter_flatMap, List.filter_map, List.map_flatMap,
      List.map_map, List.flatMap_assoc, List.flatMap_map, Function.comp_def]
    rfl
  have hfilter := filter_by_pattern keep (judgements c item.site item.owner) Pattern.all
  rw [judgements_by_pattern] at hfilter
  simp only [hanalyzers, hfilter, Analyzer.findings_ofPattern, List.flatMap_assoc]
  rfl

/-- What a run that leaves nothing out reports, in order of arrival. -/
def reported (h : Host) (c : Compilation) : List Finding :=
  (workItems c h.subscribed).flatMap (h.findingsAt c)

private theorem findingsAt_of_not_subscribed {h : Host} {c : Compilation} {item : WorkItem}
    (hs : h.subscribed item.site.kind = false) : h.findingsAt c item = [] := by
  have hnone : h.subscriptions.filter (·.action.kind == item.site.kind) = [] := by
    rw [List.filter_eq_nil_iff]
    simpa [subscribed] using hs
  rw [findingsAt, visit, hnone]
  rfl

/-- Nothing is lost by visiting the subscribed kinds only. -/
theorem reported_eq (h : Host) (c : Compilation) :
    h.reported c = (declarations c).flatMap (h.findingsAt c) := by
  change ((declarations c).filter fun item => h.subscribed item.site.kind).flatMap _ = _
  rw [flatMap_filter]
  refine List.flatMap_congr fun item _ => ?_
  split_ifs with hs
  · rfl
  · rw [Bool.not_eq_true] at hs
    exact (findingsAt_of_not_subscribed hs).symm

theorem reported_selected (keep : Pattern → Bool) (o : ReportOptions) (parallel : Bool)
    (c : Compilation) :
    (selected keep o parallel).reported c = (declarations c).flatMap fun item =>
      ((judgements c item.site item.owner).filter (keep ·.pattern)).flatMap
        (Judgement.reported o) := by
  rw [reported_eq, funext (findingsAt_selected keep o parallel c)]

/-- At each item a pass either leaves the item out and remembers it, or takes up its findings. -/
theorem pass_step {σ : Type} (h : Host) (c : Compilation) (signal : Signal σ) (s : σ)
    (item : WorkItem) (rest : List WorkItem) :
    ∃ s', ((h.pass c signal s (item :: rest)).1.skipped = true ∧
        (h.pass c signal s (item :: rest)).1.findings = (h.pass c signal s' rest).1.findings) ∨
      ((h.pass c signal s (item :: rest)).1.skipped = (h.pass c signal s' rest).1.skipped ∧
        (h.pass c signal s (item :: rest)).1.findings =
          h.findingsAt c item ++ (h.pass c signal s' rest).1.findings) := by
  cases hpoll : signal.poll s with
  | mk answer s' =>
    rw [pass, hpoll]
    cases answer with
    | true => exact ⟨s', .inl ⟨rfl, rfl⟩⟩
    | false =>
      exact ⟨if (h.visit c item).any (·.2.cancels) then signal.request s' else s', .inr ⟨rfl, rfl⟩⟩

/-- A pass that leaves no item out collects the findings of every item, whatever the signal. -/
theorem pass_findings {σ : Type} (h : Host) (c : Compilation) (signal : Signal σ) (s : σ)
    (items : List WorkItem) (hp : (h.pass c signal s items).1.skipped = false) :
    (h.pass c signal s items).1.findings = items.flatMap (h.findingsAt c) := by
  induction items generalizing s with
  | nil => rfl
  | cons item rest ih =>
    obtain ⟨s', ⟨hskip, -⟩ | ⟨hskip, hfindings⟩⟩ := pass_step h c signal s item rest
    · rw [hp] at hskip
      cases hskip
    · rw [hskip] at hp
      rw [hfindings, ih s' hp, List.flatMap_cons]

/-- A run that is not cancelled reports every finding, in report order. -/
theorem run_findings {σ : Type} (h : Host) (c : Compilation) (signal : Signal σ) (s : σ)
    (hrun : (h.run c signal s).1.cancelled = false) :
    (h.pass c signal s (workItems c h.subscribed)).1.findings = h.reported c ∧
      (h.run c signal s).1.findings = (FindingBag.mk (h.reported c)).sorted := by
  have hskip : (h.pass c signal s (workItems c h.subscribed)).1.skipped = false := by
    by_contra hskip
    rw [Bool.not_eq_false] at hskip
    simp [run, hskip] at hrun
  have hpass := pass_findings h c signal s _ hskip
  refine ⟨hpass, ?_⟩
  change (FindingBag.mk (h.pass c signal s (workItems c h.subscribed)).1.findings).sorted = _
  rw [hpass]
  rfl

private theorem pass_script_nil (h : Host) (c : Compilation) (items : List WorkItem) :
    (h.pass c .script [] items).1.skipped = false ∧ (h.pass c .script [] items).2 = [] := by
  induction items with
  | nil => exact ⟨rfl, rfl⟩
  | cons item rest ih =>
    unfold pass
    simpa [Signal.script] using ih

theorem run_script_nil (h : Host) (c : Compilation) :
    (h.run c .script []).1.cancelled = false := by
  obtain ⟨hskip, hstate⟩ := pass_script_nil h c (workItems c h.subscribed)
  unfold run
  dsimp only
  rw [hskip, hstate]
  rfl

end Host

end PatternFinder
