import PatternFinder.Proofs.IndexScan
import PatternFinder.Proofs.Reporting

/-! A finding that rests on another declaration comes with the finding about that declaration. -/
namespace PatternFinder

theorem Outcome.matched_iff {o : Outcome} : o.matched = true ↔ o.verdict = .found := beq_iff_eq

theorem Outcome.eq_found {o : Outcome} {l : Location} (hfound : o.verdict = .found)
    (hplace : o.location = some l) : o = .found l o.evidence := by
  cases o
  cases hfound
  cases hplace
  rfl

namespace FactoryMethod

variable {c : Compilation} {t : TypeDeclaration} {m : MethodDeclaration} {l : LocalDeclaration}

theorem isAbstract_of_found (h : (isAbstractFactoryMethod m).verdict = .found) :
    m.modifiers.isAbstract = true := by
  revert h
  fun_cases isAbstractFactoryMethod m with
  | case1 => exact nofun
  | case2 hcondition =>
    rw [Bool.or_eq_true, not_or, Bool.not_eq_true', Bool.not_eq_false] at hcondition
    exact fun _ => hcondition.1

/-- A product interface names an abstract factory method that returns it. -/
theorem exists_method_of_isProductInterface (h : (isProductInterface t c).verdict = .found) :
    t.isInterface = true ∧ ∃ m ∈ c.methods, m.returnType.identifier? = some t.identifier ∧
      (isAbstractFactoryMethod m).verdict = .found ∧
      (isProductInterface t c).evidence = some m.identifier := by
  revert h
  fun_cases isProductInterface t c with
  | case1 => exact nofun
  | case2 hinterface m hm =>
    rw [Bool.not_eq_true', Bool.not_eq_false] at hinterface
    have hreturns := List.mem_of_find?_eq_some hm
    rw [Compilation.methodsReturning_eq, List.mem_filter, beq_iff_eq] at hreturns
    have hmatched := List.find?_some hm
    exact fun _ => ⟨hinterface, m, hreturns.1, hreturns.2, Outcome.matched_iff.mp hmatched, rfl⟩
  | case3 => exact nofun

/-- A concrete product names a product interface. -/
theorem exists_interface_of_isConcreteProduct (h : (isConcreteProduct t c).verdict = .found) :
    ∃ i ∈ c.types, (isProductInterface i c).verdict = .found ∧
      (isConcreteProduct t c).evidence = some i.identifier := by
  revert h
  fun_cases isConcreteProduct t c with
  | case1 => exact nofun
  | case2 hclass base hbase =>
    have hany := List.find?_some hbase
    obtain ⟨i, hi, hmatched⟩ := List.any_eq_true.mp hany
    obtain ⟨htypes, rfl⟩ := Compilation.mem_typesNamed.mp hi
    exact fun _ => ⟨i, htypes, Outcome.matched_iff.mp hmatched, rfl⟩
  | case3 => exact nofun

/-- A call of a factory method names an abstract factory method. -/
theorem exists_method_of_declaration (h : (declarationWithFactoryMethod l c).verdict = .found) :
    ∃ m ∈ c.methods, (isAbstractFactoryMethod m).verdict = .found ∧
      (declarationWithFactoryMethod l c).evidence = some m.identifier := by
  revert h
  fun_cases declarationWithFactoryMethod l c with
  | case1 target hcall =>
    obtain ⟨e, -, he⟩ := List.exists_of_findSome?_eq_some hcall
    obtain ⟨m, hm, hmatched⟩ := List.any_eq_true.mp (Option.filter_eq_some_iff.mp he).2
    rw [Compilation.methodsNamed_eq, List.mem_filter, beq_iff_eq] at hm
    obtain ⟨hm, rfl⟩ := hm
    exact fun _ => ⟨m, hm, Outcome.matched_iff.mp hmatched, rfl⟩
  | case2 => exact nofun

end FactoryMethod

namespace Flyweight

variable {c : Compilation} {t : TypeDeclaration} {m : MethodDeclaration}

theorem tracks_of_hasGetMethod {context : Context}
    (h : (hasGetMethod m context).verdict = .found) :
    ∃ name, context.tracks name = true ∧
      hasGetMethod m context = .found m.identifierLocation (some name) := by
  revert h
  fun_cases hasGetMethod m context with
  | case3 _ b returned _ _ _ htracks => exact fun _ => ⟨returned, htracks, rfl⟩
  | _ => exact nofun

theorem exists_field_of_tracks {name : String} (h : (Context.collect t c).tracks name = true) :
    ∃ f ∈ t.fields, (hasCollection f c).verdict = .found ∧
      (hasCollection f c).evidence = some name := by
  have hmem : name ∈ (Context.collect t c).elementTypes := List.contains_iff_mem.mp h
  obtain ⟨outcome, houtcome, hevidence⟩ := List.mem_filterMap.mp (List.mem_eraseDups.mp hmem)
  obtain ⟨houtcome, hmatched⟩ := List.mem_filter.mp houtcome
  obtain ⟨f, hf, rfl⟩ := List.mem_map.mp houtcome
  exact ⟨f, hf, Outcome.matched_iff.mp hmatched, hevidence⟩

end Flyweight

/-- Some finding is about the check at the place. -/
def Reports (findings : List Finding) (check : String) (place : Location) : Prop :=
  ∃ f ∈ findings, f.check = check ∧ f.location = place

/-- What a finding rests on is among the findings. A concrete product rests on its interface and on
a method that makes it, an interface and a call on the method they name, and a method that hands out
elements on the pool of its own type. -/
structure Finding.SupportedIn (c : Compilation) (findings : List Finding) (f : Finding) : Prop where
  product : f.check = "IsConcreteProduct" → ∃ name, f.evidence = some name ∧
    (∃ i ∈ c.types, i.isInterface = true ∧ i.identifier = name ∧
      Reports findings "IsProductInterface" i.identifierLocation) ∧
    ∃ m ∈ c.methods, m.modifiers.isAbstract = true ∧ m.returnType.identifier? = some name ∧
      Reports findings "IsAbstractFactoryMethod" m.identifierLocation
  factory : f.check = "IsProductInterface" ∨ f.check = "DeclarationWithFactoryMethod" →
    ∃ m ∈ c.methods, f.evidence = some m.identifier ∧
      Reports findings "IsAbstractFactoryMethod" m.identifierLocation
  pool : f.check = "HasGetFlyweightMethod" → ∃ name, f.evidence = some name ∧
    ∃ t ∈ c.types, ∃ m ∈ t.methods,
      Flyweight.hasGetMethod m (.collect t c) = .found f.location (some name) ∧
      ∃ d ∈ t.fields, ∃ g ∈ findings, g.check = "HasFlyweightCollection" ∧
        g.location = d.location ∧ g.evidence = some name

theorem Finding.SupportedIn.mono {c : Compilation} {findings findings' : List Finding} {f : Finding}
    (h : f.SupportedIn c findings) (hsub : ∀ g ∈ findings, g ∈ findings') :
    f.SupportedIn c findings' := by
  have hreports : ∀ {check place}, Reports findings check place → Reports findings' check place :=
    fun ⟨g, hg, hcheck, hplace⟩ => ⟨g, hsub g hg, hcheck, hplace⟩
  refine ⟨fun hcheck => ?_, fun hcheck => ?_, fun hcheck => ?_⟩
  · obtain ⟨name, hname, ⟨i, hi, hkind, hi', hreported⟩, m, hm, habstract, hreturns, hmade⟩ :=
      h.product hcheck
    exact ⟨name, hname, ⟨i, hi, hkind, hi', hreports hreported⟩, m, hm, habstract, hreturns,
      hreports hmade⟩
  · obtain ⟨m, hm, hname, hmade⟩ := h.factory hcheck
    exact ⟨m, hm, hname, hreports hmade⟩
  · obtain ⟨name, hname, t, ht, m, hm, houtcome, d, hd, g, hg, hrest⟩ := h.pool hcheck
    exact ⟨name, hname, t, ht, m, hm, houtcome, d, hd, g, hsub g hg, hrest⟩

theorem Member.method?_eq_some_iff {member : Member} {m : MethodDeclaration} :
    member.method? = some m ↔ member = .method m := by
  cases member <;> simp [Member.method?]

theorem Member.field?_eq_some_iff {member : Member} {f : FieldDeclaration} :
    member.field? = some f ↔ member = .field f := by
  cases member <;> simp [Member.field?]

theorem TypeDeclaration.mem_methods_iff {t : TypeDeclaration} {m : MethodDeclaration} :
    m ∈ t.methods ↔ .method m ∈ t.members := by
  simp only [methods, List.mem_filterMap, Member.method?_eq_some_iff, exists_eq_right]

theorem TypeDeclaration.mem_fields_iff {t : TypeDeclaration} {f : FieldDeclaration} :
    f ∈ t.fields ↔ .field f ∈ t.members := by
  simp only [fields, List.mem_filterMap, Member.field?_eq_some_iff, exists_eq_right]

theorem Declared.of_method {c : Compilation} {t : TypeDeclaration} {m : MethodDeclaration}
    (h : Declared c (.method m) (some t)) : t ∈ c.types ∧ m ∈ t.methods := by
  generalize hsite : Site.method m = site at h
  cases h with
  | member ht hm =>
    rename_i member
    cases member with
    | method m' =>
      obtain rfl : m = m' := Site.method.inj hsite
      exact ⟨ht, TypeDeclaration.mem_methods_iff.mpr hm⟩
    | _ => cases hsite
  | «local» => cases hsite

theorem Judgement.site_ne_creation {c : Compilation} {site : Site}
    {owner : Option TypeDeclaration} {j : Judgement} (hj : j ∈ judgements c site owner) :
    ∀ x, site ≠ .creation x := by
  rintro x rfl
  simp [judgements] at hj

namespace Host

variable {c : Compilation} {keep : Pattern → Bool} {o : ReportOptions} (parallel : Bool)

theorem mem_reported_iff {f : Finding} :
    f ∈ (selected keep o parallel).reported c ↔ ∃ item ∈ declarations c,
      ∃ j ∈ judgements c item.site item.owner, keep j.pattern = true ∧ f ∈ j.reported o := by
  simp only [reported_selected, List.mem_flatMap, List.mem_filter, and_assoc]

/-- Whether findings about a pattern are let through at all. -/
def Admits (keep : Pattern → Bool) (o : ReportOptions) (p : Pattern) : Prop :=
  keep p = true ∧ (o.severityFor p).atLeast o.minSeverity = true

theorem exists_reported_of_found {site : Site} {owner : Option TypeDeclaration} {j : Judgement}
    (hd : Declared c site owner) (hj : j ∈ judgements c site owner)
    (hadmits : Admits keep o j.pattern) (hcheck : j.check ∉ Judgement.partialChecks)
    (hfound : j.outcome.verdict = .found) :
    ∃ f ∈ (selected keep o parallel).reported c,
      f.check = j.check ∧ f.location = site.focus ∧ f.evidence = j.outcome.evidence := by
  have hplace := (Judgement.placedAt_focus hj).location_of_found hfound
  obtain ⟨item, hitem, rfl, rfl⟩ :=
    (exists_item_iff_declared (Judgement.site_ne_creation hj)).mpr hd
  refine ⟨j.finding o item.site.focus j.outcome.evidence, ?_, rfl, rfl, rfl⟩
  rw [mem_reported_iff]
  refine ⟨item, hitem, j, hj, hadmits.1, Judgement.mem_reported_iff.mpr ?_⟩
  exact ⟨hadmits.2, fun h => absurd h hcheck, hfound, hplace, rfl⟩

theorem reports_interface (hadmits : Admits keep o .factoryMethod) {i : TypeDeclaration}
    (hi : i ∈ c.types) (hfound : (FactoryMethod.isProductInterface i c).verdict = .found) :
    Reports ((selected keep o parallel).reported c) "IsProductInterface" i.identifierLocation := by
  obtain ⟨hinterface, -⟩ := FactoryMethod.exists_method_of_isProductInterface hfound
  have hj : .ofCheck c (.isProductInterface i) i.identifier ∈ judgements c (.type i) none := by
    simp [judgements, hinterface]
  obtain ⟨f, hf, hcheck, hplace, -⟩ := exists_reported_of_found parallel (.type hi) hj
    hadmits (by simp [Judgement.partialChecks, Check.name]) hfound
  exact ⟨f, hf, hcheck, hplace⟩

theorem reports_method (hadmits : Admits keep o .factoryMethod) {m : MethodDeclaration}
    (hm : m ∈ c.methods) (hfound : (FactoryMethod.isAbstractFactoryMethod m).verdict = .found) :
    Reports ((selected keep o parallel).reported c) "IsAbstractFactoryMethod"
      m.identifierLocation := by
  obtain ⟨t, ht, hm⟩ := List.mem_flatMap.mp hm
  have hd : Declared c (.method m) (some t) := .member ht (TypeDeclaration.mem_methods_iff.mp hm)
  have hj : .ofCheck c (.isAbstractFactoryMethod m) m.identifier ∈
      judgements c (.method m) (some t) := by simp [judgements]
  obtain ⟨f, hf, hcheck, hplace, -⟩ := exists_reported_of_found parallel hd hj hadmits
    (by simp [Judgement.partialChecks, Check.name]) hfound
  exact ⟨f, hf, hcheck, hplace⟩

theorem exists_reported_pool (hadmits : Admits keep o .flyweight) {t : TypeDeclaration}
    {d : FieldDeclaration} {name : String} (ht : t ∈ c.types) (hfield : d ∈ t.fields)
    (hfound : (Flyweight.hasCollection d c).verdict = .found)
    (hevidence : (Flyweight.hasCollection d c).evidence = some name) :
    ∃ f ∈ (selected keep o parallel).reported c, f.check = "HasFlyweightCollection" ∧
      f.location = d.location ∧ f.evidence = some name := by
  have hd : Declared c (.field d) (some t) := .member ht (TypeDeclaration.mem_fields_iff.mp hfield)
  obtain ⟨f, hf, hcheck, hplace, hsame⟩ := exists_reported_of_found parallel hd
    (List.mem_singleton.mpr rfl) hadmits (by simp [Judgement.partialChecks, Check.name]) hfound
  exact ⟨f, hf, hcheck, hplace, hsame.trans hevidence⟩

section Supported

variable {f : Finding}

theorem supportedIn_of_product (hadmits : Admits keep o .factoryMethod) {t : TypeDeclaration}
    (hcheck : f.check = "IsConcreteProduct")
    (hevidence : f.evidence = (FactoryMethod.isConcreteProduct t c).evidence)
    (hfound : (FactoryMethod.isConcreteProduct t c).verdict = .found) :
    f.SupportedIn c ((selected keep o parallel).reported c) := by
  obtain ⟨i, hi, hinterface, hname⟩ := FactoryMethod.exists_interface_of_isConcreteProduct hfound
  obtain ⟨hkind, m, hm, hreturns, hmethod, -⟩ :=
    FactoryMethod.exists_method_of_isProductInterface hinterface
  have habstract := FactoryMethod.isAbstract_of_found hmethod
  refine ⟨fun _ => ⟨i.identifier, hevidence.trans hname, ?_, ?_⟩, ?_, ?_⟩
  · exact ⟨i, hi, hkind, rfl, reports_interface parallel hadmits hi hinterface⟩
  · exact ⟨m, hm, habstract, hreturns, reports_method parallel hadmits hm hmethod⟩
  all_goals simp [hcheck]

theorem supportedIn_of_factory (hadmits : Admits keep o .factoryMethod) {m : MethodDeclaration}
    (hcheck : f.check = "IsProductInterface" ∨ f.check = "DeclarationWithFactoryMethod")
    (hevidence : f.evidence = some m.identifier) (hm : m ∈ c.methods)
    (hmethod : (FactoryMethod.isAbstractFactoryMethod m).verdict = .found) :
    f.SupportedIn c ((selected keep o parallel).reported c) := by
  refine ⟨?_, fun _ => ⟨m, hm, hevidence, reports_method parallel hadmits hm hmethod⟩, ?_⟩
  all_goals rcases hcheck with hcheck | hcheck <;> simp [hcheck]

private theorem supportedIn_of_pool (hadmits : Admits keep o .flyweight) {t : TypeDeclaration}
    {m : MethodDeclaration} (ht : t ∈ c.types) (hm : m ∈ t.methods)
    (hcheck : f.check = "HasGetFlyweightMethod")
    (houtcome : Flyweight.hasGetMethod m (.collect t c) = .found f.location f.evidence) :
    f.SupportedIn c ((selected keep o parallel).reported c) := by
  obtain ⟨name, htracks, hname⟩ := Flyweight.tracks_of_hasGetMethod (by rw [houtcome]; rfl)
  obtain ⟨d, hd, hpool, hholds⟩ := Flyweight.exists_field_of_tracks htracks
  have hevidence : f.evidence = some name :=
    congrArg Outcome.evidence (houtcome.symm.trans hname)
  rw [hevidence] at houtcome
  have hreported := exists_reported_pool parallel hadmits ht hd hpool hholds
  refine ⟨?_, ?_, fun _ => ⟨name, hevidence, t, ht, m, hm, houtcome, d, hd, hreported⟩⟩
  all_goals simp [hcheck]

/-- What a judgement reports is supported by what the other judgements report. -/
theorem supportedIn_reported {site : Site} {owner : Option TypeDeclaration} {j : Judgement}
    (hj : j ∈ judgements c site owner) (hd : Declared c site owner) (hkeep : keep j.pattern = true)
    (hf : f ∈ j.reported o) : f.SupportedIn c ((selected keep o parallel).reported c) := by
  obtain ⟨hseverity, -, hfound, hplace, hf⟩ := Judgement.mem_reported_iff.mp hf
  have hadmits : Admits keep o j.pattern := ⟨hkeep, hseverity⟩
  have hcheck : f.check = j.check := by rw [hf]; rfl
  have houtcome : j.outcome = .found f.location f.evidence := by
    rw [Outcome.eq_found hfound hplace, hf]
    rfl
  clear hf hkeep hseverity hplace
  revert hd hfound hcheck houtcome hadmits
  apply judgements_cases (motive := fun site j => Declared c site owner →
    j.outcome.verdict = .found → Admits keep o j.pattern → f.check = j.check →
    j.outcome = .found f.location f.evidence →
    f.SupportedIn c ((selected keep o parallel).reported c)) hj
  case isConcreteProduct =>
    intro t _ hfound hadmits hcheck houtcome
    have hevidence := (congrArg Outcome.evidence houtcome).symm
    exact supportedIn_of_product parallel hadmits hcheck hevidence hfound
  case isProductInterface =>
    intro t _ hfound hadmits hcheck houtcome
    obtain ⟨-, m, hm, -, hmethod, hname⟩ :=
      FactoryMethod.exists_method_of_isProductInterface hfound
    have hevidence := (congrArg Outcome.evidence houtcome).symm.trans hname
    exact supportedIn_of_factory parallel hadmits (.inl hcheck) hevidence hm hmethod
  case declarationWithFactoryMethod =>
    intro l _ hfound hadmits hcheck houtcome
    obtain ⟨m, hm, hmethod, hname⟩ := FactoryMethod.exists_method_of_declaration hfound
    have hevidence := (congrArg Outcome.evidence houtcome).symm.trans hname
    exact supportedIn_of_factory parallel hadmits (.inr hcheck) hevidence hm hmethod
  case hasGetMethod =>
    rintro m t rfl hd - hadmits hcheck houtcome
    obtain ⟨ht, hm⟩ := hd.of_method
    exact supportedIn_of_pool parallel hadmits ht hm hcheck houtcome
  -- The other checks rest on nothing but the declaration itself.
  all_goals
    intro _ _ _ _ hcheck _
    constructor <;> simp [hcheck, Check.name]

end Supported

/-- Every finding of a run that is not cancelled is supported by the findings of the same run. -/
theorem findings_supported {σ : Type} (c : Compilation) (keep : Pattern → Bool) (o : ReportOptions)
    (parallel : Bool) (signal : Signal σ) (s : σ)
    (hrun : ((selected keep o parallel).run c signal s).1.cancelled = false) :
    ∀ f ∈ ((selected keep o parallel).run c signal s).1.findings,
      f.SupportedIn c ((selected keep o parallel).run c signal s).1.findings := by
  obtain ⟨-, hfindings⟩ := run_findings _ c signal s hrun
  rw [hfindings]
  intro f hf
  rw [FindingBag.mem_sorted] at hf
  obtain ⟨item, hitem, j, hj, hkeep, hf⟩ := (mem_reported_iff parallel).mp hf
  have hd : Declared c item.site item.owner :=
    (exists_item_iff_declared (Judgement.site_ne_creation hj)).mp ⟨item, hitem, rfl, rfl⟩
  have hsupported := supportedIn_reported parallel hj hd hkeep hf
  exact hsupported.mono fun g hg => FindingBag.mem_sorted.mpr hg

/-- A class that implements an interface, in a file with the interface and its maker. -/
theorem findings_supported_workshop :
    ∃ f ∈ ((selected (fun _ => true) .standard true).run
        (.ofTrees [workshopTree] true) .script []).1.findings,
      f.check = "IsConcreteProduct" ∧ f.location = gearType.identifierLocation ∧
        f.SupportedIn (.ofTrees [workshopTree] true)
          ((selected (fun _ => true) .standard true).run
            (.ofTrees [workshopTree] true) .script []).1.findings := by
  have hrun := run_script_nil (selected (fun _ => true) .standard true)
    (.ofTrees [workshopTree] true)
  have hfound : (FactoryMethod.isConcreteProduct gearType
      (.ofTrees [workshopTree] true)).verdict = .found := by
    simp only [FactoryMethod.isConcreteProduct, FactoryMethod.isProductInterface,
      Compilation.typesNamed_eq, Compilation.methodsReturning_eq]
    decide
  have hgear : gearType ∈ (Compilation.ofTrees [workshopTree] true).types :=
    .tail _ (.tail _ (.head _))
  have hadmits : Admits (fun _ => true) .standard .factoryMethod := ⟨rfl, by decide⟩
  obtain ⟨f, hf, hcheck, hplace, -⟩ := exists_reported_of_found true
    (j := .ofCheck _ (.isConcreteProduct gearType) gearType.identifier) (.type hgear)
    (.tail _ (.head _)) hadmits (by decide) hfound
  rw [← FindingBag.mem_sorted, ← (run_findings _ _ _ _ hrun).2] at hf
  exact ⟨f, hf, hcheck, hplace, findings_supported _ _ _ _ _ _ hrun f hf⟩

end Host

end PatternFinder
