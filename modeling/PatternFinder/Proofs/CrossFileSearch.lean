import PatternFinder.Proofs.WrappedComponent

/-! The checks that look through all files. Each tries candidates in their order against the
declarations of the whole compilation, and a match names the first candidate that passes. -/
namespace PatternFinder

namespace Outcome

variable {α : Type} {place : Location} {candidates : List α} {passes : α → Prop} {name : α → String}

/-- What a check says about the result of its search. -/
def ofSearch (place : Location) (name : α → String) (result : Option α) : Outcome :=
  result.elim .notFound fun x => .found place (some (name x))

theorem matched_ofSearch (result : Option α) :
    (ofSearch place name result).matched = result.isSome := by
  cases result <;> rfl

theorem ofSearch_eq_found_iff {result : Option α} {text : String} :
    ofSearch place name result = .found place (some text) ↔
      ∃ x, result = some x ∧ name x = text := by
  cases result with
  | none => exact ⟨nofun, nofun⟩
  | some x => simp [ofSearch, found]

/-- The outcome of a check that tries candidates, where it applies at all. It matches when some
candidate passes, and then names the first that does. -/
structure ReportsFirst (o : Outcome) (place : Location) (applies : Prop) (candidates : List α)
    (passes : α → Prop) (name : α → String) : Prop where
  matched_iff : o.matched = true ↔ applies ∧ ∃ x ∈ candidates, passes x
  found_iff : ∀ text, o = .found place (some text) ↔
    applies ∧ ∃ x, FirstSuch passes candidates x ∧ name x = text
  otherwise : o.matched = false → o = .notFound

theorem reportsFirst_of_eq {o : Outcome} {applies : Prop} [Decidable applies] {test : α → Bool}
    (ho : o = if applies then ofSearch place name (candidates.find? test) else .notFound)
    (htest : ∀ x, test x = true ↔ passes x) :
    o.ReportsFirst place applies candidates passes name := by
  split_ifs at ho with happlies
  · subst ho
    refine ⟨?_, fun text => ?_, fun hunmatched => ?_⟩
    · simp [matched_ofSearch, List.isSome_find?, htest, happlies]
    · simp [ofSearch_eq_found_iff, find?_eq_some_iff_first htest, happlies]
    · rw [matched_ofSearch, Option.isSome_eq_false_iff, Option.isNone_iff_eq_none] at hunmatched
      rw [hunmatched]
      rfl
  · subst ho
    refine ⟨⟨nofun, ?_⟩, fun text => ⟨nofun, ?_⟩, fun _ => rfl⟩
    · exact fun hmatched => absurd hmatched.1 happlies
    · exact fun hfound => absurd hfound.1 happlies

end Outcome

namespace FactoryMethod

/-- An abstract method that returns the named type. -/
def Makes (name : String) (m : MethodDeclaration) : Prop :=
  m.modifiers.isAbstract = true ∧ m.returnType.identifier? = some name

section Names

variable (c : Compilation) (name : String)

/-- An interface of the name is declared, and an abstract method returns it. -/
def NamesProduct : Prop :=
  (∃ i ∈ c.types, i.isInterface = true ∧ i.identifier = name) ∧ ∃ m ∈ c.methods, Makes name m

/-- An abstract method has the name and returns something other than a keyword. -/
def NamesFactory : Prop :=
  ∃ m ∈ c.methods, m.identifier = name ∧ m.modifiers.isAbstract = true ∧
    m.returnType.isPredefined = false

end Names

/-- The names that are called to initialize local variables. -/
def initialCalls (l : LocalDeclaration) : List String :=
  l.initializers.filterMap fun e => e.asCall?.bind (·.target)

variable {c : Compilation} {name : String}

theorem isAbstractFactoryMethod_matched_iff {m : MethodDeclaration} :
    (isAbstractFactoryMethod m).matched = true ↔
      m.modifiers.isAbstract = true ∧ m.returnType.isPredefined = false := by
  unfold isAbstractFactoryMethod
  cases m.modifiers.isAbstract <;> cases m.returnType.isPredefined <;>
    simp [Outcome.matched, Outcome.found, Outcome.notFound]

private theorem makes_iff {m : MethodDeclaration} :
    (m.returnType.identifier? == some name && (isAbstractFactoryMethod m).matched) = true ↔
      Makes name m := by
  have hnamed : m.returnType.identifier? = some name → m.returnType.isPredefined = false := by
    cases m.returnType <;> simp [TypeRef.identifier?, TypeRef.isPredefined]
  rw [Bool.and_eq_true, beq_iff_eq, isAbstractFactoryMethod_matched_iff]
  constructor
  · rintro ⟨hreturns, habstract, -⟩
    exact ⟨habstract, hreturns⟩
  · rintro ⟨habstract, hreturns⟩
    exact ⟨hreturns, habstract, hnamed hreturns⟩

theorem isProductInterface_reportsFirst (i : TypeDeclaration) (c : Compilation) :
    (isProductInterface i c).ReportsFirst i.identifierLocation (i.isInterface = true) c.methods
      (Makes i.identifier) (·.identifier) := by
  refine Outcome.reportsFirst_of_eq ?_ fun _ => makes_iff
  unfold isProductInterface
  simp only [Compilation.methodsReturning_eq, List.find?_filter, Bool.decide_and,
    Bool.decide_eq_true]
  generalize List.find? _ c.methods = result
  cases i.isInterface <;> cases result <;> rfl

private theorem namesProduct_iff :
    (c.typesNamed name).any (isProductInterface · c |>.matched) = true ↔ NamesProduct c name := by
  simp only [List.any_eq_true, Compilation.mem_typesNamed,
    (isProductInterface_reportsFirst _ c).matched_iff]
  constructor
  · rintro ⟨i, ⟨hi, rfl⟩, hinterface, hmakes⟩
    exact ⟨⟨i, hi, hinterface, rfl⟩, hmakes⟩
  · rintro ⟨⟨i, hi, hinterface, rfl⟩, hmakes⟩
    exact ⟨i, ⟨hi, rfl⟩, hinterface, hmakes⟩

theorem isConcreteProduct_reportsFirst (t : TypeDeclaration) (c : Compilation) :
    (isConcreteProduct t c).ReportsFirst t.identifierLocation (t.isInterface = false)
      t.baseIdentifiers (NamesProduct c) id := by
  refine Outcome.reportsFirst_of_eq ?_ fun _ => namesProduct_iff
  unfold isConcreteProduct TypeDeclaration.isClassLike
  generalize List.find? _ t.baseIdentifiers = result
  cases t.isInterface <;> cases result <;> rfl

theorem namesFactory_iff :
    (c.methodsNamed name).any (isAbstractFactoryMethod · |>.matched) = true ↔
      NamesFactory c name := by
  simp only [List.any_eq_true, Compilation.methodsNamed_eq, List.mem_filter, beq_iff_eq,
    isAbstractFactoryMethod_matched_iff, NamesFactory, and_assoc]

/-- The search for a call is a search among the names that are called. -/
theorem findSome?_factoryCall? (l : LocalDeclaration) :
    l.initializers.findSome? (factoryCall? c) = (initialCalls l).find? fun name =>
      (c.methodsNamed name).any (isAbstractFactoryMethod · |>.matched) := by
  rw [← List.head?_filter, initialCalls, List.filter_filterMap, List.head?_filterMap]
  rfl

theorem declarationWithFactoryMethod_reportsFirst (l : LocalDeclaration) (c : Compilation) :
    (declarationWithFactoryMethod l c).ReportsFirst l.location True (initialCalls l)
      (NamesFactory c) id := by
  refine Outcome.reportsFirst_of_eq ?_ fun _ => namesFactory_iff
  unfold declarationWithFactoryMethod
  rw [findSome?_factoryCall?]
  generalize List.find? _ (initialCalls l) = result
  cases result <;> rfl

end FactoryMethod

theorem Decorator.hasAbstractClass_reportsFirst (t : TypeDeclaration) (c : Compilation) :
    (hasAbstractClass t c).ReportsFirst t.identifierLocation (t.isInterface = false)
      t.baseIdentifiers (NamesComponent c t) id := by
  refine Outcome.reportsFirst_of_eq ?_ fun _ => any_otherAbstraction_iff
  unfold hasAbstractClass
  generalize List.find? _ t.baseIdentifiers = result
  cases t.isInterface <;> cases result <;> rfl

open FactoryMethod in
/-- The checks that look through all files say what their definitions by quantifiers over all
declarations say, and the evidence is the first method, base or call that the definition allows. -/
theorem cross_file_checks_report_first (c : Compilation) :
    (∀ i : TypeDeclaration, (isProductInterface i c).ReportsFirst i.identifierLocation
        (i.isInterface = true) c.methods (Makes i.identifier) (·.identifier)) ∧
      (∀ t : TypeDeclaration, (isConcreteProduct t c).ReportsFirst t.identifierLocation
        (t.isInterface = false) t.baseIdentifiers (NamesProduct c) id) ∧
      (∀ l : LocalDeclaration, (declarationWithFactoryMethod l c).ReportsFirst l.location True
        (initialCalls l) (NamesFactory c) id) ∧
      ∀ t : TypeDeclaration, (Decorator.hasAbstractClass t c).ReportsFirst t.identifierLocation
        (t.isInterface = false) t.baseIdentifiers (Decorator.NamesComponent c t) id :=
  ⟨(isProductInterface_reportsFirst · c), (isConcreteProduct_reportsFirst · c),
    (declarationWithFactoryMethod_reportsFirst · c), (Decorator.hasAbstractClass_reportsFirst · c)⟩

open FactoryMethod in
/-- A class that lists its interface twice, in a file with the interface and its maker. -/
theorem cross_file_checks_report_first_workshop :
    isProductInterface partType (.ofTrees [workshopTree] true) =
        .found partType.identifierLocation (some "Make") ∧
      isConcreteProduct gearType (.ofTrees [workshopTree] true) =
        .found gearType.identifierLocation (some "IPart") := by
  obtain ⟨hinterface, hproduct, -, -⟩ :=
    cross_file_checks_report_first (.ofTrees [workshopTree] true)
  refine ⟨((hinterface partType).found_iff "Make").mpr ⟨rfl, ?_⟩,
    ((hproduct gearType).found_iff "IPart").mpr ⟨rfl, ?_⟩⟩
  · exact ⟨_, ⟨[], [], rfl, by simp, rfl, rfl⟩, rfl⟩
  · refine ⟨"IPart", ⟨[], ["IPart"], rfl, by simp, ?_, ?_⟩, rfl⟩
    · exact ⟨partType, .head _, rfl, rfl⟩
    · exact ⟨_, .head _, rfl, rfl⟩

end PatternFinder
