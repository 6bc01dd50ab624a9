import PatternFinder.Proofs.Reordering
import PatternFinder.Proofs.Support

/-! The component that a decorator wraps. One name in the base list is taken for it, and the field
and the constructor are asked about that name alone. -/
namespace PatternFinder

/-- The first element of a list with a property. -/
def FirstSuch {α : Type} (p : α → Prop) (l : List α) (x : α) : Prop :=
  ∃ before after, l = before ++ x :: after ∧ (∀ y ∈ before, ¬ p y) ∧ p x

theorem find?_eq_some_iff_first {α : Type} {p : α → Prop} {test : α → Bool} {l : List α}
    (htest : ∀ x, test x = true ↔ p x) {x : α} : l.find? test = some x ↔ FirstSuch p l x := by
  simp only [List.find?_eq_some_iff_append, Bool.not_eq_true', ← Bool.not_eq_true, htest]
  constructor
  · rintro ⟨hx, before, after, hsplit, hbefore⟩
    exact ⟨before, after, hsplit, hbefore, hx⟩
  · rintro ⟨before, after, hsplit, hbefore, hx⟩
    exact ⟨hx, before, after, hsplit, hbefore⟩

namespace Decorator

section Parts

variable (c : Compilation) (t : TypeDeclaration) (base : String)

/-- Some abstraction of the compilation, other than the type itself, has the name or lists it as a
base. -/
def NamesComponent : Prop :=
  ∃ other ∈ c.types, other.isAbstraction = true ∧
    other.identifierLocation ≠ t.identifierLocation ∧
    (other.identifier = base ∨ base ∈ other.baseIdentifiers)

/-- The first name in a base list that names a component. -/
def IsReference : Prop :=
  ∃ before after, t.baseIdentifiers = before ++ base :: after ∧
    (∀ b ∈ before, ¬ NamesComponent c t b) ∧ NamesComponent c t base

/-- A private field has a declared type of the name. -/
def KeepsPrivately : Prop :=
  ∃ f ∈ t.fields, f.modifiers.isPrivate = true ∧ f.declaredType.identifier? = some base

/-- A public constructor has a first parameter with a declared type of the name. -/
def TakesFirst : Prop :=
  ∃ k ∈ t.constructors, k.modifiers.isPublic = true ∧
    ∃ p, k.firstParameter? = some p ∧ ∃ type, p.declaredType = some type ∧
      type.identifier? = some base

end Parts

variable {c : Compilation} {t : TypeDeclaration} {base : String}

instance : Decidable (NamesComponent c t base) :=
  inferInstanceAs (Decidable (∃ other ∈ c.types, other.isAbstraction = true ∧
    other.identifierLocation ≠ t.identifierLocation ∧
    (other.identifier = base ∨ base ∈ other.baseIdentifiers)))

theorem any_otherAbstraction_iff :
    ((c.typesNamed base).any (isOtherAbstraction t) ||
      (c.typesWithBase base).any (isOtherAbstraction t)) = true ↔ NamesComponent c t base := by
  have hother : ∀ other, isOtherAbstraction t other = true ↔ other.isAbstraction = true ∧
      other.identifierLocation ≠ t.identifierLocation := by
    intro other
    simp [isOtherAbstraction]
  simp only [Bool.or_eq_true, List.any_eq_true, Compilation.mem_typesNamed,
    Compilation.mem_typesWithBase, TypeDeclaration.hasBase, List.contains_iff_mem, hother]
  constructor
  · rintro (⟨other, ⟨hmem, hname⟩, habstract, hplace⟩ | ⟨other, ⟨hmem, hbase⟩, habstract, hplace⟩)
    · exact ⟨other, hmem, habstract, hplace, .inl hname⟩
    · exact ⟨other, hmem, habstract, hplace, .inr hbase⟩
  · rintro ⟨other, hmem, habstract, hplace, hname | hbase⟩
    · exact .inl ⟨other, ⟨hmem, hname⟩, habstract, hplace⟩
    · exact .inr ⟨other, ⟨hmem, hbase⟩, habstract, hplace⟩

/-- Discovery finds the first name in the base list that names a component. -/
theorem referenceType_discover_iff (hclass : t.isClassLike = true) :
    (Context.discover t c).referenceType = some base ↔ IsReference c t base := by
  have hinterface : t.isInterface = false := by simpa [TypeDeclaration.isClassLike] using hclass
  have hfind : (Context.discover t c).referenceType = t.baseIdentifiers.find? fun base =>
      (c.typesNamed base).any (isOtherAbstraction t) ||
        (c.typesWithBase base).any (isOtherAbstraction t) := by
    unfold Context.discover Context.ofOutcome hasAbstractClass
    rw [hinterface]
    generalize List.find? _ t.baseIdentifiers = search
    cases search <;> rfl
  rw [hfind]
  exact find?_eq_some_iff_first fun _ => any_otherAbstraction_iff

theorem hasPrivateField_matched_iff :
    (hasPrivateField t ⟨some base⟩).matched = true ↔ KeepsPrivately t base := by
  rw [Outcome.matched_iff, verdict_hasPrivateField]
  simp [KeepsPrivately, TypeRef.hasIdentifier]

private theorem takesFirst_iff {k : ConstructorDeclaration} :
    takesFirst base k = true ↔ k.modifiers.isPublic = true ∧ ∃ p, k.firstParameter? = some p ∧
      ∃ type, p.declaredType = some type ∧ type.identifier? = some base := by
  unfold takesFirst TypeRef.hasIdentifier
  rw [Bool.and_eq_true, Option.any_eq_true]
  apply and_congr_right
  intro _
  cases k.firstParameter? with
  | none => simp
  | some p => simp

private theorem hasConstructor_matched_iff :
    (hasConstructor t ⟨some base⟩).matched = true ↔ TakesFirst t base := by
  rw [Outcome.matched_iff, verdict_hasConstructor]
  simp [TakesFirst, takesFirst_iff]

theorem verdict_eq_found_iff (hclass : t.isClassLike = true) :
    verdict t c = .found t.identifierLocation (some base) ↔
      IsReference c t base ∧ KeepsPrivately t base ∧ TakesFirst t base := by
  rw [← referenceType_discover_iff hclass, ← hasPrivateField_matched_iff,
    ← hasConstructor_matched_iff]
  unfold verdict
  rcases Context.discover t c with ⟨_ | reference⟩
  · exact ⟨nofun, nofun⟩
  dsimp only
  split_ifs with hboth
  · constructor
    · intro heq
      obtain rfl : reference = base := by injection heq with _ _ heq; exact Option.some.inj heq
      exact ⟨rfl, Bool.and_eq_true_iff.mp hboth⟩
    · rintro ⟨heq, -⟩
      rw [heq]
  · constructor
    · exact nofun
    · rintro ⟨heq, hparts⟩
      obtain rfl := Option.some.inj heq
      exact absurd (Bool.and_eq_true_iff.mpr hparts) hboth

private theorem exists_evidence_of_matched (h : (verdict t c).matched = true) :
    ∃ base, verdict t c = .found t.identifierLocation (some base) := by
  revert h
  fun_cases verdict t c with
  | case1 => exact nofun
  | case2 _ reference => exact fun _ => ⟨reference, rfl⟩
  | case3 => exact nofun

/-- A class is a decorator exactly when it keeps privately, and takes first in a public constructor,
what the first name in its base list stands for that names a component. That name is the evidence,
and names behind it are not tried. -/
theorem verdict_matched_iff_first (c : Compilation) (t : TypeDeclaration)
    (hclass : t.isClassLike = true) :
    ((verdict t c).matched = true ↔
        ∃ base, IsReference c t base ∧ KeepsPrivately t base ∧ TakesFirst t base) ∧
      ∀ base, verdict t c = .found t.identifierLocation (some base) ↔
        IsReference c t base ∧ KeepsPrivately t base ∧ TakesFirst t base := by
  refine ⟨⟨fun hmatched => ?_, fun ⟨base, hbase⟩ => ?_⟩, fun base => verdict_eq_found_iff hclass⟩
  · obtain ⟨base, hfound⟩ := exists_evidence_of_matched hmatched
    exact ⟨base, (verdict_eq_found_iff hclass).mp hfound⟩
  · rw [(verdict_eq_found_iff hclass).mpr hbase]
    rfl

section Cafe

def cafePlace (line first last : Nat) : Location := ⟨"cafe.cs", ⟨line, first⟩, ⟨line, last⟩⟩

def deviceType : TypeDeclaration :=
  ⟨.class, [.abstract], "Device", cafePlace 0 15 21, cafePlace 0 0 25, none, none, [], []⟩

def beverageType : TypeDeclaration :=
  ⟨.interface, [], "IBeverage", cafePlace 1 10 19, cafePlace 1 0 23, none, none, [], []⟩

/-- A class that wraps a beverage and extends some other class before it implements the interface. -/
def wrapperType (line : Nat) (name extended : String) : TypeDeclaration :=
  ⟨.class, [], name, cafePlace line 6 10, cafePlace line 0 90, none, none,
    [.simple extended, .simple "IBeverage"],
    [.field ⟨[.privateAccess], .simple "IBeverage", [⟨"inner", none⟩], cafePlace line 30 50⟩,
      .constructor ⟨[.publicAccess], name, [⟨"inner", some (.simple "IBeverage")⟩], none,
        cafePlace line 52 88⟩]⟩

/-- Two wrappers, one of a class that is not declared and one of an abstract class. -/
def cafe : Compilation :=
  .ofTrees [⟨"cafe.cs", 0, 0, [], [deviceType, beverageType, wrapperType 2 "Mint" "Leaf",
    wrapperType 3 "Milk" "Device"]⟩] true

theorem wrapperType_wraps (line : Nat) (name extended : String) :
    KeepsPrivately (wrapperType line name extended) "IBeverage" ∧
      TakesFirst (wrapperType line name extended) "IBeverage" := by
  constructor
  · exact ⟨_, List.mem_singleton.mpr rfl, rfl, rfl⟩
  · exact ⟨_, List.mem_singleton.mpr rfl, rfl, _, rfl, _, rfl, rfl⟩

/-- A base that no abstraction stands behind is passed over. -/
theorem verdict_matched_iff_first_cafe :
    verdict (wrapperType 2 "Mint" "Leaf") cafe =
      .found (cafePlace 2 6 10) (some "IBeverage") := by
  obtain ⟨-, hfound⟩ := verdict_matched_iff_first cafe (wrapperType 2 "Mint" "Leaf") rfl
  have hreference : IsReference cafe (wrapperType 2 "Mint" "Leaf") "IBeverage" :=
    ⟨["Leaf"], [], rfl, by decide, by decide⟩
  exact (hfound "IBeverage").mpr ⟨hreference, wrapperType_wraps _ _ _⟩

/-- A class that wraps its second base is no decorator when the first is an abstraction too. -/
theorem second_component_not_tried :
    (wrapperType 3 "Milk" "Device").isClassLike = true ∧
      (∃ base ∈ (wrapperType 3 "Milk" "Device").baseIdentifiers,
        NamesComponent cafe (wrapperType 3 "Milk" "Device") base ∧
          KeepsPrivately (wrapperType 3 "Milk" "Device") base ∧
          TakesFirst (wrapperType 3 "Milk" "Device") base) ∧
      (verdict (wrapperType 3 "Milk" "Device") cafe).matched = false := by
  refine ⟨rfl, ⟨"IBeverage", by decide, by decide, wrapperType_wraps _ _ _⟩, ?_⟩
  simp only [verdict, Context.discover, hasAbstractClass, Compilation.typesNamed_eq,
    Compilation.typesWithBase_eq]
  decide

end Cafe

end Decorator

end PatternFinder
