import Mathlib.Data.List.Forall2
import Mathlib.Data.String.Basic
import PatternFinder.Proofs.Separation

/-! The order of declarations does not decide verdicts. Files, the types in a file and the members
of a type can be put into any order: searches stop at other declarations then, but find something
exactly when they did. -/
namespace PatternFinder

/-- One list, put into some order, corresponds to the other entry by entry. -/
def Rearranged {α : Type} (R : α → α → Prop) (as bs : List α) : Prop :=
  ∃ mid, as.Perm mid ∧ List.Forall₂ R mid bs

/-- The same type with its members in some order. -/
def TypeDeclaration.Reordered (t t' : TypeDeclaration) : Prop :=
  ∃ members, t.members.Perm members ∧ t' = { t with members }

/-- The same file with its types, and the members of each, in some order. -/
def SourceTree.Reordered (s s' : SourceTree) : Prop :=
  ∃ types, Rearranged TypeDeclaration.Reordered s.types types ∧ s' = { s with types }

/-- The same file with the members of each type in some order. -/
def SourceTree.MembersReordered (s s' : SourceTree) : Prop :=
  ∃ types, List.Forall₂ TypeDeclaration.Reordered s.types types ∧ s' = { s with types }

namespace Rearranged

variable {α β : Type} {R : α → α → Prop} {as bs : List α}

theorem exists_iff (h : Rearranged R as bs) {p q : α → Prop}
    (hpq : ∀ a b, R a b → (p a ↔ q b)) : (∃ a ∈ as, p a) ↔ ∃ b ∈ bs, q b := by
  obtain ⟨mid, hperm, hall⟩ := h
  have hmid : (∃ a ∈ as, p a) ↔ ∃ a ∈ mid, p a :=
    exists_congr fun a => and_congr_left' hperm.mem_iff
  rw [hmid]
  clear hperm hmid
  induction hall with
  | nil => simp
  | cons hab _ ih =>
    rw [List.exists_mem_cons_iff, List.exists_mem_cons_iff]
    exact or_congr (hpq _ _ hab) ih

theorem any_eq (h : Rearranged R as bs) {p q : α → Bool} (hpq : ∀ a b, R a b → p a = q b) :
    as.any p = bs.any q := by
  rw [List.any_eq, List.any_eq, decide_eq_decide]
  exact h.exists_iff fun a b hab => by rw [hpq a b hab]

theorem exists_of_mem (h : Rearranged R as bs) {a : α} (ha : a ∈ as) : ∃ b ∈ bs, R a b := by
  obtain ⟨mid, hperm, hall⟩ := h
  have ha : a ∈ mid := hperm.mem_iff.mp ha
  clear hperm
  induction hall with
  | nil => cases ha
  | @cons x y xs ys hxy _ ih =>
    rcases List.mem_cons.mp ha with rfl | ha
    · exact ⟨y, List.mem_cons_self, hxy⟩
    · obtain ⟨b, hb, hab⟩ := ih ha
      exact ⟨b, List.mem_cons_of_mem _ hb, hab⟩

theorem append (h : Rearranged R as bs) {as' bs' : List α} (h' : Rearranged R as' bs') :
    Rearranged R (as ++ as') (bs ++ bs') := by
  obtain ⟨mid, hperm, hall⟩ := h
  obtain ⟨mid', hperm', hall'⟩ := h'
  exact ⟨mid ++ mid', hperm.append hperm', List.rel_append hall hall'⟩

theorem flatMap {S : β → β → Prop} {xs ys : List β} {f : β → List α} (h : Rearranged S xs ys)
    (hf : ∀ x y, S x y → Rearranged R (f x) (f y)) :
    Rearranged R (xs.flatMap f) (ys.flatMap f) := by
  obtain ⟨mid, hperm, hall⟩ := h
  have hmid : Rearranged R (mid.flatMap f) (ys.flatMap f) := by
    clear hperm
    induction hall with
    | nil => exact ⟨[], .nil, .nil⟩
    | cons hxy _ ih => exact (hf _ _ hxy).append ih
  obtain ⟨mid', hperm', hall'⟩ := hmid
  exact ⟨mid', (hperm.flatMap_right f).trans hperm', hall'⟩

/-- What is the same for corresponding entries is listed in some other order. -/
theorem map_perm (h : Rearranged R as bs) {f : α → β} (hf : ∀ a b, R a b → f a = f b) :
    (as.map f).Perm (bs.map f) := by
  obtain ⟨mid, hperm, hall⟩ := h
  have hmap : mid.map f = bs.map f := by
    clear hperm
    induction hall with
    | nil => rfl
    | cons hab _ ih => rw [List.map_cons, List.map_cons, hf _ _ hab, ih]
  rw [← hmap]
  exact hperm.map f

end Rearranged

theorem typesOf_rearranged {trees trees' : List SourceTree}
    (h : Rearranged SourceTree.Reordered trees trees') :
    Rearranged TypeDeclaration.Reordered (typesOf trees) (typesOf trees') := by
  refine h.flatMap ?_
  rintro s _ ⟨types, htypes, rfl⟩
  exact htypes

section Verdicts

variable {c c' : Compilation} {t t' : TypeDeclaration}

theorem any_typesNamed (h : Rearranged TypeDeclaration.Reordered c.types c'.types)
    {p q : TypeDeclaration → Bool} (hpq : ∀ t t', t.Reordered t' → p t = q t') (name : String) :
    (c.typesNamed name).any p = (c'.typesNamed name).any q := by
  rw [Compilation.typesNamed_eq, Compilation.typesNamed_eq, List.any_filter, List.any_filter]
  refine h.any_eq fun t t' ht => ?_
  rw [hpq t t' ht]
  obtain ⟨members, -, rfl⟩ := ht
  rfl

theorem any_typesWithBase (h : Rearranged TypeDeclaration.Reordered c.types c'.types)
    {p q : TypeDeclaration → Bool} (hpq : ∀ t t', t.Reordered t' → p t = q t') (name : String) :
    (c.typesWithBase name).any p = (c'.typesWithBase name).any q := by
  rw [Compilation.typesWithBase_eq, Compilation.typesWithBase_eq, List.any_flatMap,
    List.any_flatMap]
  refine h.any_eq fun t t' ht => ?_
  rw [List.any_replicate, List.any_replicate, hpq t t' ht]
  obtain ⟨members, -, rfl⟩ := ht
  rfl

theorem any_methods (h : Rearranged TypeDeclaration.Reordered c.types c'.types)
    (p : MethodDeclaration → Bool) : c.methods.any p = c'.methods.any p := by
  unfold Compilation.methods
  rw [List.any_flatMap, List.any_flatMap]
  refine h.any_eq ?_
  rintro t _ ⟨members, hperm, rfl⟩
  exact (hperm.filterMap Member.method?).any_eq

namespace Singleton

theorem hasPrivateConstructor_reordered (ht : t.Reordered t') :
    hasPrivateConstructor t = hasPrivateConstructor t' := by
  obtain ⟨members, hperm, rfl⟩ := ht
  unfold hasPrivateConstructor TypeDeclaration.constructors
  rw [(hperm.filterMap Member.constructor?).any_eq]

theorem verdict_hasPrivateStaticSelfField (t : TypeDeclaration) :
    (hasPrivateStaticSelfField t).verdict =
      if t.fields.any (fun f => f.modifiers.isPrivate && f.modifiers.isStatic &&
        f.declaredType.hasIdentifier t.identifier) then .found else .notFound := by
  unfold hasPrivateStaticSelfField
  rw [← List.isSome_find?]
  generalize List.find? _ t.fields = search
  cases search <;> rfl

theorem hasPrivateStaticSelfField_reordered (ht : t.Reordered t') :
    (hasPrivateStaticSelfField t).verdict = (hasPrivateStaticSelfField t').verdict := by
  obtain ⟨members, hperm, rfl⟩ := ht
  have hfields : t.fields.Perm (members.filterMap Member.field?) := hperm.filterMap _
  rw [verdict_hasPrivateStaticSelfField, verdict_hasPrivateStaticSelfField, hfields.any_eq]
  rfl

theorem verdict_hasGetInstanceSelfMethod (t : TypeDeclaration) :
    (hasGetInstanceSelfMethod t).verdict =
      if t.methods.any (fun m => m.modifiers.isPublic && m.modifiers.isStatic &&
        m.returnType.hasIdentifier t.identifier) then .found else .notFound := by
  unfold hasGetInstanceSelfMethod
  rw [← List.isSome_find?]
  generalize List.find? _ t.methods = search
  cases search <;> rfl

theorem hasGetInstanceSelfMethod_reordered (ht : t.Reordered t') :
    (hasGetInstanceSelfMethod t).verdict = (hasGetInstanceSelfMethod t').verdict := by
  obtain ⟨members, hperm, rfl⟩ := ht
  have hmethods : t.methods.Perm (members.filterMap Member.method?) := hperm.filterMap _
  rw [verdict_hasGetInstanceSelfMethod, verdict_hasGetInstanceSelfMethod, hmethods.any_eq]
  rfl

theorem verdict_reordered (ht : t.Reordered t') : verdict t = verdict t' := by
  unfold verdict Outcome.matched
  rw [hasPrivateConstructor_reordered ht, hasPrivateStaticSelfField_reordered ht,
    hasGetInstanceSelfMethod_reordered ht]
  obtain ⟨members, -, rfl⟩ := ht
  rfl

end Singleton

namespace FactoryMethod

theorem verdict_isProductInterface (t : TypeDeclaration) (c : Compilation) :
    (isProductInterface t c).verdict =
      if t.isInterface && c.methods.any (fun m => m.returnType.identifier? == some t.identifier &&
        (isAbstractFactoryMethod m).matched) then .found else .notFound := by
  unfold isProductInterface
  cases t.isInterface with
  | false => rfl
  | true =>
    rw [← List.any_filter, ← Compilation.methodsReturning_eq, ← List.isSome_find?]
    generalize List.find? _ (c.methodsReturning t.identifier) = search
    cases search <;> rfl

theorem isProductInterface_reordered (h : Rearranged TypeDeclaration.Reordered c.types c'.types)
    (ht : t.Reordered t') :
    (isProductInterface t c).verdict = (isProductInterface t' c').verdict := by
  obtain ⟨members, -, rfl⟩ := ht
  rw [verdict_isProductInterface, verdict_isProductInterface, any_methods h]
  rfl

theorem isConcreteProduct_reordered (h : Rearranged TypeDeclaration.Reordered c.types c'.types)
    (ht : t.Reordered t') : isConcreteProduct t c = isConcreteProduct t' c' := by
  have hany : ∀ base, (c.typesNamed base).any (isProductInterface · c |>.matched) =
      (c'.typesNamed base).any (isProductInterface · c' |>.matched) := by
    refine any_typesNamed h fun s s' hs => ?_
    unfold Outcome.matched
    rw [isProductInterface_reordered h hs]
  obtain ⟨members, -, rfl⟩ := ht
  unfold isConcreteProduct
  simp only [hany]
  rfl

theorem declarationWithFactoryMethod_reordered
    (h : Rearranged TypeDeclaration.Reordered c.types c'.types) (l : LocalDeclaration) :
    declarationWithFactoryMethod l c = declarationWithFactoryMethod l c' := by
  have hcall : factoryCall? c = factoryCall? c' := by
    funext e
    unfold factoryCall?
    simp only [Compilation.methodsNamed_eq, List.any_filter, any_methods h]
  unfold declarationWithFactoryMethod
  rw [hcall]

end FactoryMethod

namespace Decorator

theorem hasAbstractClass_reordered (h : Rearranged TypeDeclaration.Reordered c.types c'.types)
    (ht : t.Reordered t') : hasAbstractClass t c = hasAbstractClass t' c' := by
  have hother : ∀ s s', s.Reordered s' → isOtherAbstraction t s = isOtherAbstraction t' s' := by
    obtain ⟨members, -, rfl⟩ := ht
    rintro s _ ⟨members', -, rfl⟩
    rfl
  have hnamed := any_typesNamed h hother
  have hextended := any_typesWithBase h hother
  obtain ⟨members, -, rfl⟩ := ht
  unfold hasAbstractClass
  simp only [hnamed, hextended]
  rfl

theorem discover_reordered (h : Rearranged TypeDeclaration.Reordered c.types c'.types)
    (ht : t.Reordered t') : Context.discover t c = Context.discover t' c' := by
  unfold Context.discover
  rw [hasAbstractClass_reordered h ht]

theorem verdict_hasPrivateField (t : TypeDeclaration) (context : Context) :
    (hasPrivateField t context).verdict =
      if context.referenceType.any (fun reference => t.fields.any fun f =>
        f.modifiers.isPrivate && f.declaredType.hasIdentifier reference) then .found
      else .notFound := by
  unfold hasPrivateField
  cases context.referenceType with
  | none => rfl
  | some reference =>
    simp only [Option.any_some, ← List.isSome_find?]
    generalize List.find? _ t.fields = search
    cases search <;> rfl

theorem hasPrivateField_reordered (ht : t.Reordered t') (context : Context) :
    (hasPrivateField t context).verdict = (hasPrivateField t' context).verdict := by
  obtain ⟨members, hperm, rfl⟩ := ht
  have hfields : t.fields.Perm (members.filterMap Member.field?) := hperm.filterMap _
  simp only [verdict_hasPrivateField, hfields.any_eq]
  rfl

theorem verdict_hasConstructor (t : TypeDeclaration) (context : Context) :
    (hasConstructor t context).verdict =
      if context.referenceType.any (fun reference => t.constructors.any (takesFirst reference))
      then .found else .notFound := by
  unfold hasConstructor
  cases context.referenceType with
  | none => rfl
  | some reference =>
    simp only [Option.any_some, ← List.isSome_find?]
    generalize List.find? _ t.constructors = search
    cases search <;> rfl

theorem hasConstructor_reordered (ht : t.Reordered t') (context : Context) :
    (hasConstructor t context).verdict = (hasConstructor t' context).verdict := by
  obtain ⟨members, hperm, rfl⟩ := ht
  have hconstructors : t.constructors.Perm (members.filterMap Member.constructor?) :=
    hperm.filterMap _
  simp only [verdict_hasConstructor, hconstructors.any_eq]
  rfl

theorem verdict_reordered (h : Rearranged TypeDeclaration.Reordered c.types c'.types)
    (ht : t.Reordered t') : verdict t c = verdict t' c' := by
  simp only [verdict, Outcome.matched, discover_reordered h ht, hasPrivateField_reordered ht,
    hasConstructor_reordered ht]
  obtain ⟨members, -, rfl⟩ := ht
  rfl

end Decorator

end Verdicts

/-- A sorted list does not depend on the order that its elements arrive in. -/
theorem mergeSort_eq_of_perm_of_antisymm {α : Type} (le : α → α → Bool)
    (htrans : ∀ a b c, le a b = true → le b c = true → le a c = true)
    (htotal : ∀ a b, (le a b || le b a) = true)
    (hantisymm : ∀ a b, le a b = true → le b a = true → a = b) {l l' : List α} (h : l.Perm l') :
    l.mergeSort le = l'.mergeSort le := by
  have hperm : (l.mergeSort le).Perm (l'.mergeSort le) :=
    ((List.mergeSort_perm l le).trans h).trans (List.mergeSort_perm l' le).symm
  exact List.Perm.eq_of_pairwise (fun a b _ _ => hantisymm a b)
    (List.pairwise_mergeSort htrans htotal l) (List.pairwise_mergeSort htrans htotal l') hperm

theorem nodup_eraseDups {α : Type} [BEq α] [LawfulBEq α] (l : List α) : l.eraseDups.Nodup := by
  induction hlength : l.length using Nat.strongRecOn generalizing l with
  | ind size ih =>
    cases l with
    | nil => exact List.nodup_nil
    | cons a l =>
      rw [List.eraseDups_cons, List.nodup_cons]
      constructor
      · simp [List.mem_eraseDups]
      · refine ih _ ?_ _ rfl
        rw [← hlength, List.length_cons]
        exact Nat.lt_succ_of_le (List.length_filter_le _ _)

namespace Semantics

variable {types types' : List TypeDeclaration}

theorem sortedSet_eq_of_mem_iff {xs ys : List String} (h : ∀ x, x ∈ xs ↔ x ∈ ys) :
    sortedSet xs = sortedSet ys := by
  have hperm : xs.eraseDups.Perm ys.eraseDups := by
    rw [List.perm_ext_iff_of_nodup (nodup_eraseDups xs) (nodup_eraseDups ys)]
    intro x
    rw [List.mem_eraseDups, List.mem_eraseDups, h x]
  refine mergeSort_eq_of_perm_of_antisymm _ ?_ ?_ ?_ hperm
  · intro a b c hab hbc
    simp only [decide_eq_true_eq] at hab hbc ⊢
    exact String.le_trans hab hbc
  · intro a b
    simpa using String.le_total a b
  · intro a b hab hba
    simp only [decide_eq_true_eq] at hab hba
    exact String.le_antisymm hab hba

theorem isSome_bases?_ofTypes (types : List TypeDeclaration) (name : String) :
    ((ofTypes types).bases? name).isSome = types.any (·.identifier == name) := by
  have hempty : (types.filter (·.identifier == name)).isEmpty =
      !types.any (·.identifier == name) := by
    rw [Bool.eq_iff_iff]
    simp [List.filter_eq_nil_iff]
  rw [bases?_ofTypes, hempty]
  cases types.any (·.identifier == name) <;> rfl

private theorem mem_baseList_reordered (h : Rearranged TypeDeclaration.Reordered types types')
    {name : String} {base : TypeRef} :
    base ∈ (ofTypes types).baseList name ↔ base ∈ (ofTypes types').baseList name := by
  simp only [baseList_ofTypes, List.mem_flatMap, List.mem_filter, and_assoc]
  refine h.exists_iff ?_
  rintro t _ ⟨members, -, rfl⟩
  rfl

private theorem mem_parents_reordered (h : Rearranged TypeDeclaration.Reordered types types')
    {name p : String} : p ∈ (ofTypes types).parents name ↔ p ∈ (ofTypes types').parents name := by
  simp only [parents, List.mem_filterMap, mem_baseList_reordered h]

theorem mem_supertypes_reordered (h : Rearranged TypeDeclaration.Reordered types types')
    (name x : String) :
    x ∈ (ofTypes types).supertypesFrom [] [name] ↔
      x ∈ (ofTypes types').supertypesFrom [] [name] := by
  -- the search runs in another order, so the two are compared through what can be reached
  simp only [mem_supertypes_iff, Reaches, direct_eq, List.mem_append, mem_parents_reordered h]

private theorem resolves_reordered (h : Rearranged TypeDeclaration.Reordered types types')
    (name : String) : (ofTypes types).resolves name = (ofTypes types').resolves name := by
  have hdeclared : types.any (·.identifier == name) = types'.any (·.identifier == name) := by
    refine h.any_eq ?_
    rintro t _ ⟨members, -, rfl⟩
    rfl
  unfold resolves
  rw [isSome_bases?_ofTypes, isSome_bases?_ofTypes, hdeclared]

theorem interfaces_reordered (h : Rearranged TypeDeclaration.Reordered types types')
    (ty : TypeRef) : (ofTypes types).interfaces ty = (ofTypes types').interfaces ty := by
  refine interfaces_congr fun name _ => ⟨resolves_reordered h name, ?_⟩
  exact sortedSet_eq_of_mem_iff (mem_supertypes_reordered h name)

theorem isCollection_reordered (h : Rearranged TypeDeclaration.Reordered types types')
    (ty : TypeRef) : (ofTypes types).isCollection ty = (ofTypes types').isCollection ty := by
  unfold isCollection
  rw [interfaces_reordered h]

/-- With the types in their places, the order of their members is not even seen. -/
theorem ofTypes_eq_of_members (h : List.Forall₂ TypeDeclaration.Reordered types types') :
    ofTypes types = ofTypes types' := by
  unfold ofTypes
  congr 1
  induction h with
  | nil => rfl
  | @cons t _ _ _ ht _ ih =>
    obtain ⟨members, -, rfl⟩ := ht
    rw [List.foldr_cons, List.foldr_cons, ih]

end Semantics

namespace Compilation

theorem fileLe_iff {a b : String × UInt64} :
    fileLe a b = true ↔ a.1 < b.1 ∨ a.1 = b.1 ∧ a.2 ≤ b.2 := by
  simp [fileLe]

theorem fileLe_trans {a b c : String × UInt64} (hab : fileLe a b = true)
    (hbc : fileLe b c = true) : fileLe a c = true := by
  rw [fileLe_iff] at hab hbc ⊢
  rcases hab with hlt | ⟨heq, hle⟩ <;> rcases hbc with hlt' | ⟨heq', hle'⟩
  · exact .inl (hlt.trans hlt')
  · exact .inl (heq' ▸ hlt)
  · exact .inl (heq ▸ hlt')
  · exact .inr ⟨heq.trans heq', UInt64.le_trans hle hle'⟩

theorem fileLe_total (a b : String × UInt64) : (fileLe a b || fileLe b a) = true := by
  rw [Bool.or_eq_true, fileLe_iff, fileLe_iff]
  rcases lt_trichotomy a.1 b.1 with hlt | heq | hgt
  · exact .inl (.inl hlt)
  · rcases UInt64.le_total a.2 b.2 with hle | hle
    · exact .inl (.inr ⟨heq, hle⟩)
    · exact .inr (.inr ⟨heq.symm, hle⟩)
  · exact .inr (.inl hgt)

theorem fileLe_antisymm {a b : String × UInt64} (hab : fileLe a b = true)
    (hba : fileLe b a = true) : a = b := by
  rw [fileLe_iff] at hab hba
  rcases hab with hlt | ⟨heq, hle⟩ <;> rcases hba with hlt' | ⟨heq', hle'⟩
  · exact absurd hlt' hlt.asymm
  · exact absurd (heq' ▸ hlt) (lt_irrefl _)
  · exact absurd (heq ▸ hlt') (lt_irrefl _)
  · exact Prod.ext heq (UInt64.le_antisymm hle hle')

theorem fingerprint_reordered {c c' : Compilation}
    (h : Rearranged SourceTree.Reordered c.trees c'.trees) : c.fingerprint = c'.fingerprint := by
  have hfiles : (c.trees.map fun t => (t.path, t.contentHash)).Perm
      (c'.trees.map fun t => (t.path, t.contentHash)) := by
    refine h.map_perm ?_
    rintro s _ ⟨types, -, rfl⟩
    rfl
  have hbytes : c.fingerprintBytes = c'.fingerprintBytes := by
    unfold fingerprintBytes
    rw [mergeSort_eq_of_perm_of_antisymm fileLe (fun _ _ _ => fileLe_trans) fileLe_total
      (fun _ _ => fileLe_antisymm) hfiles]
  unfold fingerprint
  rw [hbytes]

theorem semantics_eq_of_members {trees trees' : List SourceTree}
    (h : List.Forall₂ SourceTree.MembersReordered trees trees') (semantic : Bool) :
    (ofTrees trees semantic).semantics = (ofTrees trees' semantic).semantics := by
  have htypes : List.Forall₂ TypeDeclaration.Reordered (typesOf trees) (typesOf trees') := by
    refine List.rel_flatMap h ?_
    rintro s _ ⟨types, htypes, rfl⟩
    exact htypes
  have hmodels : Semantics.ofTrees trees = Semantics.ofTrees trees' :=
    Semantics.ofTypes_eq_of_members htypes
  simp only [ofTrees, hmodels]

end Compilation

namespace Flyweight

variable {c c' : Compilation} {t t' : TypeDeclaration}

theorem hasCollection_of_semantics (h : c.semantics = c'.semantics) (f : FieldDeclaration) :
    hasCollection f c = hasCollection f c' := by
  unfold hasCollection
  rw [h]

/-- A method looks only at which element types there are, and whether a field is unresolved. -/
theorem hasGetMethod_congr {context context' : Context}
    (htracks : ∀ name, context.tracks name = context'.tracks name)
    (hunresolved : context.unresolved = context'.unresolved) (m : MethodDeclaration) :
    hasGetMethod m context = hasGetMethod m context' := by
  unfold hasGetMethod
  simp only [htracks, hunresolved]

theorem hasGetMethod_reordered (h : c.semantics = c'.semantics) (ht : t.Reordered t')
    (m : MethodDeclaration) :
    hasGetMethod m (.collect t c) = hasGetMethod m (.collect t' c') := by
  have houtcomes : (t.fields.map (hasCollection · c)).Perm
      (t'.fields.map (hasCollection · c')) := by
    obtain ⟨members, hperm, rfl⟩ := ht
    simp only [hasCollection_of_semantics h]
    exact (hperm.filterMap Member.field?).map _
  refine hasGetMethod_congr (fun name => ?_) ?_ m
  · unfold Context.tracks
    rw [Bool.eq_iff_iff]
    simp only [Context.collect, List.contains_iff_mem, List.mem_eraseDups]
    exact ((houtcomes.filter _).filterMap _).mem_iff
  · exact (houtcomes.filter _).length_eq

end Flyweight

/-- A declaration and what it becomes when declarations are put into another order. -/
inductive Site.Reordered : Site → Site → Prop
  | type {t t' : TypeDeclaration} (ht : t.Reordered t') : Reordered (.type t) (.type t')
  | same (s : Site) : Reordered s s

/-- The verdicts of the checks that do not ask what the fields of a type hold. -/
def structuralVerdicts (c : Compilation) (site : Site) (owner : Option TypeDeclaration) :
    List (String × Verdict) :=
  ((checksAt c site owner).filter (·.pattern != .flyweight)).map fun check =>
    (check.name, (check.evaluate c).verdict)

theorem TypeDeclaration.Reordered.refl (t : TypeDeclaration) : t.Reordered t :=
  ⟨t.members, .refl _, rfl⟩

theorem Declared.exists_reordered {c c' : Compilation}
    (h : Rearranged TypeDeclaration.Reordered c.types c'.types) {site : Site}
    {owner : Option TypeDeclaration} (hd : Declared c site owner) :
    ∃ site' owner', Declared c' site' owner' ∧ site.Reordered site' ∧
      Option.Rel TypeDeclaration.Reordered owner owner' := by
  cases hd with
  | type ht =>
    obtain ⟨t', ht', hreordered⟩ := h.exists_of_mem ht
    exact ⟨.type t', none, .type ht', .type hreordered, .none⟩
  | member ht hm =>
    obtain ⟨t', ht', hreordered⟩ := h.exists_of_mem ht
    obtain ⟨members, hperm, rfl⟩ := id hreordered
    exact ⟨_, _, .member ht' (hperm.mem_iff.mp hm), .same _, .some hreordered⟩
  | «local» ht hm hb hl =>
    obtain ⟨t', ht', hreordered⟩ := h.exists_of_mem ht
    obtain ⟨members, hperm, rfl⟩ := id hreordered
    exact ⟨_, _, .local ht' (hperm.mem_iff.mp hm) hb hl, .same _, .some hreordered⟩

theorem structuralVerdicts_type {c c' : Compilation} {t t' : TypeDeclaration}
    (h : Rearranged TypeDeclaration.Reordered c.types c'.types) (ht : t.Reordered t')
    (owner owner' : Option TypeDeclaration) :
    structuralVerdicts c (.type t) owner = structuralVerdicts c' (.type t') owner' := by
  have hlist : ∀ (c : Compilation) (t : TypeDeclaration) (owner : Option TypeDeclaration),
      structuralVerdicts c (.type t) owner =
        [("HasPrivateConstructor", (Singleton.hasPrivateConstructor t).verdict),
          ("HasPrivateStaticSelfField", (Singleton.hasPrivateStaticSelfField t).verdict),
          ("HasGetInstanceSelfMethod", (Singleton.hasGetInstanceSelfMethod t).verdict),
          ("IsProductInterface", (FactoryMethod.isProductInterface t c).verdict),
          ("IsConcreteProduct", (FactoryMethod.isConcreteProduct t c).verdict),
          ("HasAbstractClass", (Decorator.hasAbstractClass t c).verdict),
          ("HasPrivateStaticField", (Decorator.hasPrivateField t (.discover t c)).verdict),
          ("HasConstructor", (Decorator.hasConstructor t (.discover t c)).verdict)] :=
    fun _ _ _ => rfl
  rw [hlist, hlist, Singleton.hasPrivateConstructor_reordered ht,
    Singleton.hasPrivateStaticSelfField_reordered ht,
    Singleton.hasGetInstanceSelfMethod_reordered ht,
    FactoryMethod.isProductInterface_reordered h ht, FactoryMethod.isConcreteProduct_reordered h ht,
    Decorator.hasAbstractClass_reordered h ht, Decorator.discover_reordered h ht,
    Decorator.hasPrivateField_reordered ht, Decorator.hasConstructor_reordered ht]

theorem structuralVerdicts_reordered {c c' : Compilation} {site site' : Site}
    (h : Rearranged TypeDeclaration.Reordered c.types c'.types) (hs : site.Reordered site')
    (owner owner' : Option TypeDeclaration) :
    structuralVerdicts c site owner = structuralVerdicts c' site' owner' := by
  cases hs with
  | type ht => exact structuralVerdicts_type h ht owner owner'
  | same =>
    cases site with
    | type t => exact structuralVerdicts_type h (.refl t) owner owner'
    | method m => cases owner <;> cases owner' <;> rfl
    | «local» l =>
      show [(_, (FactoryMethod.declarationWithFactoryMethod l c).verdict), _] =
        [(_, (FactoryMethod.declarationWithFactoryMethod l c').verdict), _]
      rw [FactoryMethod.declarationWithFactoryMethod_reordered h]
      rfl
    | field | constructor | property | creation => rfl

private theorem verdictsAt_reordered {c c' : Compilation} {site site' : Site}
    (h : Rearranged TypeDeclaration.Reordered c.types c'.types) (hs : site.Reordered site') :
    verdictsAt c site = verdictsAt c' site' := by
  have htype : ∀ {t t' : TypeDeclaration}, t.Reordered t' →
      verdictsAt c (.type t) = verdictsAt c' (.type t') := by
    intro t t' ht
    simp only [verdictsAt]
    rw [Singleton.verdict_reordered ht, Decorator.verdict_reordered h ht]
  cases hs with
  | type ht => exact htype ht
  | same =>
    cases site with
    | type t => exact htype (.refl t)
    | field | constructor | method | property | «local» | creation => rfl

/-- Put the files, the types of each file and the members of each type into any order. Every
declaration has a counterpart, and all checks of three patterns come to the same verdict about it.
What is said of singletons and decorators, the interfaces of any type, whether it is a collection,
and the fingerprint are the same. If only members change places, pools are found with the same
evidence and handed out by the same methods. -/
theorem verdicts_order_free {trees trees' : List SourceTree}
    (h : Rearranged SourceTree.Reordered trees trees') (semantic : Bool) :
    let c := Compilation.ofTrees trees semantic
    let c' := Compilation.ofTrees trees' semantic
    (∀ site owner, Declared c site owner → ∃ site' owner', Declared c' site' owner' ∧
      site.Reordered site' ∧ Option.Rel TypeDeclaration.Reordered owner owner') ∧
    (∀ site site' owner owner', site.Reordered site' →
      structuralVerdicts c site owner = structuralVerdicts c' site' owner' ∧
        verdictsAt c site = verdictsAt c' site') ∧
    (∀ ty, c.semantics.map (·.interfaces ty) = c'.semantics.map (·.interfaces ty) ∧
      c.semantics.map (·.isCollection ty) = c'.semantics.map (·.isCollection ty)) ∧
    c.fingerprint = c'.fingerprint ∧
    (List.Forall₂ SourceTree.MembersReordered trees trees' →
      (∀ f, Flyweight.hasCollection f c = Flyweight.hasCollection f c') ∧
        ∀ t t', t.Reordered t' → ∀ m, Flyweight.hasGetMethod m (.collect t c) =
          Flyweight.hasGetMethod m (.collect t' c')) := by
  intro c c'
  have htypes : Rearranged TypeDeclaration.Reordered c.types c'.types := typesOf_rearranged h
  refine ⟨fun _ _ => Declared.exists_reordered htypes, ?_, ?_, ?_, ?_⟩
  · intro site site' owner owner' hs
    exact ⟨structuralVerdicts_reordered htypes hs owner owner', verdictsAt_reordered htypes hs⟩
  · intro ty
    cases semantic with
    | false => exact ⟨rfl, rfl⟩
    | true =>
      exact ⟨congrArg some (Semantics.interfaces_reordered htypes ty),
        congrArg some (Semantics.isCollection_reordered htypes ty)⟩
  · exact Compilation.fingerprint_reordered h
  · intro hmembers
    have hsemantics := Compilation.semantics_eq_of_members hmembers semantic
    exact ⟨Flyweight.hasCollection_of_semantics hsemantics,
      fun t t' ht => Flyweight.hasGetMethod_reordered hsemantics ht⟩

/-- A frame with its members turned around. -/
def turnedFrame : TypeDeclaration := { frameType with members := frameType.members.reverse }

/-- A file comes before another one, a class before its interface and a constructor before fields.
The class is the same decorator. -/
theorem verdicts_order_free_frame :
    Rearranged SourceTree.Reordered [soloTree "a.cs", frameTree]
        [{ frameTree with types := [turnedFrame, shapeType] }, soloTree "a.cs"] ∧
      verdictsAt (.ofTrees [soloTree "a.cs", frameTree] true) (.type frameType) =
        verdictsAt (.ofTrees [{ frameTree with types := [turnedFrame, shapeType] },
          soloTree "a.cs"] true) (.type turnedFrame) := by
  have hframe : frameType.Reordered turnedFrame :=
    ⟨_, (List.reverse_perm frameType.members).symm, rfl⟩
  have htypes : Rearranged TypeDeclaration.Reordered frameTree.types [turnedFrame, shapeType] :=
    ⟨[frameType, shapeType], .swap _ _ _, .cons hframe (.cons (.refl _) .nil)⟩
  have hsolo : (soloTree "a.cs").Reordered (soloTree "a.cs") :=
    ⟨_, ⟨_, .refl _, .cons (.refl _) .nil⟩, rfl⟩
  have hrearranged : Rearranged SourceTree.Reordered [soloTree "a.cs", frameTree]
      [{ frameTree with types := [turnedFrame, shapeType] }, soloTree "a.cs"] :=
    ⟨[frameTree, soloTree "a.cs"], .swap _ _ _, .cons ⟨_, htypes, rfl⟩ (.cons hsolo .nil)⟩
  have hverdicts := (verdicts_order_free hrearranged true).2.1
  exact ⟨hrearranged, (hverdicts _ _ none none (.type hframe)).2⟩

end PatternFinder
