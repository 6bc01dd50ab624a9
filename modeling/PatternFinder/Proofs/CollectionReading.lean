import PatternFinder.Proofs.ElementSearch

/-! When a type counts as a collection, and what follows for the element type that is read off its
bases and for a nullable mark on it. -/
namespace PatternFinder

/-- Two answers that are both given, or both missing, agree when one value is answered by both or
by neither. -/
theorem answer_eq_iff {o o' : Option Bool} (h : o.isSome = o'.isSome) (b : Bool) :
    o = o' ↔ (o = some b ↔ o' = some b) := by
  rcases o with _ | _ | _ <;> rcases o' with _ | _ | _ <;> cases b <;> simp at h ⊢

namespace Semantics

variable {trees : List SourceTree} {name : String}

theorem any_interfaces_iff (qualifier : Option String) (arguments : List TypeRef) :
    (∃ supported, (ofTrees trees).interfaces (.named name qualifier arguments) = some supported ∧
      supported.any collectionContracts.contains = true) ↔
      ∃ s ∈ collectionContracts, HasSupertype trees name s := by
  simp only [List.any_eq_true, List.contains_iff_mem]
  constructor
  · rintro ⟨supported, hsupported, s, hs, hcontract⟩
    have hsuper := (exists_interfaces_iff qualifier arguments).mp ⟨supported, hsupported, hs⟩
    exact ⟨s, hcontract, hsuper⟩
  · rintro ⟨s, hcontract, hsuper⟩
    obtain ⟨supported, hsupported, hs⟩ := (exists_interfaces_iff qualifier arguments).mpr hsuper
    exact ⟨supported, hsupported, s, hs, hcontract⟩

/-- The contracts are known without a declaration. -/
theorem resolves_of_contract (h : name ∈ collectionContracts) :
    (ofTrees trees).resolves name = true := by
  have hcatalog : ∀ n ∈ collectionContracts, (catalog? n).isSome = true := by decide
  rw [resolves, hcatalog name h, Bool.true_or]

/-- A named type is a collection when its name is a contract or has one among its supertypes. -/
theorem isCollection_named_iff (qualifier : Option String) (arguments : List TypeRef) :
    (ofTrees trees).isCollection (.named name qualifier arguments) = some true ↔
      name ∈ collectionContracts ∨ ∃ s ∈ collectionContracts, HasSupertype trees name s := by
  have hread : (ofTrees trees).isCollection (.named name qualifier arguments) =
      ((ofTrees trees).interfaces (.named name qualifier arguments)).map fun supported =>
        collectionContracts.contains name || supported.any collectionContracts.contains := rfl
  rw [hread, ← any_interfaces_iff qualifier arguments, Option.map_eq_some_iff]
  simp only [Bool.or_eq_true, List.contains_iff_mem]
  constructor
  · rintro ⟨supported, hsupported, hname | hany⟩
    · exact .inl hname
    · exact .inr ⟨supported, hsupported, hany⟩
  · rintro (hname | ⟨supported, hsupported, hany⟩)
    · rw [interfaces, if_pos (resolves_of_contract hname)]
      exact ⟨_, rfl, .inl hname⟩
    · exact ⟨supported, hsupported, .inr hany⟩

section Bases

variable (trees)

/-- Some declaration of a name has another name in its base list, with type arguments or without. -/
def ListsName (name next : String) : Prop :=
  ∃ entry, ListsEntry trees name entry ∧ entry.identifier? = some next

/-- An entry that can be reached along base lists, tells what it holds and is a collection. -/
structure CollectionBase (name : String) (entry : TypeRef) : Prop where
  reached : ∃ n, Relation.ReflTransGen (ListsName trees) name n ∧ ListsEntry trees n entry
  tells : entry.tellsElement = true
  collection : (ofTrees trees).isCollection entry = some true

end Bases

theorem listsName_of_plainly {next : String} (h : ListsPlainly trees name next) :
    ListsName trees name next := by
  obtain ⟨entry, hentry, hnext⟩ := h
  refine ⟨entry, hentry, ?_⟩
  unfold TypeRef.plainName? at hnext
  split at hnext
  · exact hnext
  · cases hnext

theorem elementType_of_holds {t element : TypeRef} (h : Holds trees t element) :
    (ofTrees trees).elementType t = some element := by
  have hunmarked : Holds trees t.unmarked element := by
    have hsame : t.unmarked = t := by cases h <;> rfl
    rwa [hsame]
  exact elementFrom_of_holds hunmarked

/-- The element type of a plain name is that of the first entry met that tells what it holds, be it
a collection or not. It is that of a collection exactly when this entry is one, or some other
collection among the bases happens to hold the same. -/
theorem element_from_collection_iff (trees : List SourceTree) (name : String)
    (qualifier : Option String) {element : TypeRef}
    (helement : (ofTrees trees).elementType (.named name qualifier []) = some element) :
    (∃ met expanded, BaseWalk trees [] [.named name qualifier []] met expanded) ∧
      ∀ met expanded, BaseWalk trees [] [.named name qualifier []] met expanded →
        ∃ first, met.find? (·.tellsElement) = some first ∧
          (ofTrees trees).elementType first = some element ∧
          ((∃ b, CollectionBase trees name b ∧ (ofTrees trees).elementType b = some element) ↔
            (ofTrees trees).isCollection first = some true ∨
              ∃ other, other ≠ first ∧ CollectionBase trees name other ∧
                (ofTrees trees).elementType other = (ofTrees trees).elementType first) := by
  refine ⟨BaseWalk.exists_of trees [] _, fun met expanded hwalk => ?_⟩
  obtain ⟨first, hfind, hholds⟩ := hwalk.elementType_eq_some_iff.mp helement
  have hfirst := elementType_of_holds hholds
  obtain ⟨hreached, htells⟩ := hwalk.reaches_of_find? hfind
  refine ⟨first, hfind, hfirst, ?_⟩
  constructor
  · rintro ⟨b, hbase, hb⟩
    by_cases heq : b = first
    · subst heq
      exact .inl hbase.collection
    · exact .inr ⟨b, heq, hbase, hb.trans hfirst.symm⟩
  · rintro (hcollection | ⟨other, -, hbase, hsame⟩)
    · obtain ⟨n, hreach, hlisted⟩ := hreached
      have hwide := Relation.ReflTransGen.mono (fun _ _ => listsName_of_plainly) _ _ hreach
      exact ⟨first, ⟨⟨n, hwide, hlisted⟩, htells, hcollection⟩, hfirst⟩
    · exact ⟨other, hbase, hsame.trans hfirst⟩

/-- A name that is not declared holds its last type argument when the catalog says so. -/
theorem holdsLast_iff_of_undeclared (h : ¬ DeclaresType trees name) :
    HoldsLast trees name ↔ name ∈ ["KeyedCollection", "IDictionary", "IReadOnlyDictionary"] ∨
      "IDictionary" ∈ (catalog? name).getD [] := by
  simp only [HoldsLast, hasSupertype_iff_of_undeclared h, List.mem_cons, List.not_mem_nil, or_false,
    or_assoc]

/-- A class that extends a list through another class. -/
def poolTrees : List SourceTree :=
  [⟨"pool.cs", 0, 0, [], [bareClass "CarPool" [.simple "PoolBase"],
    bareClass "PoolBase" [.generic "List" [.simple "Car"]]]⟩]

theorem element_from_collection_iff_pool :
    ∃ b, CollectionBase poolTrees "CarPool" b ∧
      (ofTrees poolTrees).elementType b = some (.simple "Car") := by
  have hbase : BaseWalk poolTrees ["PoolBase", "CarPool"] (baseEntries poolTrees "PoolBase")
      [.generic "List" [.simple "Car"]] ["PoolBase", "CarPool"] := .pass nofun (.done _)
  have hpool : BaseWalk poolTrees ["CarPool"] (baseEntries poolTrees "CarPool") _ _ :=
    .expand rfl (by decide) hbase (.done _)
  have hwalk : BaseWalk poolTrees [] [.named "CarPool" none []] _ _ :=
    .expand rfl (by decide) hpool (.done _)
  have hlast : ¬ HoldsLast poolTrees "List" := by
    rw [holdsLast_iff_of_undeclared (by decide)]
    decide
  have helement := hwalk.elementType_eq_some_iff.mpr ⟨_, rfl, .first none hlast rfl⟩
  have hsuper : HasSupertype poolTrees "List" "IList" := ⟨"List", .refl, .inl (by decide)⟩
  obtain ⟨-, hall⟩ := element_from_collection_iff poolTrees "CarPool" none helement
  obtain ⟨first, hfind, -, hiff⟩ := hall _ _ hwalk
  obtain rfl := Option.some.inj hfind
  exact hiff.mpr (.inl ((isCollection_named_iff none _).mpr (.inr ⟨"IList", by decide, hsuper⟩)))

/-- A class that has a type argument for its component and is a list of something else. -/
def componentTrees : List SourceTree :=
  [⟨"CarPool.cs", 0, 0, [], [bareClass "CarPool" [.generic "Component" [.simple "Engine"],
    .generic "IList" [.simple "Car"]]]⟩]

/-- A pool of cars that is said to hold engines, though no collection among its bases holds them. -/
theorem component_taken_for_element :
    DeclaresType componentTrees "CarPool" ∧
      (ofTrees componentTrees).isCollection (.simple "CarPool") = some true ∧
      (ofTrees componentTrees).elementType (.simple "CarPool") = some (.simple "Engine") ∧
      ¬ ∃ b, CollectionBase componentTrees "CarPool" b ∧
        (ofTrees componentTrees).elementType b = some (.simple "Engine") := by
  have hcomponent : ¬ DeclaresType componentTrees "Component" := by decide
  have hlist : ¬ DeclaresType componentTrees "IList" := by decide
  have hfirst : ¬ HoldsLast componentTrees "Component" := by
    rw [holdsLast_iff_of_undeclared hcomponent]
    decide
  have hcars : Holds componentTrees (.generic "IList" [.simple "Car"]) (.simple "Car") := by
    refine .first none ?_ rfl
    rw [holdsLast_iff_of_undeclared hlist]
    decide
  have hbases : BaseWalk componentTrees ["CarPool"] (baseEntries componentTrees "CarPool")
      [.generic "Component" [.simple "Engine"], .generic "IList" [.simple "Car"]] ["CarPool"] :=
    .pass nofun (.pass nofun (.done _))
  have hwalk : BaseWalk componentTrees [] [.named "CarPool" none []] _ _ :=
    .expand rfl (by decide) hbases (.done _)
  refine ⟨by decide, ?_, ?_, ?_⟩
  · apply (isCollection_named_iff none []).mpr
    exact .inr ⟨"IList", by decide, "CarPool", .refl, .inr (by decide)⟩
  · exact hwalk.elementType_eq_some_iff.mpr ⟨_, rfl, .first none hfirst rfl⟩
  · have hentries : ∀ n b, ListsEntry componentTrees n b →
        b = .generic "Component" [.simple "Engine"] ∨ b = .generic "IList" [.simple "Car"] := by
      rintro n b ⟨tree, htree, t, ht, -, entry, hentry, rfl⟩
      obtain rfl := List.mem_singleton.mp htree
      obtain rfl := List.mem_singleton.mp ht
      rcases List.mem_cons.mp hentry with rfl | hentry
      · exact .inl rfl
      · obtain rfl := List.mem_singleton.mp hentry
        exact .inr rfl
    rintro ⟨b, ⟨⟨n, -, hlisted⟩, -, hcollection⟩, hengine⟩
    rcases hentries n b hlisted with rfl | rfl
    · rcases (isCollection_named_iff none _).mp hcollection with hname | ⟨s, -, hsuper⟩
      · exact absurd hname (by decide)
      · rw [hasSupertype_iff_of_undeclared hcomponent] at hsuper
        cases hsuper
    · have hcar := (elementType_of_holds hcars).symm.trans hengine
      have hsame : "Car" = "Engine" := by injection hcar with hcar; injection hcar
      exact absurd hsame (by decide)

/-- With a mark on it, a named type is a collection by its supertypes alone. -/
theorem isCollection_marked_iff (qualifier : Option String) (arguments : List TypeRef) :
    (ofTrees trees).isCollection (.nullable (.named name qualifier arguments)) = some true ↔
      ∃ s ∈ collectionContracts, HasSupertype trees name s := by
  have hread : (ofTrees trees).isCollection (.nullable (.named name qualifier arguments)) =
      ((ofTrees trees).interfaces (.named name qualifier arguments)).map
        (·.any collectionContracts.contains) := rfl
  rw [hread, ← any_interfaces_iff qualifier arguments, Option.map_eq_some_iff]

/-- Of the contracts, only `ICollection` is not known to support a contract. -/
theorem exists_contract_of_ne (h : name ∈ collectionContracts) (hne : name ≠ "ICollection") :
    ∃ s ∈ collectionContracts, HasSupertype trees name s := by
  have hcatalog : ∀ n ∈ collectionContracts, n ≠ "ICollection" →
      "ICollection" ∈ (catalog? n).getD [] := by decide
  exact ⟨"ICollection", by decide, name, .refl, .inl (hcatalog name h hne)⟩

theorem isSome_isCollection_nullable (m : Semantics) (t : TypeRef) :
    (m.isCollection (.nullable t)).isSome = (m.isCollection t).isSome := by
  rw [isCollection, isCollection, Option.isSome_map, Option.isSome_map]
  rfl

/-- A type that is not `ICollection`, unless some file declares that name with a contract behind
it. -/
def ContractBehind (trees : List SourceTree) (t : TypeRef) : Prop :=
  t.identifier? = some "ICollection" → ∃ s ∈ collectionContracts, HasSupertype trees "ICollection" s

theorem isCollection_nullable_eq_iff (t : TypeRef) :
    (ofTrees trees).isCollection (.nullable t) = (ofTrees trees).isCollection t ↔
      ContractBehind trees t := by
  cases t with
  | predefined | array | nullable | other => exact ⟨fun _ => nofun, fun _ => rfl⟩
  | named name qualifier arguments =>
    have hsome := isSome_isCollection_nullable (ofTrees trees) (.named name qualifier arguments)
    rw [answer_eq_iff hsome true, isCollection_marked_iff, isCollection_named_iff]
    constructor
    · intro hiff hname
      obtain rfl : name = "ICollection" := Option.some.inj hname
      exact hiff.mpr (.inl (by decide))
    · intro hcontract
      refine ⟨.inr, fun h => h.elim (fun hname => ?_) id⟩
      by_cases hcollection : name = "ICollection"
      · subst hcollection
        exact hcontract rfl
      · exact exists_contract_of_ne hname hcollection

/-- The search for the element type looks through a mark. -/
theorem elementType_nullable (m : Semantics) (t : TypeRef) :
    m.elementType (.nullable t) = m.elementType t := by
  rw [elementType, elementType, elementFrom]

end Semantics

/-- The reason without the text of the type that it is about. -/
def UnsupportedReason.withoutDetail : UnsupportedReason → UnsupportedReason
  | .noSemanticModel => .noSemanticModel
  | .unresolvedType _ => .unresolvedType ""
  | .unresolvedElementType _ => .unresolvedElementType ""

def Verdict.withoutDetail : Verdict → Verdict
  | .unsupported reason => .unsupported reason.withoutDetail
  | v => v

/-- All that an outcome says but the text of a type that could not be resolved. -/
def Outcome.withoutDetail (o : Outcome) : Outcome := { o with verdict := o.verdict.withoutDetail }

namespace Flyweight

open Semantics

variable {c : Compilation} {m : Semantics}

/-- What is said of a field is told by what is known of its type. -/
theorem withoutDetail_congr (f : FieldDeclaration) {t t' : TypeRef} (hm : c.semantics = some m)
    (hcollection : m.isCollection t = m.isCollection t')
    (helement : m.elementType t = m.elementType t') :
    (hasCollection { f with declaredType := t } c).withoutDetail =
      (hasCollection { f with declaredType := t' } c).withoutDetail := by
  simp only [hasCollection, hm]
  rw [hcollection, helement]
  cases m.isCollection t' with
  | none => rfl
  | some collection =>
    cases collection with
    | false => rfl
    | true => cases (m.elementType t').bind TypeRef.simpleName? <;> rfl

theorem withoutDetail_hasCollection (f : FieldDeclaration) (hm : c.semantics = some m) :
    (hasCollection f c).withoutDetail = .notFound ↔ m.isCollection f.declaredType = some false := by
  simp only [hasCollection, hm]
  constructor
  · intro hnot
    cases hread : m.isCollection f.declaredType with
    | none =>
      rw [hread] at hnot
      cases hnot
    | some collection =>
      rw [hread] at hnot
      cases collection with
      | false => rfl
      | true =>
        dsimp only at hnot
        cases helement : (m.elementType f.declaredType).bind TypeRef.simpleName? with
        | none =>
          rw [helement] at hnot
          cases hnot
        | some element =>
          rw [helement] at hnot
          cases hnot
  · intro hread
    rw [hread]
    rfl

/-- A nullable mark changes neither the interfaces nor the element type of a type. It changes
whether the type counts as a collection, and with it what is said of a field of the type, exactly
when the type is `ICollection` and nothing but the name makes it a collection. -/
theorem nullable_read_alike_iff (c : Compilation) (hc : c.HasOwnSemantics) (t : TypeRef) :
    (ofTrees c.trees).interfaces (.nullable t) = (ofTrees c.trees).interfaces t ∧
      (ofTrees c.trees).elementType (.nullable t) = (ofTrees c.trees).elementType t ∧
      ((ofTrees c.trees).isCollection (.nullable t) = (ofTrees c.trees).isCollection t ↔
        ContractBehind c.trees t) ∧
      ∀ f : FieldDeclaration,
        (hasCollection { f with declaredType := .nullable t } c).withoutDetail =
            (hasCollection { f with declaredType := t } c).withoutDetail ↔
          c.semantics = none ∨ ContractBehind c.trees t := by
  have helement := elementType_nullable (ofTrees c.trees) t
  refine ⟨rfl, helement, isCollection_nullable_eq_iff t, fun f => ?_⟩
  cases hm : c.semantics with
  | none =>
    have hequal : (hasCollection { f with declaredType := .nullable t } c).withoutDetail =
        (hasCollection { f with declaredType := t } c).withoutDetail := by
      simp only [hasCollection, hm]
    exact ⟨fun _ => .inl rfl, fun _ => hequal⟩
  | some m =>
    obtain rfl := hc m hm
    rw [← isCollection_nullable_eq_iff]
    constructor
    · intro hequal
      have hsome := isSome_isCollection_nullable (ofTrees c.trees) t
      rw [answer_eq_iff hsome false,
        ← withoutDetail_hasCollection { f with declaredType := .nullable t } hm, hequal,
        withoutDetail_hasCollection { f with declaredType := t } hm]
      exact .inr Iff.rfl
    · rintro (hnone | hcollection)
      · cases hnone
      · exact withoutDetail_congr f hm hcollection helement

theorem not_contractBehind_nil (arguments : List TypeRef) :
    ¬ ContractBehind [] (.generic "ICollection" arguments) := by
  intro hbehind
  obtain ⟨s, hcontract, hsuper⟩ := hbehind rfl
  have hcatalog := (hasSupertype_iff_of_undeclared (by decide)).mp hsuper
  have hapart : ∀ s ∈ collectionContracts, s ∉ (catalog? "ICollection").getD [] := by decide
  exact hapart s hcontract hcatalog

/-- The mark is of no account on a list, but it is on a collection. -/
theorem nullable_read_alike_iff_list :
    (Compilation.ofTrees [] true).HasOwnSemantics ∧ ∀ f : FieldDeclaration,
      (hasCollection { f with declaredType := .nullable (.generic "IList" [.simple "Car"]) }
          (.ofTrees [] true)).withoutDetail =
        (hasCollection { f with declaredType := .generic "IList" [.simple "Car"] }
          (.ofTrees [] true)).withoutDetail ∧
      (hasCollection { f with declaredType := .nullable (.generic "ICollection" [.simple "Car"]) }
          (.ofTrees [] true)).withoutDetail ≠
        (hasCollection { f with declaredType := .generic "ICollection" [.simple "Car"] }
          (.ofTrees [] true)).withoutDetail := by
  have hown := Compilation.hasOwnSemantics_ofTrees [] true
  obtain ⟨-, -, -, hlist⟩ := nullable_read_alike_iff _ hown (.generic "IList" [.simple "Car"])
  obtain ⟨-, -, -, hcollection⟩ :=
    nullable_read_alike_iff _ hown (.generic "ICollection" [.simple "Car"])
  refine ⟨hown, fun f => ⟨(hlist f).mpr (.inr nofun), fun hequal => ?_⟩⟩
  rcases (hcollection f).mp hequal with hnone | hbehind
  · cases hnone
  · exact not_contractBehind_nil _ hbehind

/-- A collection contract is no collection when it has a mark. -/
theorem marked_contract_not_collection :
    (ofTrees []).isCollection (.generic "ICollection" [.simple "Car"]) = some true ∧
      (ofTrees []).isCollection (.nullable (.generic "ICollection" [.simple "Car"])) =
        some false := by
  have hplain : (ofTrees []).isCollection (.generic "ICollection" [.simple "Car"]) = some true :=
    (isCollection_named_iff none [.simple "Car"]).mpr (.inl (by decide))
  have hdiffer := (isCollection_nullable_eq_iff _).not.mpr (not_contractBehind_nil [.simple "Car"])
  have hsome := isSome_isCollection_nullable (ofTrees []) (.generic "ICollection" [.simple "Car"])
  rw [hplain] at hsome hdiffer
  refine ⟨hplain, ?_⟩
  obtain ⟨answer, hanswer⟩ := Option.isSome_iff_exists.mp hsome
  cases answer with
  | true => exact (hdiffer hanswer).elim
  | false => exact hanswer

end Flyweight

end PatternFinder
