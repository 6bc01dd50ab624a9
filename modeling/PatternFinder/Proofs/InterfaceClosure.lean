import PatternFinder.Proofs.Reordering

/-! The interfaces of a named type, as the closure of what the files of a compilation declare. Base
lists may run in circles and may be spread over several declarations of one name. -/
namespace PatternFinder

/-- Some file declares a type of this name. -/
def DeclaresType (trees : List SourceTree) (name : String) : Prop :=
  ∃ tree ∈ trees, ∃ t ∈ tree.types, t.identifier = name

/-- Some declaration of a name, in whichever file it stands, has an entry with another name in its
base list. -/
def ListsBase (trees : List SourceTree) (name base : String) : Prop :=
  ∃ tree ∈ trees, ∃ t ∈ tree.types, t.identifier = name ∧
    ∃ b ∈ t.baseTypes, b.identifier? = some base

instance (trees : List SourceTree) (name : String) : Decidable (DeclaresType trees name) :=
  inferInstanceAs (Decidable (∃ tree ∈ trees, ∃ t ∈ tree.types, t.identifier = name))

instance (trees : List SourceTree) (name base : String) : Decidable (ListsBase trees name base) :=
  inferInstanceAs (Decidable (∃ tree ∈ trees, ∃ t ∈ tree.types, t.identifier = name ∧
    ∃ b ∈ t.baseTypes, b.identifier? = some base))

/-- The second name is a catalog interface or a declared base of a name that can be reached from the
first along base lists. -/
def HasSupertype (trees : List SourceTree) (name supertype : String) : Prop :=
  ∃ reached, Relation.ReflTransGen (ListsBase trees) name reached ∧
    (supertype ∈ (catalog? reached).getD [] ∨ ListsBase trees reached supertype)

namespace Semantics

variable {trees : List SourceTree} {name : String}

theorem pairwise_lt_sortedSet (xs : List String) : (sortedSet xs).Pairwise (· < ·) := by
  have hle : (sortedSet xs).Pairwise fun a b => decide (a ≤ b) = true := by
    refine List.pairwise_mergeSort ?_ ?_ xs.eraseDups
    · intro a b c hab hbc
      simp only [decide_eq_true_eq] at hab hbc ⊢
      exact String.le_trans hab hbc
    · intro a b
      simpa using String.le_total a b
  have hne : (sortedSet xs).Pairwise (· ≠ ·) := by
    have hperm := List.mergeSort_perm xs.eraseDups fun a b => decide (a ≤ b)
    exact hperm.nodup_iff.mpr (nodup_eraseDups xs)
  refine hle.imp₂ ?_ hne
  intro a b hab hneq
  exact lt_of_le_of_ne (of_decide_eq_true hab) hneq

theorem mem_sortedSet {x : String} {xs : List String} : x ∈ sortedSet xs ↔ x ∈ xs := by
  rw [sortedSet, List.mem_mergeSort, List.mem_eraseDups]

private theorem mem_parents_ofTrees {base : String} :
    base ∈ (ofTrees trees).parents name ↔ ListsBase trees name base := by
  simp only [parents, ofTrees, baseList_ofTypes, List.mem_filterMap, List.mem_flatMap,
    List.mem_filter, beq_iff_eq, ListsBase]
  constructor
  · rintro ⟨b, ⟨t, ⟨⟨tree, htree, ht⟩, hname⟩, hb⟩, hbase⟩
    exact ⟨tree, htree, t, ht, hname, b, hb, hbase⟩
  · rintro ⟨tree, htree, t, ht, hname, b, hb, hbase⟩
    exact ⟨b, ⟨t, ⟨⟨tree, htree, ht⟩, hname⟩, hb⟩, hbase⟩

theorem mem_supertypes_ofTrees {s : String} :
    s ∈ (ofTrees trees).supertypesFrom [] [name] ↔ HasSupertype trees name s := by
  simp only [mem_supertypes_iff, Reaches, direct_eq, List.mem_append, mem_parents_ofTrees,
    HasSupertype]

theorem resolves_ofTrees_eq_false_iff :
    (ofTrees trees).resolves name = false ↔ catalog? name = none ∧ ¬ DeclaresType trees name := by
  rw [resolves, Bool.or_eq_false_iff, ofTrees, isSome_bases?_ofTypes]
  simp [DeclaresType]

/-- The interfaces of a named type are unknown exactly when its name is neither in the catalog nor
declared. Otherwise they are in increasing order, each once, and they are the catalog interfaces and
the declared bases of all names that can be reached along base lists, whether these run in circles
or not. -/
theorem interfaces_eq_closure (trees : List SourceTree) (name : String) (qualifier : Option String)
    (arguments : List TypeRef) :
    ((ofTrees trees).interfaces (.named name qualifier arguments) = none ↔
        catalog? name = none ∧ ¬ DeclaresType trees name) ∧
      ∀ supported, (ofTrees trees).interfaces (.named name qualifier arguments) = some supported →
        supported.Pairwise (· < ·) ∧ ∀ s, s ∈ supported ↔ HasSupertype trees name s := by
  rw [interfaces, ← resolves_ofTrees_eq_false_iff]
  constructor
  · cases (ofTrees trees).resolves name <;> simp
  · intro supported hsupported
    split_ifs at hsupported
    obtain rfl := Option.some.inj hsupported
    refine ⟨pairwise_lt_sortedSet _, fun s => ?_⟩
    rw [mem_sortedSet, mem_supertypes_ofTrees]

/-- A class that declares itself as its base in one file. In another file it goes on to a second
class, which leads back to it and to a list. -/
def circularTrees : List SourceTree :=
  [⟨"a.cs", 0, 0, [], [declared "Pool" [.simple "Pool"]]⟩,
    ⟨"b.cs", 0, 0, [], [declared "Pool" [.array (.simple "Car"), .simple "Ring"],
      declared "Ring" [.simple "Pool", .generic "List" [.simple "Car"]]]⟩]
where
  declared (name : String) (bases : List TypeRef) : TypeDeclaration :=
    ⟨.class, [], name, default, default, none, none, bases, []⟩

/-- The search comes round to the class itself and goes on to the list behind the circle. -/
theorem interfaces_eq_closure_circular :
    ∃ supported, (ofTrees circularTrees).interfaces (.named "Pool" none []) = some supported ∧
      supported.Pairwise (· < ·) ∧ "Pool" ∈ supported ∧ "ICollection" ∈ supported := by
  obtain ⟨hnone, hsome⟩ := interfaces_eq_closure circularTrees "Pool" none []
  have hdeclared : DeclaresType circularTrees "Pool" := by decide
  have hlist : Relation.ReflTransGen (ListsBase circularTrees) "Pool" "List" :=
    .head (b := "Ring") (by decide) (.single (by decide))
  obtain ⟨supported, hsupported⟩ := Option.ne_none_iff_exists'.mp
    fun h => (hnone.mp h).2 hdeclared
  obtain ⟨hsorted, hmem⟩ := hsome supported hsupported
  refine ⟨supported, hsupported, hsorted, (hmem _).mpr ?_, (hmem _).mpr ?_⟩
  · exact ⟨"Pool", .refl, .inr (by decide)⟩
  · exact ⟨"List", hlist, .inl (by decide)⟩

end Semantics

end PatternFinder
