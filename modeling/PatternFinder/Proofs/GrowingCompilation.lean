import PatternFinder.Proofs.CrossFileSearch
import PatternFinder.Proofs.ElementSearch

/-! What files that are put in among others cannot take away: the matches of the checks that look
through all files, and what is known of types. Names may be shared and declarations may be continued
in the files put in. -/
namespace PatternFinder

/-- A match is kept when its candidates stay candidates and still pass. -/
theorem Outcome.ReportsFirst.matched_mono {α : Type} {o o' : Outcome} {place place' : Location}
    {applies : Prop} {candidates candidates' : List α} {passes passes' : α → Prop}
    {name name' : α → String} (ho : o.ReportsFirst place applies candidates passes name)
    (ho' : o'.ReportsFirst place' applies candidates' passes' name')
    (hkept : ∀ x ∈ candidates, passes x → x ∈ candidates' ∧ passes' x) (h : o.matched = true) :
    o'.matched = true := by
  obtain ⟨happlies, x, hx, hpasses⟩ := ho.matched_iff.mp h
  obtain ⟨hx, hpasses⟩ := hkept x hx hpasses
  exact ho'.matched_iff.mpr ⟨happlies, x, hx, hpasses⟩

section Types

variable {c c' : Compilation} {name : String}

theorem Compilation.methods_subset (h : c.types ⊆ c'.types) : c.methods ⊆ c'.methods := by
  intro m hm
  obtain ⟨t, ht, hm⟩ := List.mem_flatMap.mp hm
  exact List.mem_flatMap.mpr ⟨t, h ht, hm⟩

theorem FactoryMethod.NamesProduct.mono (h : c.types ⊆ c'.types)
    (hname : NamesProduct c name) : NamesProduct c' name := by
  obtain ⟨⟨i, hi, hinterface⟩, m, hm, hmakes⟩ := hname
  exact ⟨⟨i, h hi, hinterface⟩, m, Compilation.methods_subset h hm, hmakes⟩

theorem FactoryMethod.NamesFactory.mono (h : c.types ⊆ c'.types)
    (hname : NamesFactory c name) : NamesFactory c' name := by
  obtain ⟨m, hm, hmakes⟩ := hname
  exact ⟨m, Compilation.methods_subset h hm, hmakes⟩

theorem Decorator.NamesComponent.mono {t : TypeDeclaration} (h : c.types ⊆ c'.types)
    (hname : NamesComponent c t name) : NamesComponent c' t name := by
  obtain ⟨other, hother, hcomponent⟩ := hname
  exact ⟨other, h hother, hcomponent⟩

end Types

section Trees

variable {trees whole : List SourceTree} {name supertype : String}

theorem DeclaresType.mono (h : trees ⊆ whole) (hname : DeclaresType trees name) :
    DeclaresType whole name := by
  obtain ⟨tree, htree, hdeclared⟩ := hname
  exact ⟨tree, h htree, hdeclared⟩

theorem ListsBase.mono (h : trees ⊆ whole) (hbase : ListsBase trees name supertype) :
    ListsBase whole name supertype := by
  obtain ⟨tree, htree, hlisted⟩ := hbase
  exact ⟨tree, h htree, hlisted⟩

theorem HasSupertype.mono (h : trees ⊆ whole) (hsuper : HasSupertype trees name supertype) :
    HasSupertype whole name supertype := by
  obtain ⟨reached, hreach, hdirect⟩ := hsuper
  exact ⟨reached, Relation.ReflTransGen.mono (fun _ _ => ListsBase.mono h) _ _ hreach,
    hdirect.imp_right (ListsBase.mono h)⟩

namespace Semantics

private theorem resolves_mono (h : trees ⊆ whole) (hname : (ofTrees trees).resolves name = true) :
    (ofTrees whole).resolves name = true := by
  rw [← Bool.not_eq_false, resolves_ofTrees_eq_false_iff] at hname ⊢
  rintro ⟨hcatalog, hundeclared⟩
  exact hname ⟨hcatalog, fun hdeclared => hundeclared (hdeclared.mono h)⟩

/-- Interfaces that are known stay known, and none is lost. -/
theorem interfaces_mono (h : trees ⊆ whole) {t : TypeRef} {supported : List String}
    (ht : (ofTrees trees).interfaces t = some supported) :
    ∃ supported', (ofTrees whole).interfaces t = some supported' ∧ supported ⊆ supported' := by
  fun_induction TypeRef.lookupName? t with
  | case1 name qualifier arguments =>
    rw [interfaces] at ht ⊢
    split_ifs at ht with hresolves
    obtain rfl := Option.some.inj ht
    rw [if_pos (resolves_mono h hresolves)]
    refine ⟨_, rfl, fun s hs => ?_⟩
    rw [mem_sortedSet, mem_supertypes_ofTrees] at hs ⊢
    exact hs.mono h
  | case2 inner ih => exact ih ht
  | case3 t hnamed hnullable =>
    -- keywords, arrays and unread forms are not looked up
    cases t with
    | named name qualifier arguments => exact (hnamed name qualifier arguments rfl).elim
    | nullable inner => exact (hnullable inner rfl).elim
    | predefined | array => exact ⟨supported, ht, List.Subset.refl _⟩
    | other => cases ht

private theorem isCollection_mono (h : trees ⊆ whole) {t : TypeRef}
    (ht : (ofTrees trees).isCollection t = some true) :
    (ofTrees whole).isCollection t = some true := by
  obtain ⟨supported, hsupported, hcollection⟩ := Option.map_eq_some_iff.mp ht
  obtain ⟨supported', hsupported', hsub⟩ := interfaces_mono h hsupported
  refine Option.map_eq_some_iff.mpr ⟨supported', hsupported', ?_⟩
  rcases Bool.or_eq_true_iff.mp hcollection with hname | hany
  · rw [hname, Bool.true_or]
  · obtain ⟨s, hs, hcontract⟩ := List.any_eq_true.mp hany
    rw [List.any_eq_true.mpr ⟨s, hsub hs, hcontract⟩, Bool.or_true]

end Semantics

end Trees

/-- Files that are put in anywhere take no match away from the checks that look through all files.
Types that are collections stay collections, and types with known interfaces keep all of these. -/
theorem matches_kept_of_inserted {c c' : Compilation} {others : List SourceTree}
    (h : Inserted c.trees others c'.trees) :
    (∀ t, (FactoryMethod.isProductInterface t c).matched = true →
        (FactoryMethod.isProductInterface t c').matched = true) ∧
      (∀ t, (FactoryMethod.isConcreteProduct t c).matched = true →
        (FactoryMethod.isConcreteProduct t c').matched = true) ∧
      (∀ l, (FactoryMethod.declarationWithFactoryMethod l c).matched = true →
        (FactoryMethod.declarationWithFactoryMethod l c').matched = true) ∧
      (∀ t, (Decorator.hasAbstractClass t c).matched = true →
        (Decorator.hasAbstractClass t c').matched = true) ∧
      ∀ m m', c.HasOwnSemantics → c'.HasOwnSemantics → c.semantics = some m →
        c'.semantics = some m' → ∀ t,
        (m.isCollection t = some true → m'.isCollection t = some true) ∧
          ∀ supported, m.interfaces t = some supported →
            ∃ supported', m'.interfaces t = some supported' ∧ supported ⊆ supported' := by
  have htrees : c.trees ⊆ c'.trees := h.sublist.subset
  have htypes : c.types ⊆ c'.types := (h.sublist.flatMap (·.types)).subset
  refine ⟨fun t => ?_, fun t => ?_, fun l => ?_, fun t => ?_, ?_⟩
  · refine (FactoryMethod.isProductInterface_reportsFirst t c).matched_mono
      (FactoryMethod.isProductInterface_reportsFirst t c') fun m hm hmakes => ?_
    exact ⟨Compilation.methods_subset htypes hm, hmakes⟩
  · exact (FactoryMethod.isConcreteProduct_reportsFirst t c).matched_mono
      (FactoryMethod.isConcreteProduct_reportsFirst t c') fun _ hbase hname =>
        ⟨hbase, hname.mono htypes⟩
  · exact (FactoryMethod.declarationWithFactoryMethod_reportsFirst l c).matched_mono
      (FactoryMethod.declarationWithFactoryMethod_reportsFirst l c') fun _ hcall hname =>
        ⟨hcall, hname.mono htypes⟩
  · exact (Decorator.hasAbstractClass_reportsFirst t c).matched_mono
      (Decorator.hasAbstractClass_reportsFirst t c') fun _ hbase hname =>
        ⟨hbase, hname.mono htypes⟩
  · intro m m' hc hc' hm hm' t
    rw [hc m hm, hc' m' hm']
    exact ⟨Semantics.isCollection_mono htrees, fun _ => Semantics.interfaces_mono htrees⟩

/-- A file that continues a class of the workshop with another base. -/
def annexTree : SourceTree :=
  let place (first last : Nat) : Location := ⟨"annex.cs", ⟨0, first⟩, ⟨0, last⟩⟩
  ⟨"annex.cs", 0, 0, [], [⟨.class, [], "Gear", place 14 18, place 0 40, none, none,
    [.generic "List" [.simple "IPart"]], []⟩]⟩

/-- The annex is put in before the workshop. -/
theorem matches_kept_of_inserted_annex :
    (FactoryMethod.isConcreteProduct gearType (.ofTrees [annexTree, workshopTree] true)).matched =
        true ∧
      (Semantics.ofTrees [annexTree, workshopTree]).isCollection (.array (.simple "IPart")) =
        some true ∧
      ∃ supported, (Semantics.ofTrees [annexTree, workshopTree]).interfaces (.simple "Gear") =
        some supported ∧ "IPart" ∈ supported := by
  have hinserted : Inserted (Compilation.ofTrees [workshopTree] true).trees [annexTree]
      (Compilation.ofTrees [annexTree, workshopTree] true).trees :=
    ⟨List.sublist_cons_self _ _, .swap _ _ _⟩
  obtain ⟨-, hproduct, -, -, hsemantics⟩ := matches_kept_of_inserted hinserted
  have hkept := hsemantics _ _ (Compilation.hasOwnSemantics_ofTrees [workshopTree] true)
    (Compilation.hasOwnSemantics_ofTrees [annexTree, workshopTree] true) rfl rfl
  have hgear : (FactoryMethod.isConcreteProduct gearType
      (.ofTrees [workshopTree] true)).matched = true := by
    have hpart : FactoryMethod.NamesProduct (.ofTrees [workshopTree] true) "IPart" :=
      ⟨⟨partType, .head _, rfl, rfl⟩, _, .head _, rfl, rfl⟩
    exact (FactoryMethod.isConcreteProduct_reportsFirst _ _).matched_iff.mpr
      ⟨rfl, "IPart", .head _, hpart⟩
  have hbase : HasSupertype [workshopTree] "Gear" "IPart" := ⟨"Gear", .refl, .inr (by decide)⟩
  obtain ⟨supported, hsupported, hpart⟩ := (Semantics.exists_interfaces_iff none []).mpr hbase
  obtain ⟨supported', hsupported', hsub⟩ := (hkept _).2 supported hsupported
  exact ⟨hproduct _ hgear, (hkept _).1 rfl, supported', hsupported', hsub hpart⟩

end PatternFinder
