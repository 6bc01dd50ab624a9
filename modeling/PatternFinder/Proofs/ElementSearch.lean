import PatternFinder.Proofs.InterfaceClosure

/-! The element type of a type that is written as a plain name. The search goes along base lists, in
depth and from left to right, and expands each name once. A name that it passes over was expanded
before, and no entry is missed for it. -/
namespace PatternFinder

namespace TypeRef

/-- A type without the nullable marks around it. -/
def unmarked : TypeRef → TypeRef
  | .nullable inner => inner.unmarked
  | t => t

/-- An array, or a name with type arguments. Such a type tells by itself what it holds. -/
def tellsElement : TypeRef → Bool
  | .array _ => true
  | .named _ _ arguments => !arguments.isEmpty
  | _ => false

/-- The name of a type that is written as a name without type arguments. -/
def plainName? : TypeRef → Option String
  | .named name _ [] => some name
  | _ => none

theorem tellsElement_of_plainName? {t : TypeRef} {name : String} (h : t.plainName? = some name) :
    t.tellsElement = false := by
  unfold plainName? at h
  split at h
  · rfl
  · cases h

end TypeRef

section Entries

variable (trees : List SourceTree)

/-- The entries of all base lists of a name, file by file and in their order. -/
def baseEntries (name : String) : List TypeRef :=
  ((trees.flatMap (·.types)).filter (·.identifier == name)).flatMap (·.baseTypes)

/-- Some declaration of a name, in whichever file it stands, has a type in its base list, marked as
nullable or not. -/
def ListsEntry (name : String) (entry : TypeRef) : Prop :=
  ∃ tree ∈ trees, ∃ t ∈ tree.types, t.identifier = name ∧ ∃ b ∈ t.baseTypes, b.unmarked = entry

/-- Some declaration of a name has another name, without type arguments, in its base list. -/
def ListsPlainly (name next : String) : Prop :=
  ∃ entry, ListsEntry trees name entry ∧ entry.plainName? = some next

/-- An entry of the base lists of a name that can be reached through plain names. -/
def ReachesEntry (name : String) (entry : TypeRef) : Prop :=
  ∃ reached, Relation.ReflTransGen (ListsPlainly trees) name reached ∧
    ListsEntry trees reached entry

/-- Names of dictionaries, and the keyed collection, hold the last of their type arguments. -/
def HoldsLast (name : String) : Prop :=
  name = "KeyedCollection" ∨ name = "IDictionary" ∨ name = "IReadOnlyDictionary" ∨
    HasSupertype trees name "IDictionary"

/-- What a type holds that tells it by itself. -/
inductive Holds : TypeRef → TypeRef → Prop
  | array (element : TypeRef) : Holds (.array element) element
  | last {name : String} {arguments : List TypeRef} {element : TypeRef}
      (qualifier : Option String) (hname : HoldsLast trees name)
      (hlast : arguments.getLast? = some element) : Holds (.named name qualifier arguments) element
  | first {name : String} {arguments : List TypeRef} {element : TypeRef}
      (qualifier : Option String) (hname : ¬ HoldsLast trees name)
      (hfirst : arguments.head? = some element) : Holds (.named name qualifier arguments) element

/-- A walk over some types from left to right, from names that were expanded before to names that
are expanded in the end. It meets every type, and behind a plain name that is new the entries of the
name's base lists before it goes on. -/
inductive BaseWalk : List String → List TypeRef → List TypeRef → List String → Prop
  | done (seen : List String) : BaseWalk seen [] [] seen
  | pass {seen expanded : List String} {t : TypeRef} {ts met : List TypeRef}
      (hseen : ∀ name, t.unmarked.plainName? = some name → name ∈ seen)
      (rest : BaseWalk seen ts met expanded) :
      BaseWalk seen (t :: ts) (t.unmarked :: met) expanded
  | expand {seen between expanded : List String} {name : String} {t : TypeRef}
      {ts below met : List TypeRef} (hname : t.unmarked.plainName? = some name)
      (hnew : name ∉ seen) (bases : BaseWalk (name :: seen) (baseEntries trees name) below between)
      (rest : BaseWalk between ts met expanded) :
      BaseWalk seen (t :: ts) (t.unmarked :: (below ++ met)) expanded

end Entries

variable {trees : List SourceTree} {name : String}

theorem listsEntry_iff {entry : TypeRef} :
    ListsEntry trees name entry ↔ ∃ b ∈ baseEntries trees name, b.unmarked = entry := by
  simp only [ListsEntry, baseEntries, List.mem_flatMap, List.mem_filter, beq_iff_eq]
  constructor
  · rintro ⟨tree, htree, t, ht, hname, b, hb, hentry⟩
    exact ⟨b, ⟨t, ⟨⟨tree, htree, ht⟩, hname⟩, hb⟩, hentry⟩
  · rintro ⟨b, ⟨t, ⟨⟨tree, htree, ht⟩, hname⟩, hb⟩, hentry⟩
    exact ⟨tree, htree, t, ht, hname, b, hb, hentry⟩

theorem ReachesEntry.of_listed {entry : TypeRef} (h : ListsEntry trees name entry) :
    ReachesEntry trees name entry := ⟨name, .refl, h⟩

theorem ReachesEntry.head {next : String} {entry : TypeRef} (hstep : ListsPlainly trees name next)
    (h : ReachesEntry trees next entry) : ReachesEntry trees name entry := by
  obtain ⟨reached, hreach, hentry⟩ := h
  exact ⟨reached, .head hstep hreach, hentry⟩

theorem exists_holds (trees : List SourceTree) {t : TypeRef} (h : t.tellsElement = true) :
    ∃ e, Holds trees t e := by
  cases t with
  | array element => exact ⟨element, .array element⟩
  | named name qualifier arguments =>
    cases arguments with
    | nil => cases h
    | cons a as =>
      by_cases hname : HoldsLast trees name
      · exact ⟨_, .last qualifier hname List.getLast?_cons⟩
      · exact ⟨a, .first qualifier hname rfl⟩
  | predefined | nullable | other => cases h

namespace Semantics

theorem baseList_ofTrees : (ofTrees trees).baseList name = baseEntries trees name :=
  baseList_ofTypes _ _

/-- A name that is not declared has its catalog interfaces and no others. -/
theorem hasSupertype_iff_of_undeclared (h : ¬ DeclaresType trees name) {s : String} :
    HasSupertype trees name s ↔ s ∈ (catalog? name).getD [] := by
  have hlists : ∀ base, ¬ ListsBase trees name base := by
    rintro base ⟨tree, htree, t, ht, hname, -⟩
    exact h ⟨tree, htree, t, ht, hname⟩
  constructor
  · rintro ⟨reached, hreach, hs⟩
    rcases hreach.cases_head with rfl | ⟨next, hstep, -⟩
    · exact hs.resolve_right (hlists s)
    · exact (hlists next hstep).elim
  · intro hs
    exact ⟨name, .refl, .inl hs⟩

private theorem resolves_of_hasSupertype {s : String} (h : HasSupertype trees name s) :
    (ofTrees trees).resolves name = true := by
  by_contra hunknown
  rw [Bool.not_eq_true, resolves_ofTrees_eq_false_iff] at hunknown
  obtain ⟨hcatalog, hdeclared⟩ := hunknown
  rw [hasSupertype_iff_of_undeclared hdeclared, hcatalog] at h
  cases h

theorem exists_interfaces_iff (qualifier : Option String) (arguments : List TypeRef) {s : String} :
    (∃ supported, (ofTrees trees).interfaces (.named name qualifier arguments) = some supported ∧
      s ∈ supported) ↔ HasSupertype trees name s := by
  rw [interfaces]
  constructor
  · rintro ⟨supported, hsupported, hs⟩
    split_ifs at hsupported
    obtain rfl := Option.some.inj hsupported
    exact mem_supertypes_ofTrees.mp (mem_sortedSet.mp hs)
  · intro hs
    rw [if_pos (resolves_of_hasSupertype hs)]
    exact ⟨_, rfl, mem_sortedSet.mpr (mem_supertypes_ofTrees.mpr hs)⟩

theorem holdsLastArgument_iff :
    (ofTrees trees).holdsLastArgument name = true ↔ HoldsLast trees name := by
  have hdictionary : ((ofTrees trees).interfaces (.simple name)).any (·.contains "IDictionary") ↔
      HasSupertype trees name "IDictionary" := by
    rw [← exists_interfaces_iff none [], Option.any_eq_true]
    simp only [List.contains_iff_mem]
    rfl
  simp only [holdsLastArgument, Bool.or_eq_true, beq_iff_eq, hdictionary, HoldsLast, or_assoc]

/-- What a type holds that tells it does not depend on the state of the search. -/
theorem elementFrom_of_holds {seen : List String} {t element : TypeRef} {pending : List TypeRef}
    (h : Holds trees t.unmarked element) :
    (ofTrees trees).elementFrom seen (t :: pending) = some element := by
  fun_induction TypeRef.unmarked t with
  | case1 inner ih =>
    rw [elementFrom]
    exact ih h
  | case2 t hnullable =>
    cases h with
    | array => rw [elementFrom]
    | last qualifier hname hlast =>
      rename_i name arguments
      cases arguments with
      | nil => cases hlast
      | cons a as =>
        rw [List.getLast?_eq_some_getLast (List.cons_ne_nil a as)] at hlast
        rw [elementFrom, if_pos (holdsLastArgument_iff.mpr hname), hlast]
    | first qualifier hname hfirst =>
      rename_i name arguments
      cases arguments with
      | nil => cases hfirst
      | cons a as =>
        rw [elementFrom, if_neg (fun hlast => hname (holdsLastArgument_iff.mp hlast))]
        exact hfirst

theorem elementFrom_of_passed {seen : List String} {t : TypeRef}
    (hseen : ∀ name, t.unmarked.plainName? = some name → name ∈ seen)
    (htells : t.unmarked.tellsElement = false) (pending : List TypeRef) :
    (ofTrees trees).elementFrom seen (t :: pending) = (ofTrees trees).elementFrom seen pending := by
  fun_induction TypeRef.unmarked t with
  | case1 inner ih =>
    rw [elementFrom]
    exact ih hseen htells
  | case2 t hnullable =>
    cases t with
    | array => cases htells
    | nullable inner => exact (hnullable inner rfl).elim
    | predefined | other => rw [elementFrom]
    | named name qualifier arguments =>
      cases arguments with
      | cons => cases htells
      | nil =>
        have hname : name ∈ seen := hseen name rfl
        rw [elementFrom, dif_pos (by simpa using hname)]

theorem elementFrom_of_expanded {seen : List String} {t : TypeRef}
    (hname : t.unmarked.plainName? = some name) (hnew : name ∉ seen) (pending : List TypeRef) :
    (ofTrees trees).elementFrom seen (t :: pending) =
      (ofTrees trees).elementFrom (name :: seen) (baseEntries trees name ++ pending) := by
  fun_induction TypeRef.unmarked t with
  | case1 inner ih =>
    rw [elementFrom]
    exact ih hname
  | case2 t hnullable =>
    unfold TypeRef.plainName? at hname
    split at hname
    · obtain rfl := Option.some.inj hname
      rw [elementFrom_named hnew, baseList_ofTrees]
    · cases hname

/-- Expanding a name never adds to what is left to expand. -/
theorem unseen_length_le_of_subset (m : Semantics) {seen expanded : List String}
    (h : seen ⊆ expanded) : (m.unseen expanded).length ≤ (m.unseen seen).length := by
  apply List.Sublist.length_le
  apply List.monotone_filter_right
  intro name hname
  have hnew : name ∉ expanded := by simpa using hname
  have hunseen : name ∉ seen := fun hseen => hnew (h hseen)
  simpa using hunseen

theorem baseEntries_eq_nil (h : (ofTrees trees).bases? name = none) :
    baseEntries trees name = [] := by
  rw [← baseList_ofTrees, baseList, h]
  rfl

end Semantics

namespace BaseWalk

variable {seen expanded : List String} {ts met : List TypeRef}

theorem seen_subset (h : BaseWalk trees seen ts met expanded) : seen ⊆ expanded := by
  induction h with
  | done seen => exact List.Subset.refl seen
  | pass hseen rest ih => exact ih
  | expand hname hnew bases rest ihBases ihRest =>
    intro n hn
    exact ihRest (ihBases (List.mem_cons_of_mem _ hn))

/-- Every walk comes to an end. Either a declared name is expanded, of which there are finitely
many, or there are fewer types to go. -/
theorem exists_of (trees : List SourceTree) (seen : List String) (ts : List TypeRef) :
    ∃ met expanded, BaseWalk trees seen ts met expanded := by
  match ts with
  | [] => exact ⟨[], seen, .done seen⟩
  | t :: ts =>
    by_cases hseen : ∀ name, t.unmarked.plainName? = some name → name ∈ seen
    · obtain ⟨met, expanded, hrest⟩ := exists_of trees seen ts
      exact ⟨_, expanded, .pass hseen hrest⟩
    · push Not at hseen
      obtain ⟨name, hname, hnew⟩ := hseen
      obtain ⟨below, between, hbases⟩ := exists_of trees (name :: seen) (baseEntries trees name)
      obtain ⟨met, expanded, hrest⟩ := exists_of trees between ts
      exact ⟨_, expanded, .expand hname hnew hbases hrest⟩
termination_by (((Semantics.ofTrees trees).unseen seen).length, ts.length)
decreasing_by
  · exact Prod.Lex.right _ (Nat.lt_succ_self _)
  · have hle := (Semantics.ofTrees trees).unseen_length_le name seen
    cases hbases : (Semantics.ofTrees trees).bases? name with
    | some bs =>
      apply Prod.Lex.left
      exact Semantics.unseen_length_lt _ hbases (by simpa using hnew)
    | none =>
      rw [Semantics.baseEntries_eq_nil hbases]
      exact Prod.Lex.right' _ hle (Nat.succ_pos _)
  · have hsub : seen ⊆ between := fun n hn => hbases.seen_subset (List.mem_cons_of_mem _ hn)
    have hle := (Semantics.ofTrees trees).unseen_length_le_of_subset hsub
    exact Prod.Lex.right' _ hle (Nat.lt_succ_self _)

/-- The search along a walk: it answers with the first type met that tells what it holds, and when
there is none it goes on behind the walk with the names that are expanded by then. -/
theorem elementFrom_append (h : BaseWalk trees seen ts met expanded) (pending : List TypeRef) :
    (∀ entry element, met.find? (·.tellsElement) = some entry → Holds trees entry element →
        (Semantics.ofTrees trees).elementFrom seen (ts ++ pending) = some element) ∧
      (met.find? (·.tellsElement) = none →
        (Semantics.ofTrees trees).elementFrom seen (ts ++ pending) =
          (Semantics.ofTrees trees).elementFrom expanded pending) := by
  induction h generalizing pending with
  | done seen =>
    constructor
    · intro entry element hfind
      cases hfind
    · intro
      rfl
  | @pass seen expanded t ts met hseen rest ih =>
    cases htells : t.unmarked.tellsElement with
    | true =>
      rw [List.find?_cons_of_pos htells]
      refine ⟨fun entry element hentry hholds => ?_, nofun⟩
      obtain rfl := Option.some.inj hentry
      exact Semantics.elementFrom_of_holds hholds
    | false =>
      rw [List.find?_cons_of_neg (by simp [htells]), List.cons_append,
        Semantics.elementFrom_of_passed hseen htells]
      exact ih pending
  | @expand seen between expanded name t ts below met hname hnew bases rest ihBases ihRest =>
    have htells := TypeRef.tellsElement_of_plainName? hname
    obtain ⟨hsomeBases, hnoneBases⟩ := ihBases (ts ++ pending)
    obtain ⟨hsomeRest, hnoneRest⟩ := ihRest pending
    rw [List.find?_cons_of_neg (by simp [htells]), List.cons_append,
      Semantics.elementFrom_of_expanded hname hnew, List.find?_append]
    cases hbelow : below.find? (·.tellsElement) with
    | some first =>
      rw [Option.some_or]
      exact ⟨fun entry element hentry => hsomeBases entry element (hbelow.trans hentry), nofun⟩
    | none =>
      rw [Option.none_or, hnoneBases hbelow]
      exact ⟨hsomeRest, hnoneRest⟩

/-- A walk meets nothing but what it is about and what can be reached from there. -/
theorem exists_of_mem_met (h : BaseWalk trees seen ts met expanded) {entry : TypeRef}
    (hentry : entry ∈ met) : ∃ t ∈ ts, t.unmarked = entry ∨
      ∃ start, t.unmarked.plainName? = some start ∧ ReachesEntry trees start entry := by
  induction h with
  | done seen => cases hentry
  | pass hseen rest ih =>
    rcases List.mem_cons.mp hentry with rfl | hmet
    · exact ⟨_, List.mem_cons_self, .inl rfl⟩
    · obtain ⟨t, ht, hreached⟩ := ih hmet
      exact ⟨t, List.mem_cons_of_mem _ ht, hreached⟩
  | @expand seen between expanded name t ts below met hname hnew bases rest ihBases ihRest =>
    rcases List.mem_cons.mp hentry with rfl | hmet
    · exact ⟨t, List.mem_cons_self, .inl rfl⟩
    rcases List.mem_append.mp hmet with hbelow | hmet
    · -- an entry of the name itself, or one that is reached through an entry of the name
      obtain ⟨b, hb, heq | ⟨start, hstart, hreached⟩⟩ := ihBases hbelow
      · have hlisted : ListsEntry trees name entry := listsEntry_iff.mpr ⟨b, hb, heq⟩
        exact ⟨t, List.mem_cons_self, .inr ⟨name, hname, .of_listed hlisted⟩⟩
      · have hstep : ListsPlainly trees name start :=
          ⟨b.unmarked, listsEntry_iff.mpr ⟨b, hb, rfl⟩, hstart⟩
        exact ⟨t, List.mem_cons_self, .inr ⟨name, hname, hreached.head hstep⟩⟩
    · obtain ⟨t', ht', hreached⟩ := ihRest hmet
      exact ⟨t', List.mem_cons_of_mem _ ht', hreached⟩

/-- A type is met, and its name is expanded if it is a plain one. -/
def Covers (met : List TypeRef) (expanded : List String) (t : TypeRef) : Prop :=
  t.unmarked ∈ met ∧ ∀ name, t.unmarked.plainName? = some name → name ∈ expanded

theorem Covers.mono {met' : List TypeRef} {expanded' : List String} {t : TypeRef}
    (h : Covers met expanded t) (hmet : met ⊆ met') (hexpanded : expanded ⊆ expanded') :
    Covers met' expanded' t :=
  ⟨hmet h.1, fun name hname => hexpanded (h.2 name hname)⟩

theorem covers_types (h : BaseWalk trees seen ts met expanded) :
    ∀ t ∈ ts, Covers met expanded t := by
  induction h with
  | done seen => exact fun t ht => nomatch ht
  | pass hseen rest ih =>
    intro t ht
    rcases List.mem_cons.mp ht with rfl | ht
    · exact ⟨List.mem_cons_self, fun name hname => rest.seen_subset (hseen name hname)⟩
    · exact (ih t ht).mono (List.subset_cons_self _ _) (List.Subset.refl _)
  | @expand seen between expanded name t ts below met hname hnew bases rest ihBases ihRest =>
    intro t' ht'
    rcases List.mem_cons.mp ht' with rfl | ht'
    · refine ⟨List.mem_cons_self, fun n hn => ?_⟩
      obtain rfl := Option.some.inj (hname.symm.trans hn)
      exact rest.seen_subset (bases.seen_subset List.mem_cons_self)
    · apply (ihRest t' ht').mono
      · exact fun x hx => List.mem_cons_of_mem _ (List.mem_append_right _ hx)
      · exact List.Subset.refl _

/-- All base entries of the names that a walk expands are met by the same walk. A name that it
passes over is no exception, for its entries are met where it is expanded. -/
theorem covers_bases (h : BaseWalk trees seen ts met expanded) {n : String} (hn : n ∈ expanded)
    (hnew : n ∉ seen) : ∀ b ∈ baseEntries trees n, Covers met expanded b := by
  induction h with
  | done seen => exact (hnew hn).elim
  | pass hseen rest ih =>
    intro b hb
    exact (ih hn hnew b hb).mono (List.subset_cons_self _ _) (List.Subset.refl _)
  | @expand seen between expanded name t ts below met hname hfresh bases rest ihBases ihRest =>
    intro b hb
    have hbelow : Covers below between b → Covers (t.unmarked :: (below ++ met)) expanded b :=
      fun hcovers => hcovers.mono
        (fun x hx => List.mem_cons_of_mem _ (List.mem_append_left _ hx)) rest.seen_subset
    by_cases hbetween : n ∈ between
    · by_cases heq : n = name
      · subst heq
        exact hbelow (bases.covers_types b hb)
      · exact hbelow (ihBases hbetween (by simp [heq, hnew]) b hb)
    · apply (ihRest hn hbetween b hb).mono
      · exact fun x hx => List.mem_cons_of_mem _ (List.mem_append_right _ hx)
      · exact List.Subset.refl _

/-- From a plain name, a walk meets exactly the name and the entries that can be reached from it. -/
theorem mem_met_iff {qualifier : Option String}
    (h : BaseWalk trees [] [.named name qualifier []] met expanded) {entry : TypeRef} :
    entry ∈ met ↔ entry = .named name qualifier [] ∨ ReachesEntry trees name entry := by
  have hstart := h.covers_types _ (List.mem_singleton.mpr rfl)
  constructor
  · intro hentry
    obtain ⟨t, ht, hreached⟩ := h.exists_of_mem_met hentry
    obtain rfl := List.mem_singleton.mp ht
    rcases hreached with heq | ⟨start, hname, hreached⟩
    · exact .inl heq.symm
    · obtain rfl : name = start := Option.some.inj hname
      exact .inr hreached
  · rintro (rfl | ⟨reached, hreach, hlisted⟩)
    · exact hstart.1
    · -- the expanded names are closed under the steps between plain names
      have hexpanded : reached ∈ expanded := by
        clear hlisted
        induction hreach with
        | refl => exact hstart.2 name rfl
        | tail _ hstep ih =>
          obtain ⟨next, hnext, hplain⟩ := hstep
          obtain ⟨b, hb, rfl⟩ := listsEntry_iff.mp hnext
          exact (h.covers_bases ih List.not_mem_nil b hb).2 _ hplain
      obtain ⟨b, hb, rfl⟩ := listsEntry_iff.mp hlisted
      exact (h.covers_bases hexpanded List.not_mem_nil b hb).1

/-- The first telling type on a walk is an entry, as the name that the walk starts from tells
nothing. -/
theorem reaches_of_find? {qualifier : Option String}
    (h : BaseWalk trees [] [.named name qualifier []] met expanded) {entry : TypeRef}
    (hfind : met.find? (·.tellsElement) = some entry) :
    ReachesEntry trees name entry ∧ entry.tellsElement = true := by
  have htells : entry.tellsElement = true := List.find?_some hfind
  have hmet : entry ∈ met := List.mem_of_find?_eq_some hfind
  rcases h.mem_met_iff.mp hmet with rfl | hreached
  · cases htells
  · exact ⟨hreached, htells⟩

/-- The element type of a plain name is what the first telling type on a walk holds. -/
theorem elementType_eq_some_iff {qualifier : Option String} {element : TypeRef}
    (h : BaseWalk trees [] [.named name qualifier []] met expanded) :
    (Semantics.ofTrees trees).elementType (.named name qualifier []) = some element ↔
      ∃ entry, met.find? (·.tellsElement) = some entry ∧ Holds trees entry element := by
  obtain ⟨hsome, hnone⟩ := h.elementFrom_append []
  unfold Semantics.elementType
  constructor
  · intro helement
    cases hfind : met.find? (·.tellsElement) with
    | none =>
      have hempty := hnone hfind
      rw [List.append_nil, helement, Semantics.elementFrom] at hempty
      cases hempty
    | some entry =>
      obtain ⟨e, he⟩ := exists_holds trees (List.find?_some hfind)
      have hsame := (hsome entry e hfind he).symm.trans helement
      obtain rfl := Option.some.inj hsame
      exact ⟨entry, rfl, he⟩
  · rintro ⟨entry, hfind, hholds⟩
    exact hsome entry element hfind hholds

end BaseWalk

namespace Semantics

/-- The search for the element type of a plain name ends, and it finds one exactly when the name
reaches, through plain names, an entry that tells what it holds. The answer is what the first such
entry holds that is met in depth and from left to right, each name being expanded once. -/
theorem elementType_eq_first_telling (trees : List SourceTree) (name : String)
    (qualifier : Option String) :
    (((ofTrees trees).elementType (.named name qualifier [])).isSome = true ↔
        ∃ entry, ReachesEntry trees name entry ∧ entry.tellsElement = true) ∧
      (∃ met expanded, BaseWalk trees [] [.named name qualifier []] met expanded) ∧
      ∀ met expanded, BaseWalk trees [] [.named name qualifier []] met expanded → ∀ element,
        (ofTrees trees).elementType (.named name qualifier []) = some element ↔
          ∃ entry, met.find? (·.tellsElement) = some entry ∧ Holds trees entry element := by
  have hexists := BaseWalk.exists_of trees [] [.named name qualifier []]
  refine ⟨?_, hexists, fun met expanded hwalk element => hwalk.elementType_eq_some_iff⟩
  obtain ⟨met, expanded, hwalk⟩ := hexists
  rw [Option.isSome_iff_exists]
  constructor
  · rintro ⟨element, helement⟩
    obtain ⟨entry, hfind, -⟩ := hwalk.elementType_eq_some_iff.mp helement
    exact ⟨entry, hwalk.reaches_of_find? hfind⟩
  · rintro ⟨entry, hreached, htells⟩
    have hmet := hwalk.mem_met_iff.mpr (.inr hreached)
    have hfound : (met.find? (·.tellsElement)).isSome = true :=
      List.find?_isSome.mpr ⟨entry, hmet, htells⟩
    obtain ⟨first, hfirst⟩ := Option.isSome_iff_exists.mp hfound
    obtain ⟨element, helement⟩ := exists_holds trees (List.find?_some hfirst)
    exact ⟨element, hwalk.elementType_eq_some_iff.mpr ⟨first, hfirst, helement⟩⟩

/-- A class without members. -/
def bareClass (name : String) (bases : List TypeRef) : TypeDeclaration :=
  ⟨.class, [], name, default, default, none, none, bases, []⟩

/-- Two classes that extend each other. One of them also extends a third, which leads back to it
before it comes to a dictionary. -/
def ringTrees : List SourceTree :=
  [⟨"a.cs", 0, 0, [], [bareClass "Pool" [.simple "Ring"]]⟩,
    ⟨"b.cs", 0, 0, [], [bareClass "Ring" [.simple "Pool", .simple "Store"],
      bareClass "Store" [.nullable (.simple "Ring"),
        .nullable (.generic "Dictionary" [.predefined "string", .simple "Car"])]]⟩]

/-- Both ways back are cut off, and the dictionary behind them is found. -/
theorem elementType_eq_first_telling_ring :
    (ofTrees ringTrees).elementType (.named "Pool" none []) = some (.simple "Car") := by
  obtain ⟨-, -, hfirst⟩ := elementType_eq_first_telling ringTrees "Pool" none
  have hstore : BaseWalk ringTrees ["Store", "Ring", "Pool"] (baseEntries ringTrees "Store")
      [.simple "Ring", .generic "Dictionary" [.predefined "string", .simple "Car"]]
      ["Store", "Ring", "Pool"] :=
    .pass (by rintro _ ⟨⟩; decide) (.pass nofun (.done _))
  have hring : BaseWalk ringTrees ["Ring", "Pool"] (baseEntries ringTrees "Ring") _ _ :=
    .pass (by rintro _ ⟨⟩; decide) (.expand rfl (by decide) hstore (.done _))
  have hpool : BaseWalk ringTrees ["Pool"] (baseEntries ringTrees "Pool") _ _ :=
    .expand rfl (by decide) hring (.done _)
  have hdictionary : HasSupertype ringTrees "Dictionary" "IDictionary" :=
    ⟨"Dictionary", .refl, .inl (by decide)⟩
  refine (hfirst _ _ (.expand rfl (by decide) hpool (.done _)) _).mpr ⟨_, rfl, ?_⟩
  exact .last none (.inr (.inr (.inr hdictionary))) rfl

end Semantics

end PatternFinder
