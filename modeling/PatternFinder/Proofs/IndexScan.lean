import Mathlib.Data.List.Basic
import PatternFinder.Compilation.View

/-! A look-up by name answers what a scan over all declarations would, in the order of the
declarations, and every place that the index holds is the place of a declaration. -/
namespace PatternFinder

theorem getD_buckets {α : Type} (entries : List (String × α)) (name : String) :
    (buckets entries).getD name [] = (entries.filter (·.1 == name)).map (·.2) := by
  unfold buckets
  induction entries with
  | nil => exact Std.HashMap.getD_empty
  | cons entry entries ih =>
    rw [List.foldr_cons, Std.HashMap.getD_insert]
    by_cases h : entry.1 = name
    · simp [h, ih]
    · simp [h, ih]

theorem mem_getD_buckets {α : Type} {entries : List (String × α)} {name : String} {x : α} :
    x ∈ (buckets entries).getD name [] ↔ (name, x) ∈ entries := by
  rw [getD_buckets, List.mem_map]
  constructor
  · rintro ⟨⟨key, x⟩, he, rfl⟩
    obtain ⟨he, hkey⟩ := List.mem_filter.mp he
    rw [← eq_of_beq hkey]
    exact he
  · intro he
    exact ⟨(name, x), List.mem_filter.mpr ⟨he, beq_self_eq_true name⟩, rfl⟩

/-- Entries are filed under the keys of their values. A key that a value has several times finds it
as often. -/
theorem filterMap_getD_buckets {ι δ : Type} {entries : List (ι × δ)} {resolve : ι → Option δ}
    (keys : δ → List String) (hresolve : ∀ e ∈ entries, resolve e.1 = some e.2) (name : String) :
    ((buckets (entries.flatMap fun e => (keys e.2).map (·, e.1))).getD name []).filterMap resolve =
      (entries.map (·.2)).flatMap fun d => List.replicate ((keys d).count name) d := by
  rw [getD_buckets]
  induction entries with
  | nil => rfl
  | cons e entries ih =>
    have hfound : ∀ ks : List String,
        (((ks.map (·, e.1)).filter (·.1 == name)).map (·.2)).filterMap resolve =
          List.replicate (ks.count name) e.2 := by
      intro ks
      induction ks with
      | nil => rfl
      | cons k ks ihk =>
        by_cases hk : k = name
        · subst hk
          simpa [List.replicate_succ, hresolve e List.mem_cons_self] using ihk
        · simpa [hk] using ihk
    rw [List.flatMap_cons, List.filter_append, List.map_append, List.filterMap_append, hfound,
      ih fun x hx => hresolve x (List.mem_cons_of_mem _ hx), List.map_cons, List.flatMap_cons]

/-- A value with at most one key is found at most once. -/
theorem filterMap_getD_buckets_key? {ι δ : Type} {entries : List (ι × δ)}
    {resolve : ι → Option δ} (key? : δ → Option String)
    (hresolve : ∀ e ∈ entries, resolve e.1 = some e.2) (name : String) :
    ((buckets (entries.filterMap fun e => (key? e.2).map (·, e.1))).getD name []).filterMap
        resolve =
      (entries.map (·.2)).filter (key? · == some name) := by
  have hscan : ∀ ds : List δ,
      (ds.flatMap fun d => List.replicate ((key? d).toList.count name) d) =
        ds.filter (key? · == some name) := by
    intro ds
    induction ds with
    | nil => rfl
    | cons d ds ih =>
      rw [List.flatMap_cons, ih, List.filter_cons]
      cases key? d with
      | none => rfl
      | some k => by_cases hk : k = name <;> simp [hk]
  rw [← hscan, ← filterMap_getD_buckets _ hresolve]
  simp only [List.filterMap_eq_flatMap_toList, Option.toList_map]

theorem filterMap_getD_buckets_key {ι δ : Type} {entries : List (ι × δ)}
    {resolve : ι → Option δ} (key : δ → String)
    (hresolve : ∀ e ∈ entries, resolve e.1 = some e.2) (name : String) :
    ((buckets (entries.map fun e => (key e.2, e.1))).getD name []).filterMap resolve =
      (entries.map (·.2)).filter (key · == name) := by
  have h := filterMap_getD_buckets_key? (fun d => some (key d)) hresolve name
  simpa only [Option.map_some, List.filterMap_eq_map', Option.some_beq_some] using h

theorem map_snd_typeEntries (trees : List SourceTree) :
    (typeEntries trees).map (·.2) = trees.flatMap (·.types) := by
  unfold typeEntries
  rw [List.map_flatMap]
  conv_rhs => rw [← List.zipIdx_map_fst 0 trees, List.flatMap_map]
  congr 1
  funext x
  rw [List.map_map]
  exact List.zipIdx_map_fst 0 x.1.types

theorem map_snd_methodEntries (trees : List SourceTree) :
    (methodEntries trees).map (·.2) = (trees.flatMap (·.types)).flatMap (·.methods) := by
  unfold methodEntries
  rw [List.map_flatMap, ← map_snd_typeEntries, List.flatMap_map]
  congr 1
  funext entry
  change _ = entry.2.members.filterMap Member.method?
  rw [List.map_filterMap]
  conv_rhs => rw [← List.zipIdx_map_fst 0 entry.2.members, List.filterMap_map]
  congr 1
  funext x
  simp [Function.comp_def]

/-- The base lists of all declarations of a name, in their order. -/
theorem Semantics.bases?_ofTypes (types : List TypeDeclaration) (name : String) :
    (ofTypes types).bases? name =
      if (types.filter (·.identifier == name)).isEmpty then none
      else some ((types.filter (·.identifier == name)).flatMap (·.baseTypes)) := by
  unfold bases? ofTypes
  induction types with
  | nil => exact Std.HashMap.getElem?_empty
  | cons t types ih =>
    rw [List.foldr_cons, Std.HashMap.getElem?_insert]
    by_cases h : t.identifier = name
    · rw [Std.HashMap.getD_eq_getD_getElem?, h, ih]
      simp only [beq_self_eq_true, ↓reduceIte, List.filter_cons, h, List.isEmpty_cons,
        Bool.false_eq_true, List.flatMap_cons]
      split_ifs with hnone
      · rw [List.isEmpty_iff.mp hnone]
        rfl
      · rfl
    · simp [h, ih]

namespace Compilation

theorem typeAt?_of_mem (c : Compilation) :
    ∀ e ∈ typeEntries c.trees, c.typeAt? e.1 = some e.2 := by
  intro e he
  unfold typeEntries at he
  obtain ⟨⟨tree, i⟩, htree, he⟩ := List.mem_flatMap.mp he
  obtain ⟨⟨t, j⟩, ht, rfl⟩ := List.mem_map.mp he
  have htree : c.trees[i]? = some tree := List.mem_zipIdx_iff_getElem?.mp htree
  have ht : tree.types[j]? = some t := List.mem_zipIdx_iff_getElem?.mp ht
  show c.trees[i]?.bind (·.types[j]?) = some t
  rw [htree]
  exact ht

theorem methodAt?_of_mem (c : Compilation) :
    ∀ e ∈ methodEntries c.trees, c.methodAt? e.1 = some e.2 := by
  intro e he
  unfold methodEntries at he
  obtain ⟨⟨id, t⟩, ht, he⟩ := List.mem_flatMap.mp he
  obtain ⟨⟨member, k⟩, hmember, he⟩ := List.mem_filterMap.mp he
  obtain ⟨m, hm, rfl⟩ := Option.map_eq_some_iff.mp he
  have hmember : t.members[k]? = some member := List.mem_zipIdx_iff_getElem?.mp hmember
  show ((c.typeAt? id).bind (·.members[k]?)).bind Member.method? = some m
  rw [typeAt?_of_mem c _ ht, Option.bind_some, hmember]
  exact hm

variable (c : Compilation) (name : String)

/-- All methods, type by type. -/
def methods : List MethodDeclaration := c.types.flatMap (·.methods)

theorem typesNamed_eq : c.typesNamed name = c.types.filter (·.identifier == name) := by
  rw [types, ← map_snd_typeEntries, typesNamed, c.index_eq]
  exact filterMap_getD_buckets_key TypeDeclaration.identifier c.typeAt?_of_mem name

theorem mem_typesNamed {c : Compilation} {name : String} {t : TypeDeclaration} :
    t ∈ c.typesNamed name ↔ t ∈ c.types ∧ t.identifier = name := by
  rw [typesNamed_eq, List.mem_filter, beq_iff_eq]

/-- A type is found once for each entry of its base list that has the name. -/
theorem typesWithBase_eq :
    c.typesWithBase name =
      c.types.flatMap fun t => List.replicate (t.baseIdentifiers.count name) t := by
  rw [types, ← map_snd_typeEntries, typesWithBase, c.index_eq]
  exact filterMap_getD_buckets TypeDeclaration.baseIdentifiers c.typeAt?_of_mem name

theorem methodsNamed_eq : c.methodsNamed name = c.methods.filter (·.identifier == name) := by
  rw [methods, types, ← map_snd_methodEntries, methodsNamed, c.index_eq]
  exact filterMap_getD_buckets_key MethodDeclaration.identifier c.methodAt?_of_mem name

theorem methodsReturning_eq :
    c.methodsReturning name = c.methods.filter (·.returnType.identifier? == some name) := by
  rw [methods, types, ← map_snd_methodEntries, methodsReturning, c.index_eq]
  exact filterMap_getD_buckets_key? (fun m : MethodDeclaration => m.returnType.identifier?)
    c.methodAt?_of_mem name

theorem methodCount_eq : c.methodCount = c.methods.length := by
  rw [methods, types, ← map_snd_methodEntries, List.length_map, methodCount, c.index_eq]
  rfl

variable {c name}

theorem mem_typesWithBase {t : TypeDeclaration} :
    t ∈ c.typesWithBase name ↔ t ∈ c.types ∧ t.hasBase name = true := by
  rw [typesWithBase_eq, List.mem_flatMap]
  constructor
  · rintro ⟨u, hu, ht⟩
    obtain ⟨hcount, rfl⟩ := List.mem_replicate.mp ht
    have hbase := List.count_pos_iff.mp (Nat.pos_of_ne_zero hcount)
    exact ⟨hu, List.contains_iff_mem.mpr hbase⟩
  · rintro ⟨ht, hbase⟩
    have hcount := List.count_pos_iff.mpr (List.contains_iff_mem.mp hbase)
    exact ⟨t, ht, List.mem_replicate.mpr ⟨Nat.ne_of_gt hcount, rfl⟩⟩

theorem typeAt?_isSome_of_indexed {id : TypeId}
    (h : id ∈ c.index.typesNamed name ∨ id ∈ c.index.typesWithBase name) :
    (c.typeAt? id).isSome = true := by
  have hentry : ∃ t, (id, t) ∈ typeEntries c.trees := by
    rw [c.index_eq] at h
    rcases h with h | h
    · obtain ⟨⟨id, t⟩, ht, heq⟩ := List.mem_map.mp (mem_getD_buckets.mp h)
      obtain ⟨-, rfl⟩ := Prod.mk.inj heq
      exact ⟨t, ht⟩
    · obtain ⟨⟨id, t⟩, ht, hbase⟩ := List.mem_flatMap.mp (mem_getD_buckets.mp h)
      obtain ⟨base, -, heq⟩ := List.mem_map.mp hbase
      obtain ⟨-, rfl⟩ := Prod.mk.inj heq
      exact ⟨t, ht⟩
  obtain ⟨t, ht⟩ := hentry
  exact Option.isSome_of_eq_some (c.typeAt?_of_mem _ ht)

theorem methodAt?_isSome_of_indexed {id : MethodId}
    (h : id ∈ c.index.methodsNamed name ∨ id ∈ c.index.methodsReturning name) :
    (c.methodAt? id).isSome = true := by
  have hentry : ∃ m, (id, m) ∈ methodEntries c.trees := by
    rw [c.index_eq] at h
    rcases h with h | h
    · obtain ⟨⟨id, m⟩, hm, heq⟩ := List.mem_map.mp (mem_getD_buckets.mp h)
      obtain ⟨-, rfl⟩ := Prod.mk.inj heq
      exact ⟨m, hm⟩
    · obtain ⟨⟨id, m⟩, hm, hreturn⟩ := List.mem_filterMap.mp (mem_getD_buckets.mp h)
      obtain ⟨returned, -, heq⟩ := Option.map_eq_some_iff.mp hreturn
      obtain ⟨-, rfl⟩ := Prod.mk.inj heq
      exact ⟨m, hm⟩
  obtain ⟨m, hm⟩ := hentry
  exact Option.isSome_of_eq_some (c.methodAt?_of_mem _ hm)

/-- Files, the types of a file and the members of a type can be numbered by 32-bit words. -/
structure WordSized (c : Compilation) : Prop where
  trees : c.trees.length < UInt32.size
  types : ∀ tree ∈ c.trees, tree.types.length < UInt32.size
  members : ∀ t ∈ c.types, t.members.length < UInt32.size

end Compilation

/-- The numbers of a place fit into 32-bit words. -/
def TypeId.FitsWords (id : TypeId) : Prop := id.tree < UInt32.size ∧ id.type < UInt32.size

def MethodId.FitsWords (id : MethodId) : Prop := id.owner.FitsWords ∧ id.member < UInt32.size

namespace Compilation

variable {c : Compilation}

theorem WordSized.fitsWords_type (h : c.WordSized) {id : TypeId}
    (hid : (c.typeAt? id).isSome = true) : id.FitsWords := by
  obtain ⟨t, ht⟩ := Option.isSome_iff_exists.mp hid
  obtain ⟨tree, htree, ht⟩ := Option.bind_eq_some_iff.mp ht
  have hi : id.tree < c.trees.length := (List.getElem?_eq_some_iff.mp htree).1
  have hj : id.type < tree.types.length := (List.getElem?_eq_some_iff.mp ht).1
  have htypes := h.types tree (List.mem_of_getElem? htree)
  exact ⟨Nat.lt_trans hi h.trees, Nat.lt_trans hj htypes⟩

theorem WordSized.fitsWords_method (h : c.WordSized) {id : MethodId}
    (hid : (c.methodAt? id).isSome = true) : id.FitsWords := by
  obtain ⟨m, hm⟩ := Option.isSome_iff_exists.mp hid
  obtain ⟨member, hmember, -⟩ := Option.bind_eq_some_iff.mp hm
  obtain ⟨t, ht, hmember⟩ := Option.bind_eq_some_iff.mp hmember
  obtain ⟨tree, htree, htype⟩ := Option.bind_eq_some_iff.mp ht
  have hk : id.member < t.members.length := (List.getElem?_eq_some_iff.mp hmember).1
  have htypes : t ∈ c.types := List.mem_flatMap.mpr
    ⟨tree, List.mem_of_getElem? htree, List.mem_of_getElem? htype⟩
  exact ⟨h.fitsWords_type (Option.isSome_of_eq_some ht), Nat.lt_trans hk (h.members t htypes)⟩

/-- Every look-up by name answers what a scan over all declarations answers, and every place that
the index holds is the place of a declaration. Places fit into words as long as the counts do. -/
theorem lookups_eq_scan (c : Compilation) (name : String) :
    c.typesNamed name = c.types.filter (·.identifier == name) ∧
      c.methodsNamed name = c.methods.filter (·.identifier == name) ∧
      c.methodsReturning name = c.methods.filter (·.returnType.identifier? == some name) ∧
      (c.typesWithBase name = c.types.flatMap fun t =>
        List.replicate (t.baseTypes.countP (·.identifier? == some name)) t) ∧
      (∀ t, t ∈ c.typesWithBase name ↔ t ∈ c.types ∧ t.hasBase name = true) ∧
      (∀ id, id ∈ c.index.typesNamed name ∨ id ∈ c.index.typesWithBase name →
        (c.typeAt? id).isSome = true ∧ (c.WordSized → id.FitsWords)) ∧
      (∀ id, id ∈ c.index.methodsNamed name ∨ id ∈ c.index.methodsReturning name →
        (c.methodAt? id).isSome = true ∧ (c.WordSized → id.FitsWords)) ∧
      c.methodCount = c.methods.length := by
  refine ⟨c.typesNamed_eq name, c.methodsNamed_eq name, c.methodsReturning_eq name, ?_,
    fun t => mem_typesWithBase, ?_, ?_, c.methodCount_eq⟩
  · have hcount : ∀ t : TypeDeclaration, t.baseIdentifiers.count name =
        t.baseTypes.countP (·.identifier? == some name) := by
      intro t
      rw [TypeDeclaration.baseIdentifiers, List.count, List.countP_filterMap]
      refine List.countP_congr fun base _ => ?_
      cases base.identifier? <;> simp
    rw [typesWithBase_eq]
    simp only [hcount]
  · intro id hid
    have hsome := typeAt?_isSome_of_indexed hid
    exact ⟨hsome, fun h => h.fitsWords_type hsome⟩
  · intro id hid
    have hsome := methodAt?_isSome_of_indexed hid
    exact ⟨hsome, fun h => h.fitsWords_method hsome⟩

end Compilation

/-- A place on one line of a file with three types. -/
def workshopPlace (line first last : Nat) : Location :=
  ⟨"workshop.cs", ⟨line, first⟩, ⟨line, last⟩⟩

def partType : TypeDeclaration :=
  ⟨.interface, [], "IPart", workshopPlace 0 10 15, workshopPlace 0 0 19, none, none, [], []⟩

/-- An abstract class whose second member makes parts. -/
def makerType : TypeDeclaration :=
  ⟨.class, [.abstract], "Maker", workshopPlace 1 15 20, workshopPlace 1 0 80, none, none, [],
    [.field ⟨[.privateAccess], .predefined "int", [⟨"made", none⟩], workshopPlace 2 2 19⟩,
      .method ⟨[.publicAccess, .abstract], "Make", workshopPlace 3 24 28, .simple "IPart", [], none,
        workshopPlace 3 2 31⟩]⟩

/-- A class that lists its interface twice. -/
def gearType : TypeDeclaration :=
  ⟨.class, [], "Gear", workshopPlace 4 6 10, workshopPlace 4 0 30, none, none,
    [.simple "IPart", .simple "IPart"], []⟩

def workshopTree : SourceTree := ⟨"workshop.cs", 0, 0, [], [partType, makerType, gearType]⟩

/-- What the index holds about the interface and the class that lists it. -/
theorem Compilation.lookups_eq_scan_workshop :
    ((ofTrees [workshopTree] true).typesWithBase "IPart").map (·.identifier) = ["Gear", "Gear"] ∧
      ∃ id ∈ (ofTrees [workshopTree] true).index.methodsReturning "IPart",
        ((ofTrees [workshopTree] true).methodAt? id).isSome = true ∧ id.FitsWords := by
  obtain ⟨-, -, -, hbase, -, -, hmethod, -⟩ := lookups_eq_scan (ofTrees [workshopTree] true) "IPart"
  have hplace : ⟨⟨0, 1⟩, 1⟩ ∈ (ofTrees [workshopTree] true).index.methodsReturning "IPart" :=
    mem_getD_buckets.mpr (List.mem_singleton.mpr rfl)
  obtain ⟨hsome, hfits⟩ := hmethod _ (.inr hplace)
  refine ⟨by rw [hbase]; decide, _, hplace, hsome, hfits ?_⟩
  constructor <;> decide

end PatternFinder
