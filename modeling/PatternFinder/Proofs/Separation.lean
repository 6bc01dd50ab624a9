import Mathlib.Data.List.Find
import PatternFinder.Proofs.IndexScan
import PatternFinder.Proofs.Reporting
import PatternFinder.Proofs.Supertypes
import PatternFinder.Proofs.WalkDepth

/-! Files that have no names in common with others leave the outcomes of all checks of the others as
they are, wherever they are put in. -/
namespace PatternFinder

/-- All checks of a declaration. A check that has to know more of the type finds it in the
compilation. -/
def checksAt (c : Compilation) : Site → Option TypeDeclaration → List Check
  | .type t, _ =>
    [.hasPrivateConstructor t, .hasPrivateStaticSelfField t, .hasGetInstanceSelfMethod t,
      .isProductInterface t, .isConcreteProduct t, .hasAbstractClass t,
      .hasPrivateField t (.discover t c), .hasConstructor t (.discover t c)]
  | .field f, _ => [.hasCollection f]
  | .method m, owner =>
    [.isAbstractFactoryMethod m, .overridesAbstractFactoryMethod m] ++
      owner.toList.map fun t => .hasGetMethod m (.collect t c)
  | .local l, _ => [.declarationWithFactoryMethod l, .wrapsInStatement l]
  | _, _ => []

/-- The verdicts that join several checks of a type. -/
def verdictsAt (c : Compilation) : Site → List Outcome
  | .type t => [Singleton.verdict t, Decorator.verdict t c]
  | _ => []

/-- All that is said of a declaration. -/
def outcomesAt (c : Compilation) (site : Site) (owner : Option TypeDeclaration) : List Outcome :=
  (checksAt c site owner).map (·.evaluate c) ++ verdictsAt c site

section Names

variable (trees : List SourceTree)

def typesOf : List TypeDeclaration := trees.flatMap (·.types)

def typeNames : List String := (typesOf trees).map (·.identifier)

def baseNames : List String := (typesOf trees).flatMap (·.baseIdentifiers)

/-- The names that the entries of base lists are looked up by. -/
def baseListNames : List String :=
  (typesOf trees).flatMap fun t => t.baseTypes.filterMap TypeRef.lookupName?

/-- The names that the types of fields are looked up by. -/
def fieldTypeNames : List String :=
  (typesOf trees).flatMap fun t => t.fields.filterMap (·.declaredType.lookupName?)

def methodNames : List String := (typesOf trees).flatMap fun t => t.methods.map (·.identifier)

def returnNames : List String :=
  (typesOf trees).flatMap fun t => t.methods.filterMap (·.returnType.identifier?)

/-- The names that are called anywhere in the body of a member. -/
def calledNames : List String :=
  (typesOf trees).flatMap fun t => (t.members.filterMap Member.body?).flatMap fun b =>
    b.calls.filterMap (·.target)

end Names

/-- Files that declare nothing that some other files look up. -/
structure Unrelated (trees others : List SourceTree) : Prop where
  types : (typeNames others).Disjoint
    (typeNames trees ++ baseNames trees ++ fieldTypeNames trees ++ baseListNames trees)
  bases : (baseNames others).Disjoint (typeNames trees ++ baseNames trees)
  returns : (returnNames others).Disjoint (typeNames trees ++ baseNames trees)
  calls : (methodNames others).Disjoint (calledNames trees)

/-- Files among which others are put in at any places. -/
structure Inserted (trees others whole : List SourceTree) : Prop where
  sublist : trees.Sublist whole
  perm : whole.Perm (trees ++ others)

namespace Inserted

variable {trees others whole : List SourceTree} {semantic : Bool} {name : String}

/-- A scan that finds nothing in the files put in finds the same, in the same order. -/
theorem flatMap_eq {α : Type} (h : Inserted trees others whole) {f : SourceTree → List α}
    (hf : ∀ tree ∈ others, f tree = []) : whole.flatMap f = trees.flatMap f := by
  -- the order is that of a sublist; what the other files add to its length is nothing
  have hsub : (trees.flatMap f).Sublist (whole.flatMap f) := h.sublist.flatMap f
  have hlength := (h.perm.flatMap_right f).length_eq
  rw [List.flatMap_append, List.flatMap_eq_nil_iff.mpr hf, List.append_nil] at hlength
  exact (hsub.eq_of_length hlength.symm).symm

theorem filter_types (h : Inserted trees others whole) {p : TypeDeclaration → Bool}
    (hp : ∀ t ∈ typesOf others, p t = false) :
    (typesOf whole).filter p = (typesOf trees).filter p := by
  unfold typesOf
  rw [List.filter_flatMap, List.filter_flatMap]
  refine h.flatMap_eq fun tree htree => List.filter_eq_nil_iff.mpr fun t ht => ?_
  simp [hp t (List.mem_flatMap.mpr ⟨tree, htree, ht⟩)]

theorem flatMap_types {α : Type} (h : Inserted trees others whole) {f : TypeDeclaration → List α}
    (hf : ∀ t ∈ typesOf others, f t = []) :
    (typesOf whole).flatMap f = (typesOf trees).flatMap f := by
  unfold typesOf
  rw [List.flatMap_assoc, List.flatMap_assoc]
  refine h.flatMap_eq fun tree htree => List.flatMap_eq_nil_iff.mpr fun t ht => ?_
  exact hf t (List.mem_flatMap.mpr ⟨tree, htree, ht⟩)

theorem filter_named (h : Inserted trees others whole) (hn : name ∉ typeNames others) :
    (typesOf whole).filter (·.identifier == name) =
      (typesOf trees).filter (·.identifier == name) := by
  refine h.filter_types fun t ht => ?_
  have hne : t.identifier ≠ name := fun heq => hn (heq ▸ List.mem_map_of_mem ht)
  simpa using hne

theorem typesNamed (h : Inserted trees others whole) (hn : name ∉ typeNames others) :
    (Compilation.ofTrees whole semantic).typesNamed name =
      (Compilation.ofTrees trees semantic).typesNamed name := by
  rw [Compilation.typesNamed_eq, Compilation.typesNamed_eq]
  exact h.filter_named hn

theorem typesWithBase (h : Inserted trees others whole) (hn : name ∉ baseNames others) :
    (Compilation.ofTrees whole semantic).typesWithBase name =
      (Compilation.ofTrees trees semantic).typesWithBase name := by
  rw [Compilation.typesWithBase_eq, Compilation.typesWithBase_eq]
  refine h.flatMap_types fun t ht => ?_
  have hbase : name ∉ t.baseIdentifiers := fun hb => hn (List.mem_flatMap.mpr ⟨t, ht, hb⟩)
  rw [List.count_eq_zero.mpr hbase]
  rfl

theorem filter_methods (h : Inserted trees others whole) {p : MethodDeclaration → Bool}
    (hp : ∀ t ∈ typesOf others, ∀ m ∈ t.methods, p m = false) :
    (Compilation.ofTrees whole semantic).methods.filter p =
      (Compilation.ofTrees trees semantic).methods.filter p := by
  unfold Compilation.methods
  rw [List.filter_flatMap, List.filter_flatMap]
  refine h.flatMap_types fun t ht => List.filter_eq_nil_iff.mpr fun m hm => ?_
  simp [hp t ht m hm]

theorem methodsNamed (h : Inserted trees others whole) (hn : name ∉ methodNames others) :
    (Compilation.ofTrees whole semantic).methodsNamed name =
      (Compilation.ofTrees trees semantic).methodsNamed name := by
  rw [Compilation.methodsNamed_eq, Compilation.methodsNamed_eq]
  refine h.filter_methods fun t ht m hm => ?_
  have hne : m.identifier ≠ name := fun heq =>
    hn (List.mem_flatMap.mpr ⟨t, ht, heq ▸ List.mem_map_of_mem hm⟩)
  simpa using hne

theorem methodsReturning (h : Inserted trees others whole) (hn : name ∉ returnNames others) :
    (Compilation.ofTrees whole semantic).methodsReturning name =
      (Compilation.ofTrees trees semantic).methodsReturning name := by
  rw [Compilation.methodsReturning_eq, Compilation.methodsReturning_eq]
  refine h.filter_methods fun t ht m hm => ?_
  have hne : m.returnType.identifier? ≠ some name := fun heq =>
    hn (List.mem_flatMap.mpr ⟨t, ht, List.mem_filterMap.mpr ⟨m, hm, heq⟩⟩)
  simpa using hne

/-- The semantic models agree on all names that the files put in do not declare. -/
theorem agreeOn (h : Inserted trees others whole) (hr : Unrelated trees others) :
    Semantics.AgreeOn (· ∉ typeNames others) (.ofTrees trees) (.ofTrees whole) where
  bases name hn := by
    have hfilter := h.filter_named hn
    unfold typesOf at hfilter
    rw [Semantics.ofTrees, Semantics.ofTrees, Semantics.bases?_ofTypes, Semantics.bases?_ofTypes,
      hfilter]
  closed name _ t ht n hlookup hn := by
    rw [Semantics.ofTrees, Semantics.baseList_ofTypes] at ht
    obtain ⟨declared, hdeclared, ht⟩ := List.mem_flatMap.mp ht
    have hlisted : n ∈ baseListNames trees :=
      List.mem_flatMap.mpr ⟨declared, (List.mem_filter.mp hdeclared).1,
        List.mem_filterMap.mpr ⟨t, ht, hlookup⟩⟩
    exact hr.types hn (List.mem_append_right _ hlisted)

end Inserted

theorem Activation.tops_subset_visits (a : Activation) : a.tops ⊆ a.visits := by
  have hnode : ∀ (b : Activation) (top : BodyNode), b.node? = some top → top ∈ b.visits := by
    intro b top hb
    rw [b.visits_eq, hb]
    exact List.mem_append_left _ List.mem_cons_self
  rcases a with ss | s | e <;> intro top htop
  · obtain ⟨s, hs, rfl⟩ := List.mem_map.mp htop
    rw [visits_eq]
    exact List.mem_flatMap.mpr ⟨.statement s, List.mem_map_of_mem hs, hnode _ _ rfl⟩
  · exact hnode _ _ (by rw [List.mem_singleton.mp htop]; rfl)
  · exact hnode _ _ (by rw [List.mem_singleton.mp htop]; rfl)

/-- What a walk meets includes what is directly in the nodes that it meets. -/
theorem Activation.mem_visits_of_child {a : Activation} {n child : BodyNode} (hn : n ∈ a.visits)
    (hc : child ∈ n.children) : child ∈ a.visits := by
  induction a using Activation.induction with
  | step a ih =>
    rw [a.visits_eq] at hn ⊢
    refine List.mem_append_right _ (List.mem_flatMap.mpr ?_)
    rcases List.mem_append.mp hn with hself | hrest
    · rw [children_eq (Option.mem_toList.mp hself)] at hc
      obtain ⟨b, hb, hc⟩ := List.mem_flatMap.mp hc
      exact ⟨b, hb, b.tops_subset_visits hc⟩
    · obtain ⟨b, hb, hn⟩ := List.mem_flatMap.mp hrest
      exact ⟨b, hb, ih b hb hn⟩

/-- A call that is the initial value of a local variable is a call of the body. -/
theorem Block.mem_calls_of_initializer {b : Block} {l : LocalDeclaration} {e : Expression}
    {x : Invocation} (hl : l ∈ b.locals) (he : e ∈ l.initializers) (hx : e.asCall? = some x) :
    x ∈ b.calls := by
  obtain ⟨n, hn, hlocal⟩ := List.mem_filterMap.mp hl
  have hdeclare := BodyNode.local?_eq_some_iff.mp hlocal
  have hcall : e = .call x := by cases e <;> simp_all [Expression.asCall?]
  subst hdeclare hcall
  have hchild : BodyNode.expression (.call x) ∈ (BodyNode.statement (.declare l)).children :=
    List.mem_map_of_mem he
  exact List.mem_filterMap.mpr
    ⟨_, Activation.mem_visits_of_child (a := .statements b.statements) hn hchild, rfl⟩

namespace Unrelated

variable {trees others : List SourceTree} {t : TypeDeclaration} {name : String}

theorem not_declared_of_base (h : Unrelated trees others) (ht : t ∈ typesOf trees)
    (hn : name ∈ t.baseIdentifiers) : name ∉ typeNames others := by
  intro hdeclared
  have hbase : name ∈ baseNames trees := List.mem_flatMap.mpr ⟨t, ht, hn⟩
  exact h.types hdeclared (by simp [hbase])

theorem not_listed_of_base (h : Unrelated trees others) (ht : t ∈ typesOf trees)
    (hn : name ∈ t.baseIdentifiers) : name ∉ baseNames others := by
  intro hlisted
  have hbase : name ∈ baseNames trees := List.mem_flatMap.mpr ⟨t, ht, hn⟩
  exact h.bases hlisted (by simp [hbase])

theorem not_returned (h : Unrelated trees others) (ht : t ∈ typesOf trees) :
    t.identifier ∉ returnNames others := by
  intro hreturned
  have hname : t.identifier ∈ typeNames trees := List.mem_map_of_mem ht
  exact h.returns hreturned (by simp [hname])

theorem not_declared_of_field (h : Unrelated trees others) {f : FieldDeclaration}
    (ht : t ∈ typesOf trees) (hf : f ∈ t.fields)
    (hn : f.declaredType.lookupName? = some name) : name ∉ typeNames others := by
  intro hdeclared
  have hfield : name ∈ fieldTypeNames trees :=
    List.mem_flatMap.mpr ⟨t, ht, List.mem_filterMap.mpr ⟨f, hf, hn⟩⟩
  exact h.types hdeclared (by simp [hfield])

theorem not_declared_of_call (h : Unrelated trees others) {m : Member} {b : Block}
    {x : Invocation} (ht : t ∈ typesOf trees) (hm : m ∈ t.members) (hb : m.body? = some b)
    (hx : x ∈ b.calls) (hn : x.target = some name) : name ∉ methodNames others := by
  intro hdeclared
  refine h.calls hdeclared (List.mem_flatMap.mpr ⟨t, ht, List.mem_flatMap.mpr ⟨b, ?_, ?_⟩⟩)
  · exact List.mem_filterMap.mpr ⟨m, hm, hb⟩
  · exact List.mem_filterMap.mpr ⟨x, hx, hn⟩

end Unrelated

section Outcomes

variable {trees others whole : List SourceTree} {semantic : Bool} {t : TypeDeclaration}

theorem Inserted.hasAbstractClass (h : Inserted trees others whole) (hr : Unrelated trees others)
    (ht : t ∈ typesOf trees) :
    Decorator.hasAbstractClass t (.ofTrees whole semantic) =
      Decorator.hasAbstractClass t (.ofTrees trees semantic) := by
  unfold Decorator.hasAbstractClass
  rw [List.find?_congr fun base hbase => by
    rw [h.typesNamed (hr.not_declared_of_base ht hbase),
      h.typesWithBase (hr.not_listed_of_base ht hbase)]]

theorem Inserted.discover (h : Inserted trees others whole) (hr : Unrelated trees others)
    (ht : t ∈ typesOf trees) :
    Decorator.Context.discover t (.ofTrees whole semantic) =
      Decorator.Context.discover t (.ofTrees trees semantic) := by
  unfold Decorator.Context.discover
  rw [h.hasAbstractClass hr ht]

theorem Inserted.isProductInterface (h : Inserted trees others whole) (hr : Unrelated trees others)
    (ht : t ∈ typesOf trees) :
    FactoryMethod.isProductInterface t (.ofTrees whole semantic) =
      FactoryMethod.isProductInterface t (.ofTrees trees semantic) := by
  unfold FactoryMethod.isProductInterface
  rw [h.methodsReturning (hr.not_returned ht)]

theorem Inserted.isConcreteProduct (h : Inserted trees others whole) (hr : Unrelated trees others)
    (ht : t ∈ typesOf trees) :
    FactoryMethod.isConcreteProduct t (.ofTrees whole semantic) =
      FactoryMethod.isConcreteProduct t (.ofTrees trees semantic) := by
  have hany : ∀ base ∈ t.baseIdentifiers,
      ((Compilation.ofTrees whole semantic).typesNamed base).any
          (FactoryMethod.isProductInterface · (.ofTrees whole semantic) |>.matched) =
        ((Compilation.ofTrees trees semantic).typesNamed base).any
          (FactoryMethod.isProductInterface · (.ofTrees trees semantic) |>.matched) := by
    intro base hbase
    rw [h.typesNamed (hr.not_declared_of_base ht hbase), List.any_eq, List.any_eq,
      decide_eq_decide]
    refine exists_congr fun s => and_congr_right fun hs => ?_
    rw [h.isProductInterface hr (Compilation.mem_typesNamed.mp hs).1]
  unfold FactoryMethod.isConcreteProduct
  rw [List.find?_congr hany]

theorem Inserted.declarationWithFactoryMethod (h : Inserted trees others whole)
    (hr : Unrelated trees others) {m : Member} {b : Block} {l : LocalDeclaration}
    (ht : t ∈ typesOf trees) (hm : m ∈ t.members) (hb : m.body? = some b) (hl : l ∈ b.locals) :
    FactoryMethod.declarationWithFactoryMethod l (.ofTrees whole semantic) =
      FactoryMethod.declarationWithFactoryMethod l (.ofTrees trees semantic) := by
  have hcall : ∀ e ∈ l.initializers, FactoryMethod.factoryCall? (.ofTrees whole semantic) e =
      FactoryMethod.factoryCall? (.ofTrees trees semantic) e := by
    intro e he
    unfold FactoryMethod.factoryCall?
    cases hx : e.asCall? with
    | none => rfl
    | some x =>
      rw [Option.bind_some]
      cases hn : x.target with
      | none => rfl
      | some name =>
        have hcalled := Block.mem_calls_of_initializer hl he hx
        rw [Option.filter_some, Option.filter_some,
          h.methodsNamed (hr.not_declared_of_call ht hm hb hcalled hn)]
  unfold FactoryMethod.declarationWithFactoryMethod
  rw [← List.head?_filterMap, List.filterMap_congr hcall, List.head?_filterMap]

theorem Inserted.hasCollection (h : Inserted trees others whole) (hr : Unrelated trees others)
    {f : FieldDeclaration} (ht : t ∈ typesOf trees) (hf : f ∈ t.fields) :
    Flyweight.hasCollection f (.ofTrees whole semantic) =
      Flyweight.hasCollection f (.ofTrees trees semantic) := by
  have hfield : ∀ name, f.declaredType.lookupName? = some name → name ∉ typeNames others :=
    fun _ => hr.not_declared_of_field ht hf
  have hagree := h.agreeOn hr
  cases semantic with
  | false => rfl
  | true =>
    show Flyweight.hasCollection f (.ofTrees whole true) =
      Flyweight.hasCollection f (.ofTrees trees true)
    simp only [Flyweight.hasCollection, Compilation.ofTrees, if_true]
    rw [hagree.isCollection hfield, hagree.elementType hfield]

theorem Inserted.collect (h : Inserted trees others whole) (hr : Unrelated trees others)
    (ht : t ∈ typesOf trees) :
    Flyweight.Context.collect t (.ofTrees whole semantic) =
      Flyweight.Context.collect t (.ofTrees trees semantic) := by
  unfold Flyweight.Context.collect
  rw [List.map_congr_left fun f hf => h.hasCollection hr ht hf]

end Outcomes

/-- Unrelated files change nothing. Whatever is said of a declaration of some files is said of it,
with the same place and the same evidence, when files that have no names in common with them are put
in anywhere. -/
theorem outcomesAt_of_unrelated {trees others whole : List SourceTree}
    (hinserted : Inserted trees others whole) (hr : Unrelated trees others) (semantic : Bool)
    {site : Site} {owner : Option TypeDeclaration}
    (hd : Declared (.ofTrees trees semantic) site owner) :
    outcomesAt (.ofTrees whole semantic) site owner =
      outcomesAt (.ofTrees trees semantic) site owner := by
  cases hd with
  | type ht =>
    simp only [outcomesAt, checksAt, verdictsAt, Decorator.verdict, List.map_cons, List.map_nil,
      Check.evaluate]
    rw [hinserted.discover hr ht, hinserted.hasAbstractClass hr ht,
      hinserted.isProductInterface hr ht, hinserted.isConcreteProduct hr ht]
  | @member t m ht hm =>
    cases m with
    | field f =>
      have hf : f ∈ t.fields := List.mem_filterMap.mpr ⟨.field f, hm, rfl⟩
      simp only [Site.ofMember, outcomesAt, checksAt, verdictsAt, List.map_cons, List.map_nil,
        Check.evaluate]
      rw [hinserted.hasCollection hr ht hf]
    | method m =>
      simp only [Site.ofMember, outcomesAt, checksAt, verdictsAt, Option.toList_some,
        List.map_append, List.map_cons, List.map_nil, Check.evaluate]
      rw [hinserted.collect hr ht]
    | constructor | property => rfl
  | «local» ht hm hb hl =>
    simp only [outcomesAt, checksAt, verdictsAt, List.map_cons, List.map_nil, Check.evaluate]
    rw [hinserted.declarationWithFactoryMethod hr ht hm hb hl]

/-- Something that hands out tiles. -/
def shapeType : TypeDeclaration :=
  let place (first last : Nat) : Location := ⟨"frame.cs", ⟨0, first⟩, ⟨0, last⟩⟩
  ⟨.interface, [], "Shape", place 10 15, place 0 60, none, none, [],
    [.method ⟨[.abstract], "Tile", place 25 29, .simple "Tile", [], none, place 20 40⟩]⟩

/-- A frame around a shape. It keeps a list of tiles and takes one from the shape. -/
def frameType : TypeDeclaration :=
  let place (line first last : Nat) : Location := ⟨"frame.cs", ⟨line, first⟩, ⟨line, last⟩⟩
  ⟨.class, [], "Frame", place 1 6 11, place 1 0 90, none, none, [.simple "Shape"],
    [.field ⟨[.privateAccess], .simple "Shape", [⟨"inner", none⟩], place 2 2 30⟩,
      .field ⟨[.privateAccess], .generic "List" [.simple "Tile"], [⟨"tiles", none⟩], place 3 2 30⟩,
      .constructor ⟨[.publicAccess], "Frame", [⟨"inner", some (.simple "Shape")⟩],
        some ⟨[.declare ⟨none, [⟨"tile", some (.call ⟨some "Tile", none, [], place 4 30 36⟩)⟩],
          place 4 20 40⟩]⟩, place 4 2 50⟩]⟩

def frameTree : SourceTree := ⟨"frame.cs", 0, 0, [], [shapeType, frameType]⟩

/-- A frame is a decorator, and singletons before and behind it do not change that. -/
theorem outcomesAt_of_unrelated_frame :
    Decorator.verdict frameType (.ofTrees [frameTree] true) =
        .found frameType.identifierLocation (some "Shape") ∧
      outcomesAt (.ofTrees [soloTree "a.cs", frameTree, soloTree "b.cs"] true)
          (.type frameType) none =
        outcomesAt (.ofTrees [frameTree] true) (.type frameType) none := by
  have hinserted : Inserted [frameTree] [soloTree "a.cs", soloTree "b.cs"]
      [soloTree "a.cs", frameTree, soloTree "b.cs"] :=
    ⟨.cons _ (.cons_cons _ (List.nil_sublist _)), .swap _ _ _⟩
  have hunrelated : Unrelated [frameTree] [soloTree "a.cs", soloTree "b.cs"] := by
    constructor <;> rw [List.disjoint_left] <;> decide
  have hdeclared : Declared (.ofTrees [frameTree] true) (.type frameType) none :=
    .type (List.mem_cons_of_mem _ List.mem_cons_self)
  refine ⟨?_, outcomesAt_of_unrelated hinserted hunrelated true hdeclared⟩
  simp only [Decorator.verdict, Decorator.Context.discover, Decorator.hasAbstractClass,
    Compilation.typesNamed_eq, Compilation.typesWithBase_eq]
  decide

end PatternFinder
