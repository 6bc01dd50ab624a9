import PatternFinder.Proofs.Reporting
import PatternFinder.Proofs.SourceLocations

/-! The local declarations and the constructions that an analysis visits are those in the bodies of
members. The initial values of fields are not gone into. -/
namespace PatternFinder

/-- A local declaration or a construction, as a declaration to visit. -/
def BodyNode.site? (n : BodyNode) : Option Site :=
  (n.local?.map Site.local).or (n.creation?.map Site.creation)

theorem BodyNode.site?_eq_none_iff {n : BodyNode} :
    n.site? = none ↔ n.local? = none ∧ n.creation? = none := by
  simp [site?]

namespace Site

/-- Declarations that stand within other members, unlike types and members themselves. -/
def isInner (s : Site) : Bool := s.kind == .local || s.kind == .creation

theorem isInner_type (t : TypeDeclaration) : isInner (.type t) = false := by
  cases h : t.isInterface <;> simp [isInner, kind, h]

theorem isInner_ofMember (m : Member) : isInner (.ofMember m) = false := by
  cases m <;> rfl

theorem ofBodyNode?_eq (n : BodyNode) : ofBodyNode? n = n.site? := by
  rcases n with (_ | _ | _) | (_ | _ | _ | _ | _ | _) <;> rfl

theorem isInner_of_site? {n : BodyNode} {s : Site} (h : n.site? = some s) : s.isInner = true := by
  rw [← ofBodyNode?_eq] at h
  obtain ⟨l, -, rfl⟩ | ⟨x, -, rfl⟩ := ofBodyNode?_eq_some_iff.mp h <;> rfl

end Site

namespace Member

/-- What a walk over the body of a member meets. -/
def bodyWalk (m : Member) : List BodyNode := m.body?.elim [] Block.walk

/-- What a walk over the initial values of a field meets. -/
def initialWalk (m : Member) : List BodyNode :=
  m.field?.elim [] fun f => Declarator.walkAll f.declarators

theorem walk_eq_append (m : Member) : m.walk = m.bodyWalk ++ m.initialWalk := by
  cases m with
  | field f => rfl
  | _ => exact (List.append_nil _).symm

end Member

theorem filter_memberSites (m : Member) :
    (memberSites m).filter Site.isInner = m.bodyWalk.filterMap BodyNode.site? := by
  have hsites : ∀ ns : List BodyNode,
      (ns.filterMap BodyNode.site?).filter Site.isInner = ns.filterMap BodyNode.site? := by
    intro ns
    refine List.filter_eq_self.mpr fun s hs => ?_
    obtain ⟨n, -, hn⟩ := List.mem_filterMap.mp hs
    exact Site.isInner_of_site? hn
  have hnode : Site.ofBodyNode? = BodyNode.site? := funext Site.ofBodyNode?_eq
  unfold memberSites Member.bodyWalk
  rw [List.filter_cons_of_neg (by simp [Site.isInner_ofMember]), hnode]
  cases m.body? with
  | none => rfl
  | some b => exact hsites b.walk

/-- All members of a compilation with their files and types, in their order. -/
def placedMembers (c : Compilation) : List (SourceTree × TypeDeclaration × Member) :=
  c.trees.flatMap fun tree => tree.types.flatMap fun t => t.members.map (tree, t, ·)

/-- The work that it is to visit some declarations of each member. -/
def memberItems (c : Compilation) (sites : Member → List Site) : List WorkItem :=
  (placedMembers c).flatMap fun (tree, t, m) => (sites m).map (⟨tree, ·, some t⟩)

section Items

variable {c : Compilation} {subscribed : SiteKind → Bool}

private theorem mem_placedMembers_iff {tree : SourceTree} {t : TypeDeclaration} {m : Member} :
    (tree, t, m) ∈ placedMembers c ↔ tree ∈ c.trees ∧ t ∈ tree.types ∧ m ∈ t.members := by
  simp only [placedMembers, List.mem_flatMap, List.mem_map, Prod.mk.injEq]
  constructor
  · rintro ⟨_, htree, _, ht, _, hm, rfl, rfl, rfl⟩
    exact ⟨htree, ht, hm⟩
  · rintro ⟨htree, ht, hm⟩
    exact ⟨tree, htree, t, ht, m, hm, rfl, rfl, rfl⟩

theorem memberItems_eq_nil_iff {sites : Member → List Site} :
    memberItems c sites = [] ↔ ∀ t ∈ c.types, ∀ m ∈ t.members, sites m = [] := by
  simp only [memberItems, List.flatMap_eq_nil_iff, List.map_eq_nil_iff, Prod.forall,
    mem_placedMembers_iff, mem_types_iff]
  constructor
  · rintro h t ⟨tree, htree, ht⟩ m hm
    exact h tree t m ⟨htree, ht, hm⟩
  · rintro h tree t m ⟨htree, ht, hm⟩
    exact h t ⟨tree, htree, ht⟩ m hm

theorem memberItems_append_perm (f g : Member → List Site) :
    (memberItems c f ++ memberItems c g).Perm (memberItems c fun m => f m ++ g m) := by
  simp only [memberItems, List.map_append]
  exact List.flatMap_append_perm _ _ _

/-- The inner declarations that are visited are those that the walks over bodies meet. -/
theorem inner_workItems_eq (hlocal : subscribed .local = true)
    (hcreation : subscribed .creation = true) :
    (workItems c subscribed).filter (·.site.isInner) =
      memberItems c fun m => m.bodyWalk.filterMap BodyNode.site? := by
  have hsubscribed : ∀ item : WorkItem,
      (item.site.isInner && subscribed item.site.kind) = item.site.isInner := by
    intro item
    unfold Site.isInner
    cases item.site.kind <;> simp [hlocal, hcreation]
  have hitems : ∀ tree t, (typeItems tree t).filter (·.site.isInner) =
      t.members.flatMap fun m =>
        (m.bodyWalk.filterMap BodyNode.site?).map (⟨tree, ·, some t⟩ : Site → WorkItem) := by
    intro tree t
    rw [typeItems, List.filter_cons_of_neg (by simp [Site.isInner_type]), List.filter_map,
      ← List.map_flatMap]
    congr 1
    refine List.filter_flatMap.trans ?_
    simp only [← filter_memberSites]
    rfl
  unfold workItems memberItems placedMembers
  rw [List.filter_filter]
  simp only [hsubscribed, List.filter_flatMap, hitems, List.flatMap_assoc, List.flatMap_map]

private theorem initialWalk_sites_eq_nil_iff :
    (∀ t ∈ c.types, ∀ m ∈ t.members, m.initialWalk.filterMap BodyNode.site? = []) ↔
      ∀ t ∈ c.types, ∀ f ∈ t.fields, ∀ n ∈ Declarator.walkAll f.declarators,
        n.local? = none ∧ n.creation? = none := by
  simp only [List.filterMap_eq_nil_iff, BodyNode.site?_eq_none_iff]
  constructor
  · intro h t ht f hf
    obtain ⟨m, hm, hfield⟩ := List.mem_filterMap.mp hf
    have hwalk := h t ht m hm
    rwa [Member.initialWalk, hfield] at hwalk
  · intro h t ht m hm
    unfold Member.initialWalk
    cases hfield : m.field? with
    | none => exact fun n hn => absurd hn List.not_mem_nil
    | some f => exact h t ht f (List.mem_filterMap.mpr ⟨m, hm, hfield⟩)

/-- With both kinds subscribed, the local declarations and the constructions that are visited are
those that the walks over the bodies of members meet, each once and in their order. They are all
that the walks over members meet exactly when these meet none in the initial values of fields. -/
theorem inner_items_of_bodies (c : Compilation) (subscribed : SiteKind → Bool)
    (hlocal : subscribed .local = true) (hcreation : subscribed .creation = true) :
    (workItems c subscribed).filter (·.site.isInner) =
        memberItems c (fun m => m.bodyWalk.filterMap BodyNode.site?) ∧
      (((workItems c subscribed).filter (·.site.isInner)).Perm
          (memberItems c fun m => m.walk.filterMap BodyNode.site?) ↔
        ∀ t ∈ c.types, ∀ f ∈ t.fields, ∀ n ∈ Declarator.walkAll f.declarators,
          n.local? = none ∧ n.creation? = none) := by
  have hbodies := inner_workItems_eq (c := c) hlocal hcreation
  refine ⟨hbodies, ?_⟩
  rw [hbodies, ← initialWalk_sites_eq_nil_iff, ← memberItems_eq_nil_iff]
  have hsplit := memberItems_append_perm (c := c) (fun m => m.bodyWalk.filterMap BodyNode.site?)
    fun m => m.initialWalk.filterMap BodyNode.site?
  simp only [← List.filterMap_append, ← Member.walk_eq_append] at hsplit
  constructor
  · intro hperm
    have hlength := (hperm.trans hsplit.symm).length_eq
    rw [List.length_append] at hlength
    exact List.eq_nil_of_length_eq_zero (by omega)
  · intro hnone
    rwa [hnone, List.append_nil] at hsplit

end Items

section Garage

def garagePlace (first last : Nat) : Location := ⟨"A.cs", ⟨0, first⟩, ⟨0, last⟩⟩

/-- The variable `q = new B()`. -/
def built : Declarator :=
  ⟨"q", some (.creation ⟨some (.simple "B"), [], [], garagePlace 16 23⟩)⟩

/-- A class with one member. -/
def garage (m : Member) : Compilation :=
  .ofTrees [⟨"A.cs", 0, 0, [],
    [⟨.class, [], "A", garagePlace 6 7, garagePlace 0 26, none, none, [], [m]⟩]⟩] true

/-- The variable in the body of a method, where it and its construction are visited. -/
def builtInBody : Member :=
  .method ⟨[], "F", garagePlace 8 9, .predefined "void", [],
    some ⟨[.declare ⟨some (.simple "B"), [built], garagePlace 10 24⟩]⟩, garagePlace 8 25⟩

theorem inner_items_of_bodies_method :
    ((workItems (garage builtInBody) fun _ => true).filter (·.site.isInner)).map
        (·.site.location) = [garagePlace 10 24, garagePlace 16 23] ∧
      ((workItems (garage builtInBody) fun _ => true).filter (·.site.isInner)).Perm
        (memberItems (garage builtInBody) fun m => m.walk.filterMap BodyNode.site?) := by
  obtain ⟨hbodies, hall⟩ := inner_items_of_bodies (garage builtInBody) (fun _ => true) rfl rfl
  refine ⟨by rw [hbodies]; rfl, hall.mpr ?_⟩
  intro t ht f hf
  obtain rfl := List.mem_singleton.mp ht
  cases hf

/-- The variable as a field. -/
def builtInField : Member :=
  .field ⟨[], .simple "B", [built], garagePlace 10 24⟩

/-- The construction that a field starts with is met by the walk over the field and not visited. -/
theorem field_construction_not_visited :
    (workItems (garage builtInField) fun _ => true).filter (·.site.isInner) = [] ∧
      (memberItems (garage builtInField) fun m => m.walk.filterMap BodyNode.site?).map
        (·.site.location) = [garagePlace 16 23] ∧
      ¬ ((workItems (garage builtInField) fun _ => true).filter (·.site.isInner)).Perm
        (memberItems (garage builtInField) fun m => m.walk.filterMap BodyNode.site?) := by
  have hvisited : (workItems (garage builtInField) fun _ => true).filter (·.site.isInner) = [] :=
    rfl
  refine ⟨hvisited, rfl, fun hperm => ?_⟩
  rw [hvisited, List.nil_perm] at hperm
  exact absurd (congrArg List.length hperm) (by decide)

end Garage

end PatternFinder
