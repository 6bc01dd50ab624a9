import PatternFinder.Proofs.Separation
import PatternFinder.Proofs.Support

/-! A method that hands out elements of a pool: what it has to construct and where, and which of the
three outcomes the fields of its type lead to. -/
namespace PatternFinder

/-- One node stands directly in another. -/
def BodyNode.Holds (n child : BodyNode) : Prop := child ∈ n.children

/-- One node stands below another, however deep. -/
def BodyNode.HoldsBelow : BodyNode → BodyNode → Prop := Relation.TransGen BodyNode.Holds

/-- A node stands in a body. It is a statement of the body or stands below one. -/
def Block.Contains (b : Block) (n : BodyNode) : Prop :=
  ∃ s ∈ b.statements, Relation.ReflTransGen BodyNode.Holds (.statement s) n

namespace Activation

theorem mem_visits_of_reflTransGen {a : Activation} {n x : BodyNode} (hn : n ∈ a.visits)
    (hx : Relation.ReflTransGen BodyNode.Holds n x) : x ∈ a.visits := by
  induction hx with
  | refl => exact hn
  | tail _ hstep ih => exact mem_visits_of_child ih hstep

theorem mem_tops_of_node? {a : Activation} {n : BodyNode} (h : a.node? = some n) : n ∈ a.tops := by
  cases a with
  | statements ss => cases h
  | statement s => exact List.mem_singleton.mpr (Option.some.inj h).symm
  | expression e => exact List.mem_singleton.mpr (Option.some.inj h).symm

/-- A walk meets what stands at its start and what stands below that, and nothing else. -/
theorem mem_visits_iff {a : Activation} {x : BodyNode} :
    x ∈ a.visits ↔ ∃ top ∈ a.tops, Relation.ReflTransGen BodyNode.Holds top x := by
  constructor
  · intro hx
    induction a using Activation.induction with
    | step a ih =>
      rw [a.visits_eq] at hx
      rcases List.mem_append.mp hx with hself | hrest
      · exact ⟨x, mem_tops_of_node? (Option.mem_toList.mp hself), .refl⟩
      obtain ⟨b, hb, hx⟩ := List.mem_flatMap.mp hrest
      obtain ⟨top, htop, hreach⟩ := ih b hb hx
      cases hnode : a.node? with
      | some n =>
        have hchild : top ∈ n.children := by
          rw [children_eq hnode]
          exact List.mem_flatMap.mpr ⟨b, hb, htop⟩
        exact ⟨n, mem_tops_of_node? hnode, .head hchild hreach⟩
      | none =>
        -- only a row of statements visits no node, and its calls start where it starts
        cases a with
        | statements ss =>
          obtain ⟨s, hs, rfl⟩ := List.mem_map.mp hb
          obtain rfl := List.mem_singleton.mp htop
          exact ⟨_, List.mem_map_of_mem hs, hreach⟩
        | statement s => cases hnode
        | expression e => cases hnode
  · rintro ⟨top, htop, hreach⟩
    exact mem_visits_of_reflTransGen (a.tops_subset_visits htop) hreach

/-- The calls that a call makes meet what stands below its node. -/
theorem mem_calls_visits_iff {a : Activation} {n x : BodyNode} (h : a.node? = some n) :
    x ∈ a.calls.flatMap visits ↔ n.HoldsBelow x := by
  rw [BodyNode.HoldsBelow, Relation.TransGen.head'_iff]
  simp only [List.mem_flatMap, mem_visits_iff, BodyNode.Holds, children_eq h]
  constructor
  · rintro ⟨b, hb, top, htop, hreach⟩
    exact ⟨top, ⟨b, hb, htop⟩, hreach⟩
  · rintro ⟨top, ⟨b, hb, htop⟩, hreach⟩
    exact ⟨b, hb, top, htop, hreach⟩

end Activation

theorem Block.mem_walk_iff {b : Block} {x : BodyNode} : x ∈ b.walk ↔ b.Contains x := by
  refine (Activation.mem_visits_iff (a := .statements b.statements)).trans ?_
  simp [Activation.tops, Block.Contains]

theorem Block.mem_branches_iff {b : Block} {branch : Conditional} :
    branch ∈ b.branches ↔ b.Contains (.statement (.branch branch)) := by
  rw [← Block.mem_walk_iff, Block.branches, List.mem_filterMap]
  simp only [BodyNode.branch?_eq_some_iff, exists_eq_right]

/-- The constructions of an `if` statement are those that stand below it. -/
theorem Conditional.mem_creations_iff {branch : Conditional} {x : ObjectCreation} :
    x ∈ branch.creations ↔
      (BodyNode.statement (.branch branch)).HoldsBelow (.expression (.creation x)) := by
  have hcreations : branch.creations = ((Activation.statement (.branch branch)).calls.flatMap
      Activation.visits).filterMap BodyNode.creation? := by
    rcases branch with ⟨_ | condition, consequence, alternative, location⟩ <;>
      simp [Conditional.creations, Activation.calls, Activation.visits, Expression.walkOption]
  have hnode : (Activation.statement (.branch branch)).node? = some (.statement (.branch branch)) :=
    rfl
  rw [hcreations, List.mem_filterMap, ← Activation.mem_calls_visits_iff hnode]
  simp only [BodyNode.creation?_eq_some_iff, exists_eq_right]

namespace Flyweight

/-- Below some `if` statement of a body, an object of a type with the name is constructed. -/
def BuildsBelowIf (b : Block) (name : String) : Prop :=
  ∃ branch, b.Contains (.statement (.branch branch)) ∧
    ∃ x : ObjectCreation, (BodyNode.statement (.branch branch)).HoldsBelow
        (.expression (.creation x)) ∧
      ∃ type, x.createdType = some type ∧ type.simpleName? = some name

/-- A public method returns a type with the name, other than `void`, and constructs one below some
`if` statement. -/
structure Offers (m : MethodDeclaration) (name : String) : Prop where
  isPublic : m.modifiers.isPublic = true
  notVoid : m.returnType.isVoid = false
  returns : m.returnType.simpleName? = some name
  builds : ∃ b, m.body = some b ∧ BuildsBelowIf b name

section Fields

variable (c : Compilation) (t : TypeDeclaration)

/-- Some field of a type is a collection of elements with the name. -/
def KeepsPool (name : String) : Prop :=
  ∃ f ∈ t.fields, hasCollection f c = .found f.location (some name)

/-- For some field of a type it cannot be told whether it is a collection, or of what. -/
def LeavesOpen : Prop := ∃ f ∈ t.fields, (hasCollection f c).isUnsupported = true

end Fields

variable {c : Compilation} {t : TypeDeclaration} {m : MethodDeclaration} {name : String}

theorem createsConditionally_iff {b : Block} :
    createsConditionally b name = true ↔ BuildsBelowIf b name := by
  simp only [createsConditionally, List.any_eq_true, beq_iff_eq, Option.bind_eq_some_iff,
    Block.mem_branches_iff, Conditional.mem_creations_iff, BuildsBelowIf]

theorem hasGetMethod_of_offers (h : Offers m name) (context : Context) :
    hasGetMethod m context =
      if context.tracks name then .found m.identifierLocation (some name)
      else if 0 < context.unresolved then .unsupported (.unresolvedElementType name)
      else .notFound := by
  obtain ⟨b, hbody, hbuilds⟩ := h.builds
  simp [hasGetMethod, h.isPublic, h.notVoid, h.returns, hbody,
    createsConditionally_iff.mpr hbuilds]

/-- Where the method offers nothing, the check does not get as far as the fields. -/
theorem exists_offers_of_ne {context : Context} (h : hasGetMethod m context ≠ .notFound) :
    ∃ name, Offers m name := by
  have hoffers : ∀ {b returned}, ¬ (!m.modifiers.isPublic || m.returnType.isVoid) = true →
      m.body = some b → m.returnType.simpleName? = some returned →
      ¬ (!createsConditionally b returned) = true → Offers m returned := by
    intro b returned hguard hbody hreturns hbuilds
    rw [Bool.or_eq_true, not_or, Bool.not_eq_true', Bool.not_eq_false, Bool.not_eq_true] at hguard
    rw [Bool.not_eq_true', Bool.not_eq_false] at hbuilds
    exact ⟨hguard.1, hguard.2, hreturns, b, hbody, createsConditionally_iff.mp hbuilds⟩
  revert h
  fun_cases hasGetMethod m context with
  | case3 hguard b returned hreturns hbody hbuilds =>
    exact fun _ => ⟨returned, hoffers hguard hbody hreturns hbuilds⟩
  | case4 hguard b returned hreturns hbody hbuilds =>
    exact fun _ => ⟨returned, hoffers hguard hbody hreturns hbuilds⟩
  | _ => exact fun hne => absurd rfl hne

theorem tracks_collect_iff : (Context.collect t c).tracks name = true ↔ KeepsPool c t name := by
  constructor
  · intro htracks
    obtain ⟨f, hf, hfound, hevidence⟩ := exists_field_of_tracks htracks
    have hplace := (hasCollection_placedAt f c).location_of_found hfound
    exact ⟨f, hf, by rw [Outcome.eq_found hfound hplace, hevidence]⟩
  · rintro ⟨f, hf, hfound⟩
    refine List.contains_iff_mem.mpr (List.mem_eraseDups.mpr (List.mem_filterMap.mpr ?_))
    refine ⟨hasCollection f c, List.mem_filter.mpr ⟨List.mem_map_of_mem hf, ?_⟩, ?_⟩
    · rw [hfound]; rfl
    · rw [hfound]; rfl

theorem unresolved_collect_iff : 0 < (Context.collect t c).unresolved ↔ LeavesOpen c t := by
  simp [Context.collect, LeavesOpen, List.length_pos_iff, List.filter_eq_nil_iff]

theorem hasGetMethod_eq_found_iff :
    hasGetMethod m (.collect t c) = .found m.identifierLocation (some name) ↔
      Offers m name ∧ KeepsPool c t name := by
  constructor
  · intro hfound
    have hne : hasGetMethod m (.collect t c) ≠ .notFound := by
      rw [hfound]
      nofun
    obtain ⟨returned, hoffers⟩ := exists_offers_of_ne hne
    rw [hasGetMethod_of_offers hoffers] at hfound
    split_ifs at hfound with htracks
    · obtain rfl : returned = name := by
        injection hfound with _ _ hevidence
        exact Option.some.inj hevidence
      exact ⟨hoffers, tracks_collect_iff.mp htracks⟩
    all_goals cases hfound
  · rintro ⟨hoffers, hpool⟩
    rw [hasGetMethod_of_offers hoffers, if_pos (tracks_collect_iff.mpr hpool)]

theorem hasGetMethod_eq_unsupported_iff :
    hasGetMethod m (.collect t c) = .unsupported (.unresolvedElementType name) ↔
      Offers m name ∧ ¬ KeepsPool c t name ∧ LeavesOpen c t := by
  constructor
  · intro hopen
    have hne : hasGetMethod m (.collect t c) ≠ .notFound := by
      rw [hopen]
      nofun
    obtain ⟨returned, hoffers⟩ := exists_offers_of_ne hne
    rw [hasGetMethod_of_offers hoffers] at hopen
    split_ifs at hopen with htracks hunresolved
    · cases hopen
    · obtain rfl : returned = name := by
        injection hopen with hverdict
        injection hverdict with hreason
        injection hreason
      exact ⟨hoffers, mt tracks_collect_iff.mpr htracks,
        unresolved_collect_iff.mp hunresolved⟩
    · cases hopen
  · rintro ⟨hoffers, hpool, hopen⟩
    rw [hasGetMethod_of_offers hoffers, if_neg (mt tracks_collect_iff.mp hpool),
      if_pos (unresolved_collect_iff.mpr hopen)]

theorem hasGetMethod_eq_notFound_iff :
    hasGetMethod m (.collect t c) = .notFound ↔
      ∀ name, Offers m name → ¬ KeepsPool c t name ∧ ¬ LeavesOpen c t := by
  constructor
  · intro hnone name hoffers
    rw [hasGetMethod_of_offers hoffers] at hnone
    split_ifs at hnone with htracks hunresolved
    · cases hnone
    · cases hnone
    · exact ⟨mt tracks_collect_iff.mpr htracks,
        mt unresolved_collect_iff.mpr hunresolved⟩
  · intro hall
    by_contra hne
    obtain ⟨name, hoffers⟩ := exists_offers_of_ne hne
    obtain ⟨hpool, hopen⟩ := hall name hoffers
    rw [hasGetMethod_of_offers hoffers, if_neg (mt tracks_collect_iff.mp hpool),
      if_neg (mt unresolved_collect_iff.mp hopen)] at hne
    exact hne rfl

private theorem not_keepsPool_of_semantics (h : c.semantics = none) : ¬ KeepsPool c t name := by
  rintro ⟨f, -, hfound⟩
  rw [hasCollection, h] at hfound
  cases hfound

/-- A method has three outcomes. It matches when it offers what a field of its type pools, is left
undecided when it offers what no field is known to pool but some field is open, and otherwise does
not match. Without a semantic model no method matches. -/
theorem hasGetMethod_outcomes (c : Compilation) (t : TypeDeclaration) (m : MethodDeclaration) :
    (∀ name, hasGetMethod m (.collect t c) = .found m.identifierLocation (some name) ↔
        Offers m name ∧ KeepsPool c t name) ∧
      (∀ name, hasGetMethod m (.collect t c) = .unsupported (.unresolvedElementType name) ↔
        Offers m name ∧ ¬ KeepsPool c t name ∧ LeavesOpen c t) ∧
      (hasGetMethod m (.collect t c) = .notFound ↔
        ∀ name, Offers m name → ¬ KeepsPool c t name ∧ ¬ LeavesOpen c t) ∧
      (c.semantics = none → (hasGetMethod m (.collect t c)).matched = false) := by
  refine ⟨fun _ => hasGetMethod_eq_found_iff, fun _ => hasGetMethod_eq_unsupported_iff,
    hasGetMethod_eq_notFound_iff, fun hsemantics => ?_⟩
  rw [← Bool.not_eq_true, Outcome.matched_iff]
  intro hmatched
  obtain ⟨name, htracks, -⟩ := tracks_of_hasGetMethod hmatched
  exact not_keepsPool_of_semantics hsemantics (tracks_collect_iff.mp htracks)

theorem hasCollection_array {f : FieldDeclaration} {element : TypeRef} {semantics : Semantics}
    (hsemantics : c.semantics = some semantics) (hf : f.declaredType = .array element)
    (hname : element.simpleName? = some name) :
    hasCollection f c = .found f.location (some name) := by
  have hcollection : semantics.isCollection (.array element) = some true := rfl
  have helement : semantics.elementType (.array element) = some element := by
    rw [Semantics.elementType, Semantics.elementFrom]
  simp [hasCollection, hsemantics, hf, hcollection, helement, hname]

section Fleet

def fleetPlace (line first last : Nat) : Location := ⟨"fleet.cs", ⟨line, first⟩, ⟨line, last⟩⟩

/-- A method that constructs a car in an `if` statement within another. -/
def lend : MethodDeclaration :=
  let car : Expression := .creation ⟨some (.simple "Car"), [], [], fleetPlace 3 20 29⟩
  let store : Statement := .compound ⟨"expression_statement", [.other [car]], [], fleetPlace 3 9 30⟩
  let inner : Statement := .branch ⟨none, [store], [], fleetPlace 3 4 32⟩
  ⟨[.publicAccess], "Lend", fleetPlace 2 13 17, .simple "Car", [],
    some ⟨[.branch ⟨none, [], [inner], fleetPlace 2 20 40⟩]⟩, fleetPlace 2 2 42⟩

/-- A class with one field of some type and the method. -/
def fleetType (pool : TypeRef) : TypeDeclaration :=
  ⟨.class, [], "Fleet", fleetPlace 0 6 11, fleetPlace 0 0 50, none, none, [],
    [.field ⟨[.privateAccess], pool, [⟨"cars", none⟩], fleetPlace 1 2 30⟩, .method lend]⟩

def fleet (pool : TypeRef) (semantic : Bool) : Compilation :=
  .ofTrees [⟨"fleet.cs", 0, 0, [], [fleetType pool]⟩] semantic

theorem offers_lend : Offers lend "Car" :=
  ⟨rfl, rfl, rfl, _, rfl, createsConditionally_iff.mp (by decide)⟩

/-- The method matches next to an array of cars, but not without a semantic model. Next to a pair it
is left undecided. -/
theorem hasGetMethod_outcomes_fleet :
    hasGetMethod lend (.collect (fleetType (.array (.simple "Car")))
        (fleet (.array (.simple "Car")) true)) = .found (fleetPlace 2 13 17) (some "Car") ∧
      (hasGetMethod lend (.collect (fleetType (.array (.simple "Car")))
        (fleet (.array (.simple "Car")) false))).matched = false ∧
      hasGetMethod lend (.collect (fleetType (.other "(int, Car)"))
        (fleet (.other "(int, Car)") true)) = .unsupported (.unresolvedElementType "Car") := by
  obtain ⟨hfound, -⟩ := hasGetMethod_outcomes (fleet (.array (.simple "Car")) true)
    (fleetType (.array (.simple "Car"))) lend
  obtain ⟨-, -, -, hunknown⟩ := hasGetMethod_outcomes (fleet (.array (.simple "Car")) false)
    (fleetType (.array (.simple "Car"))) lend
  obtain ⟨-, hopen, -⟩ := hasGetMethod_outcomes (fleet (.other "(int, Car)") true)
    (fleetType (.other "(int, Car)")) lend
  refine ⟨(hfound "Car").mpr ⟨offers_lend, ?_⟩, hunknown rfl, (hopen "Car").mpr
    ⟨offers_lend, ?_, ?_⟩⟩
  · exact ⟨_, .head _, hasCollection_array rfl rfl rfl⟩
  · rintro ⟨f, hf, hpool⟩
    obtain rfl := List.mem_singleton.mp hf
    cases hpool
  · exact ⟨_, .head _, rfl⟩

end Fleet

end Flyweight

end PatternFinder
