import PatternFinder.Proofs.NestedFacts
import PatternFinder.Proofs.Occurrence

/-! The concrete bodies of a member, and what is read out of all of them together. -/
namespace PatternFinder.Lowering
open Node

def isBodyKind (kind : String) : Bool := kind == "block" || kind == "arrow_expression_clause"

/-- The body of a constructor, a method or an accessor, if it has the form of one. -/
def bodyNode? (n : Node) : Option Node :=
  (((n.child? .body).or (n.namedOf? "block")).or (n.namedOf? "arrow_expression_clause")).filter
    (isBodyKind ·.kind)

def accessors (n : Node) : List Node :=
  ((n.child? .accessors).or (n.namedOf? "accessor_list")).toList.flatMap fun list =>
    list.namedChildren.filter (·.kind == "accessor_declaration")

/-- The nodes that are read as the body of a member: a property can have several. -/
def bodyNodes (n : Node) : List Node :=
  match n.kind with
  | "constructor_declaration" | "method_declaration" => (bodyNode? n).toList
  | "property_declaration" =>
    match n.namedOf? "arrow_expression_clause" with
    | some arrow => [arrow]
    | none => (accessors n).filterMap bodyNode?
  | _ => []

/-- The body that is read of a member, if it has one. -/
def memberBody? (src : SourceText) (r : Reader) (n : Node) : Option Block :=
  (member? src r n).bind Member.body?

/-- The statements that are read of one concrete body. -/
def bodyStatements (src : SourceText) (r : Reader) (body : Node) : List Statement :=
  ((bodyOf src r body).map Block.statements).getD []

section Spec

variable {src : SourceText} {r : Reader}

theorem bodyOf_eq_some {body : Node} (h : isBodyKind body.kind = true) :
    bodyOf src r body = some ⟨bodyStatements src r body⟩ := by
  have hkind : body.kind = "block" ∨ body.kind = "arrow_expression_clause" := by
    simpa [isBodyKind] using h
  obtain ⟨block, hblock⟩ : ∃ block, bodyOf src r body = some block := bodyOf_isSome hkind
  simp [bodyStatements, hblock]

theorem bodyOf_eq_none {body : Node} (h : isBodyKind body.kind = false) :
    bodyOf src r body = none := by
  unfold bodyOf
  split
  case h_1 hkind => simp [isBodyKind, hkind] at h
  case h_2 hkind => simp [isBodyKind, hkind] at h
  case h_3 => rfl

theorem isBodyKind_of_bodyNode? {n body : Node} (h : bodyNode? n = some body) :
    isBodyKind body.kind = true :=
  (Option.filter_eq_some_iff.mp h).2

theorem isBodyKind_of_arrow {n arrow : Node}
    (h : n.namedOf? "arrow_expression_clause" = some arrow) : isBodyKind arrow.kind = true := by
  simp [isBodyKind, kind_of_namedOf? h]

theorem body?_eq_map (n : Node) :
    body? src r n = (bodyNode? n).map fun body => ⟨bodyStatements src r body⟩ := by
  unfold body? bodyNode?
  cases ((n.child? .body).or (n.namedOf? "block")).or (n.namedOf? "arrow_expression_clause") with
  | none => rfl
  | some body =>
    cases hkind : isBodyKind body.kind with
    | true => simp [hkind, bodyOf_eq_some, Option.filter]
    | false => simp [hkind, bodyOf_eq_none, Option.filter]

theorem accessorBody?_eq (n : Node) :
    accessorBody? src r n =
      (let found := ((accessors n).filterMap bodyNode?).flatMap (bodyStatements src r)
      if found.isEmpty then none else some ⟨found⟩) := by
  have hbody : body? src r = fun n => (bodyNode? n).map fun body => ⟨bodyStatements src r body⟩ :=
    funext body?_eq_map
  have hfound : ∀ list : Node,
      ((list.namedChildren.filter (·.kind == "accessor_declaration")).filterMap
        (body? src r)).flatMap Block.statements =
      ((list.namedChildren.filter (·.kind == "accessor_declaration")).filterMap
        bodyNode?).flatMap (bodyStatements src r) := by
    intro list
    rw [hbody, ← List.map_filterMap, List.flatMap_map]
  unfold accessorBody? accessors
  cases (n.child? .accessors).or (n.namedOf? "accessor_list") with
  | none => rfl
  | some list =>
    rw [Option.toList_some, List.flatMap_singleton, ← hfound]
    rfl

theorem memberBody?_eq (n : Node) :
    memberBody? src r n = match n.kind with
      | "constructor_declaration" | "method_declaration" => body? src r n
      | "property_declaration" => propertyBody? src r n
      | _ => none := by
  unfold memberBody? member?
  split <;> simp [Member.body?, constructor, method, property, *]

/-- The body of a member is what is read of its concrete bodies, one after the other. -/
theorem statements_memberBody? {n : Node} {block : Block} (h : memberBody? src r n = some block) :
    block.statements = (bodyNodes n).flatMap (bodyStatements src r) := by
  have hbody : body? src r n = some block →
      block.statements = (bodyNode? n).toList.flatMap (bodyStatements src r) := by
    intro h
    rw [body?_eq_map] at h
    obtain ⟨body, hb, rfl⟩ := Option.map_eq_some_iff.mp h
    simp [hb]
  rw [memberBody?_eq] at h
  unfold bodyNodes
  split at h
  case h_1 => exact hbody h
  case h_2 => exact hbody h
  case h_3 =>
    unfold propertyBody? at h
    cases harrow : n.namedOf? "arrow_expression_clause" with
    | some arrow =>
      simp only [harrow] at h
      rw [bodyOf_eq_some (isBodyKind_of_arrow harrow)] at h
      simp [← Option.some.inj h]
    | none =>
      simp only [harrow, accessorBody?_eq] at h
      split_ifs at h
      simp [← Option.some.inj h]
  case h_4 => cases h

/-- Two ways of reading that agree on the concrete bodies agree on the member. -/
theorem memberBody?_congr {r' : Reader} {n : Node}
    (h : ∀ body ∈ bodyNodes n, bodyStatements src r body = bodyStatements src r' body) :
    memberBody? src r n = memberBody? src r' n := by
  have hbody : (∀ body ∈ (bodyNode? n).toList,
      bodyStatements src r body = bodyStatements src r' body) → body? src r n = body? src r' n := by
    intro h
    rw [body?_eq_map, body?_eq_map]
    refine Option.map_congr fun body hb => ?_
    rw [h body (Option.mem_toList.mpr hb)]
  rw [memberBody?_eq, memberBody?_eq]
  unfold bodyNodes at h
  split
  case h_1 hkind => exact hbody (by simpa only [hkind] using h)
  case h_2 hkind => exact hbody (by simpa only [hkind] using h)
  case h_3 hkind =>
    simp only [hkind] at h
    unfold propertyBody?
    cases harrow : n.namedOf? "arrow_expression_clause" with
    | some arrow =>
      simp only [harrow] at h
      dsimp only
      rw [bodyOf_eq_some (isBodyKind_of_arrow harrow), bodyOf_eq_some (isBodyKind_of_arrow harrow),
        h arrow List.mem_cons_self]
    | none =>
      simp only [harrow] at h
      have hfound := List.flatMap_congr h
      simp only [accessorBody?_eq, hfound]
  case h_4 => rfl

private theorem bodyStatements_eq_nil_iff (r' : Reader) (body : Node) :
    bodyStatements src r body = [] ↔ bodyStatements src r' body = [] := by
  unfold bodyStatements bodyOf
  split <;> simp [statements]

/-- Whether a member has a body does not depend on how it is read. -/
theorem memberBody?_isSome (r' : Reader) (n : Node) :
    (memberBody? src r n).isSome = (memberBody? src r' n).isSome := by
  have hbody : (body? src r n).isSome = (body? src r' n).isSome := by
    rw [body?_eq_map, body?_eq_map, Option.isSome_map, Option.isSome_map]
  rw [memberBody?_eq, memberBody?_eq]
  split
  case h_1 => exact hbody
  case h_2 => exact hbody
  case h_3 =>
    unfold propertyBody?
    cases harrow : n.namedOf? "arrow_expression_clause" with
    | some arrow =>
      dsimp only
      rw [bodyOf_eq_some (isBodyKind_of_arrow harrow), bodyOf_eq_some (isBodyKind_of_arrow harrow)]
      rfl
    | none =>
      have hempty : ((accessors n).filterMap bodyNode?).flatMap (bodyStatements src r) = [] ↔
          ((accessors n).filterMap bodyNode?).flatMap (bodyStatements src r') = [] := by
        simp only [List.flatMap_eq_nil_iff, bodyStatements_eq_nil_iff r']
      simp only [accessorBody?_eq, List.isEmpty_iff]
      split_ifs <;> simp_all
  case h_4 => rfl

end Spec

/-- What is read first in the bodies of a member. -/
def memberEntries (n : Node) : List Part := (bodyNodes n).flatMap entries

theorem isBodyKind_of_mem_bodyNodes {n body : Node} (h : body ∈ bodyNodes n) :
    isBodyKind body.kind = true := by
  unfold bodyNodes at h
  split at h
  case h_1 => exact isBodyKind_of_bodyNode? (Option.mem_toList.mp h)
  case h_2 => exact isBodyKind_of_bodyNode? (Option.mem_toList.mp h)
  case h_3 =>
    cases harrow : n.namedOf? "arrow_expression_clause" with
    | some arrow =>
      simp only [harrow, List.mem_singleton] at h
      exact h ▸ isBodyKind_of_arrow harrow
    | none =>
      simp only [harrow] at h
      obtain ⟨accessor, -, hb⟩ := List.mem_filterMap.mp h
      exact isBodyKind_of_bodyNode? hb
  case h_4 => cases h

/-- The facts of the body of a member are the facts of what is read first in it. -/
theorem facts_memberBody? {src : SourceText} {r : Reader} {n : Node} {block : Block}
    (h : memberBody? src r n = some block) :
    block.walk.filterMap BodyNode.fact? = (memberEntries n).flatMap r.facts := by
  have hbody : ∀ body ∈ bodyNodes n,
      (Statement.walkAll (bodyStatements src r body)).filterMap BodyNode.fact? =
        (entries body).flatMap r.facts := by
    intro body hb
    exact facts_bodyOf (bodyOf_eq_some (isBodyKind_of_mem_bodyNodes hb))
  rw [Block.walk, statements_memberBody? h, memberEntries, List.flatMap_assoc,
    Statement.walkAll_eq_flatMap, List.flatMap_assoc, List.filterMap_flatMap]
  simp only [← Statement.walkAll_eq_flatMap]
  exact List.flatMap_congr hbody

end PatternFinder.Lowering
