import PatternFinder.Proofs.SourceLocations
import PatternFinder.Proofs.TypePlaces

/-! The types in the declarations of a file, and how deep they nest: reading cuts off statements and
expressions below a depth, and no types. -/
namespace PatternFinder

/-- The type that is written in a local declaration or in a construction. -/
def BodyNode.typeRef? : BodyNode → Option TypeRef
  | .expression (.creation c) => c.createdType
  | .statement (.declare l) => l.declaredType
  | _ => none

namespace BodyNode

@[simp] theorem typeRef?_creation (c : ObjectCreation) :
    typeRef? (.expression (.creation c)) = c.createdType := rfl

@[simp] theorem typeRef?_call (c : Invocation) : typeRef? (.expression (.call c)) = none := rfl

@[simp] theorem typeRef?_literal (text : String) :
    typeRef? (.expression (.literal text)) = none := rfl

@[simp] theorem typeRef?_identifier (name : String) :
    typeRef? (.expression (.identifier name)) = none := rfl

@[simp] theorem typeRef?_lambda (body : List Statement) :
    typeRef? (.expression (.lambda body)) = none := rfl

@[simp] theorem typeRef?_other (parts : List Expression) :
    typeRef? (.expression (.other parts)) = none := rfl

@[simp] theorem typeRef?_declare (l : LocalDeclaration) :
    typeRef? (.statement (.declare l)) = l.declaredType := rfl

@[simp] theorem typeRef?_branch (c : Conditional) : typeRef? (.statement (.branch c)) = none := rfl

@[simp] theorem typeRef?_compound (c : Compound) :
    typeRef? (.statement (.compound c)) = none := rfl

/-- The types that a walk meets. -/
def typeRefs (x : BodyNode) : List TypeRef := x.walk.filterMap typeRef?

theorem typeRefs_eq (x : BodyNode) :
    x.typeRefs = x.typeRef?.toList ++ x.children.flatMap typeRefs := by
  have hchildren : (x.children.flatMap walk).filterMap typeRef? = x.children.flatMap typeRefs :=
    List.filterMap_flatMap ..
  rw [typeRefs, walk_eq, List.filterMap_cons, hchildren]
  cases x.typeRef? <;> rfl

end BodyNode

namespace Member

/-- The types in the head of a member. -/
def headTypes : Member → List TypeRef
  | .field f => [f.declaredType]
  | .constructor c => c.parameters.filterMap (·.declaredType)
  | .method m => m.returnType :: m.parameters.filterMap (·.declaredType)
  | .property p => [p.declaredType]

/-- The types in the head of a member and in its body or its initial values. -/
def typeRefs (m : Member) : List TypeRef := m.headTypes ++ m.walk.filterMap BodyNode.typeRef?

end Member

/-- The base types of a type and the types in its members. -/
def TypeDeclaration.typeRefs (t : TypeDeclaration) : List TypeRef :=
  t.baseTypes ++ t.members.flatMap Member.typeRefs

/-- All types in the declarations of a file. -/
def SourceTree.typeRefs (t : SourceTree) : List TypeRef := t.types.flatMap TypeDeclaration.typeRefs

theorem TypeRef.heights_eq (ts : List TypeRef) :
    heights ts = (ts.map height).foldr max 0 := by
  induction ts with
  | nil => rfl
  | cons t ts ih => rw [heights, ih, List.map_cons, List.foldr_cons]

namespace Lowering
open Node

section Levels

/-- The number of levels of the type that a node writes. A list of type arguments adds a level, and
so does the mark of an array or of a nullable type; a qualifier does not. -/
def typeLevels (n : Node) : Nat :=
  match n.kind with
  | "generic_name" => ((typeArguments n).attach.map fun ⟨c, _⟩ => typeLevels c).foldr max 0 + 1
  | "qualified_name" | "alias_qualified_name" =>
    match _h : lastName? n with
    | some c => typeLevels c
    | none => 1
  | "array_type" | "nullable_type" =>
    match _h : innerType? n with
    | some c => typeLevels c + 1
    | none => 2
  | "ref_type" | "scoped_type" =>
    match _h : innerType? n with
    | some c => typeLevels c
    | none => 1
  | _ => 1
termination_by n.height
decreasing_by
  · exact (below_of_mem_typeArguments (by assumption)).height_lt
  · exact (Below.child (mem_children_of_lastName? (by assumption))).height_lt
  all_goals exact (Below.child (mem_children_of_innerType? (by assumption))).height_lt

theorem typeLevels_eq (n : Node) : typeLevels n = match n.kind with
    | "generic_name" => ((typeArguments n).map typeLevels).foldr max 0 + 1
    | "qualified_name" | "alias_qualified_name" => ((lastName? n).map typeLevels).getD 1
    | "array_type" | "nullable_type" => ((innerType? n).map typeLevels).getD 1 + 1
    | "ref_type" | "scoped_type" => ((innerType? n).map typeLevels).getD 1
    | _ => 1 := by
  rw [typeLevels]
  split
  case h_1 => simp only [List.map_attach_eq_pmap, List.pmap_eq_map, *]
  case h_2 => split <;> simp [*]
  case h_3 => split <;> simp [*]
  case h_4 => split <;> simp [*]
  case h_5 => split <;> simp [*]
  case h_6 => split <;> simp [*]
  case h_7 => split <;> simp [*]
  case h_8 => simp [*]

private theorem height_requalify (qualifier : Option String) (t : TypeRef) :
    (requalify qualifier t).height = t.height := by
  cases t <;> rfl

/-- What is read of a written type has the levels that are written. -/
theorem height_typeRef (src : SourceText) (n : Node) : (typeRef src n).height = typeLevels n := by
  induction n using Node.below_induction with
  | step n ih =>
    have hinner : (((innerType? n).map (typeRef src)).getD (.other (src.text n))).height =
        ((innerType? n).map typeLevels).getD 1 := by
      cases h : innerType? n with
      | none => rfl
      | some c => exact ih c (.child (mem_children_of_innerType? h))
    have hlast : (((lastName? n).map fun c => requalify (qualifier? src n) (typeRef src c)).getD
        (.other (src.text n))).height = ((lastName? n).map typeLevels).getD 1 := by
      cases h : lastName? n with
      | none => rfl
      | some c =>
        exact (height_requalify _ _).trans (ih c (.child (mem_children_of_lastName? h)))
    have harguments : (typeArguments n).map (fun c => (typeRef src c).height) =
        (typeArguments n).map typeLevels :=
      List.map_congr_left fun c hc => ih c (below_of_mem_typeArguments hc)
    rw [typeRef_eq, typeLevels_eq]
    split
    case h_1 hkind => simp [hkind, TypeRef.height]
    case h_2 hkind => simp [hkind, TypeRef.height]
    case h_3 hkind =>
      rw [hkind]
      unfold TypeRef.ofSimpleName
      split_ifs <;> rfl
    case h_4 hkind => simp [hkind, TypeRef.height]
    case h_5 hkind =>
      rw [hkind, TypeRef.generic, TypeRef.height, TypeRef.heights_eq, List.map_map]
      exact congrArg (fun hs : List Nat => hs.foldr max 0 + 1) harguments
    case h_6 hkind => simpa only [hkind] using hlast
    case h_7 hkind => simpa only [hkind] using hlast
    case h_8 hkind => simpa only [hkind, TypeRef.height] using congrArg (· + 1) hinner
    case h_9 hkind => simpa only [hkind, TypeRef.height] using congrArg (· + 1) hinner
    case h_10 hkind => simpa only [hkind] using hinner
    case h_11 hkind => simpa only [hkind] using hinner
    case h_12 => split <;> first | rfl | contradiction

theorem height_fieldType (src : SourceText) (n : Option Node) :
    (fieldType src n).height = (n.map typeLevels).getD 1 := by
  cases n with
  | none => rfl
  | some n => exact height_typeRef src n

end Levels

/-- The written type of the variable declaration below a node. -/
def variableTypeNode? (n : Node) : Option Node :=
  (n.namedOf? "variable_declaration").bind declaredTypeNode?

/-- The written type that is read with a part. A type that leaves the choice to the compiler is left
out. -/
def Part.typeNode? (src : SourceText) : Part → Option Node
  | .statement n => match n.kind with
    | "local_declaration_statement" =>
      (variableTypeNode? n).filter fun d => (explicitType (typeRef src d)).isSome
    | _ => none
  | .expression n => match n.kind with
    | "object_creation_expression" => createdTypeNode? n
    | _ => none

/-- The types that a walk over what is read of a part meets. -/
def Reader.typeRefs (r : Reader) (p : Part) : List TypeRef := (r.read p).typeRefs

section Step

variable {src : SourceText} {r : Reader}

theorem declaration_fst (n : Node) :
    (declaration src r n).1 = fieldType src (variableTypeNode? n) := by
  unfold declaration variableTypeNode?
  cases n.namedOf? "variable_declaration" <;> rfl

private theorem eq_of_explicitType {t t' : TypeRef} (h : explicitType t = some t') : t = t' := by
  unfold explicitType at h
  split at h
  case h_1 =>
    split_ifs at h
    exact Option.some.inj h
  case h_2 =>
    split_ifs at h
    exact Option.some.inj h
  case h_3 => exact Option.some.inj h

theorem explicitType_fieldType (n : Option Node) :
    explicitType (fieldType src n) =
      (n.filter fun d => (explicitType (typeRef src d)).isSome).map (typeRef src) := by
  cases n with
  | none => rfl
  | some d =>
    have htype : fieldType src (some d) = typeRef src d := rfl
    rw [htype, Option.filter_some]
    cases h : explicitType (typeRef src d) with
    | none => rfl
    | some t =>
      rw [← eq_of_explicitType h]
      rfl

/-- What consists of what is read of some parts meets the types that they meet. -/
theorem typeRefs_of_children {x : BodyNode} {ps : List Part} (h : x.children = ps.map r.read) :
    x.typeRefs = x.typeRef?.toList ++ ps.flatMap r.typeRefs := by
  rw [x.typeRefs_eq, h, List.flatMap_map]
  rfl

private theorem typeRef?_statementStep (n : Node) :
    BodyNode.typeRef? (.statement (statementStep src r n)) =
      ((Part.statement n).typeNode? src).map (typeRef src) := by
  unfold statementStep Part.typeNode?
  split
  case h_1 hkind =>
    simp only [hkind, BodyNode.typeRef?_declare, localDeclaration, declaration_fst,
      explicitType_fieldType]
  case h_2 hkind => simp [hkind]
  case h_3 => simp

theorem typeRefs_statementStep (n : Node) :
    (BodyNode.statement (statementStep src r n)).typeRefs =
      (((Part.statement n).typeNode? src).map (typeRef src)).toList ++
        (Part.statement n).parts.flatMap r.typeRefs := by
  rw [typeRefs_of_children (children_statementStep n), typeRef?_statementStep]

theorem typeRefs_lambda (n : Node) :
    (BodyNode.expression (.lambda (lambdaStatements src r n))).typeRefs =
      (lambdaParts n).flatMap r.typeRefs := by
  unfold lambdaStatements lambdaParts
  cases lambdaBody? n with
  | none => simp [BodyNode.typeRefs_eq, BodyNode.children]
  | some body =>
    dsimp only
    split_ifs
    · exact typeRefs_of_children (map_read_statement (contents body)).symm
    · -- the statement that stands for an expression has no type of its own
      simp [BodyNode.typeRefs_eq, BodyNode.children, Reader.typeRefs, Reader.read]

private theorem typeRefs_expressionStep (n : Node) :
    (BodyNode.expression (expressionStep src r n)).typeRefs =
      (((Part.expression n).typeNode? src).map (typeRef src)).toList ++
        (Part.expression n).parts.flatMap r.typeRefs := by
  have hother : (BodyNode.expression (.other (expressions r n))).typeRefs =
      ((contents n).map Part.expression).flatMap r.typeRefs :=
    typeRefs_of_children (children_other n)
  unfold expressionStep Part.typeNode? Part.parts
  split
  case h_1 hkind =>
    simp only [hkind]
    exact typeRefs_of_children (children_creation _ n)
  case h_2 hkind =>
    simp only [hkind]
    exact typeRefs_of_children (children_creation _ n)
  case h_3 hkind =>
    simp only [hkind]
    exact typeRefs_of_children (children_invocation n)
  case h_4 hkind =>
    simp only [hkind]
    split
    case h_1 e he =>
      -- the parentheses go, and the type of what is in them is met there
      obtain ⟨c, hc, rfl⟩ : ∃ c, contents n = [c] ∧ r.expression c = e := by
        simpa [expressions, List.map_eq_singleton_iff] using he
      simp [hc, Reader.typeRefs, Reader.read]
    case h_2 => simpa using hother
  case h_5 hkind =>
    cases hlast : n.namedChildren.getLast? <;>
      simp [hkind, hlast, Reader.typeRefs, Reader.read, BodyNode.typeRefs_eq, BodyNode.children]
  case h_6 hkind => simp [hkind, BodyNode.typeRefs_eq, BodyNode.children]
  case h_7 hkind => simp [hkind, typeRefs_lambda]
  case h_8 hkind => simp [hkind, typeRefs_lambda]
  case h_9 hkind =>
    simp only [hkind]
    exact typeRefs_of_children (map_read_statement (contents n)).symm
  case h_10 =>
    rw [List.contains_eq_mem]
    by_cases hliteral : n.kind ∈ literalKinds
    · simp [hliteral, BodyNode.typeRefs_eq, BodyNode.children]
    · simp [hliteral, hother]

/-- One level of reading: the type that is read with a part, then those of the parts below. -/
theorem typeRefs_step (p : Part) :
    (step src r).typeRefs p =
      ((p.typeNode? src).map (typeRef src)).toList ++ p.parts.flatMap r.typeRefs := by
  cases p with
  | statement n => exact typeRefs_statementStep n
  | expression n => exact typeRefs_expressionStep n

end Step

/-- The types in what is read of a part are those written at the parts that are read. -/
theorem typeRefs_reader (src : SourceText) (levels : Nat) (p : Part) :
    (reader src levels).typeRefs p =
      ((p.readings levels).filterMap (Part.typeNode? src)).map (typeRef src) := by
  induction levels generalizing p with
  | zero =>
    cases p <;> simp [reader, truncated, Reader.typeRefs, Reader.read, Part.readings,
      BodyNode.typeRefs_eq, BodyNode.children]
  | succ levels ih =>
    have hparts : p.parts.flatMap (reader src levels).typeRefs =
        ((p.parts.flatMap (Part.readings levels)).filterMap (Part.typeNode? src)).map
          (typeRef src) := by
      rw [List.filterMap_flatMap, List.map_flatMap, funext ih]
    rw [reader, typeRefs_step, hparts, Part.readings, List.filterMap_cons]
    cases p.typeNode? src <;> rfl

section Members

variable {src : SourceText} {r : Reader} {n : Node} {m : Member}

/-- A member without a body has no statement in any of its concrete bodies. -/
theorem bodyStatements_eq_nil (h : memberBody? src r n = none) :
    ∀ body ∈ bodyNodes n, bodyStatements src r body = [] := by
  have hbody : body? src r n = none → ∀ body ∈ (bodyNode? n).toList,
      bodyStatements src r body = [] := by
    intro h
    rw [body?_eq_map, Option.map_eq_none_iff] at h
    simp [h]
  rw [memberBody?_eq] at h
  unfold bodyNodes
  split at h
  case h_1 => exact hbody h
  case h_2 => exact hbody h
  case h_3 =>
    unfold propertyBody? at h
    cases harrow : n.namedOf? "arrow_expression_clause" with
    | some arrow =>
      simp only [harrow] at h
      rw [bodyOf_eq_some (isBodyKind_of_arrow harrow)] at h
      cases h
    | none =>
      simp only [harrow, accessorBody?_eq] at h
      split_ifs at h with hempty
      exact List.flatMap_eq_nil_iff.mp (List.isEmpty_iff.mp hempty)
  case h_4 => simp

theorem walk_memberBody? (src : SourceText) (r : Reader) (n : Node) :
    (memberBody? src r n).elim [] Block.walk =
      (bodyNodes n).flatMap fun body => Statement.walkAll (bodyStatements src r body) := by
  cases h : memberBody? src r n with
  | none =>
    symm
    refine List.flatMap_eq_nil_iff.mpr fun body hbody => ?_
    rw [bodyStatements_eq_nil h body hbody, Statement.walkAll]
  | some block =>
    rw [Option.elim_some, Block.walk, statements_memberBody? h, Statement.walkAll_eq_flatMap,
      List.flatMap_assoc]
    simp only [Statement.walkAll_eq_flatMap]

/-- What is read first in the body of a member, or of the initial values of a field. -/
def memberParts (n : Node) : List Part :=
  match n.kind with
  | "field_declaration" => (initialNodes n).map .expression
  | _ => memberEntries n

private theorem typeRefs_bodyStatements {body : Node} (h : isBodyKind body.kind = true) :
    (Statement.walkAll (bodyStatements src r body)).filterMap BodyNode.typeRef? =
      (entries body).flatMap r.typeRefs := by
  have hkind : body.kind = "block" ∨ body.kind = "arrow_expression_clause" := by
    simpa [isBodyKind] using h
  unfold bodyStatements bodyOf entries
  rcases hkind with hkind | hkind
  · simp only [hkind, Option.map_some, Option.getD_some, statements, beq_self_eq_true, if_true]
    rw [Statement.walkAll_eq_flatMap, List.filterMap_flatMap, List.flatMap_map, List.flatMap_map]
    rfl
  · have hparts : (BodyNode.statement (.compound ⟨body.kind, expressions r body, [],
        src.location body⟩)).children = ((contents body).map Part.expression).map r.read := by
      rw [map_read_expression]
      exact List.append_nil _
    simpa [hkind, Statement.walkAll, BodyNode.typeRefs, BodyNode.walk] using
      typeRefs_of_children hparts

/-- The types in the body or the initial values of a member are those met in its parts. -/
theorem typeRefs_walk (h : member? src r n = some m) :
    m.walk.filterMap BodyNode.typeRef? = (memberParts n).flatMap r.typeRefs := by
  have hbody : (m.body?.elim [] Block.walk).filterMap BodyNode.typeRef? =
      (memberEntries n).flatMap r.typeRefs := by
    have hblock : m.body? = memberBody? src r n := by rw [memberBody?, h, Option.bind_some]
    rw [hblock, walk_memberBody?, List.filterMap_flatMap, memberEntries, List.flatMap_assoc]
    exact List.flatMap_congr fun body hmem =>
      typeRefs_bodyStatements (isBodyKind_of_mem_bodyNodes hmem)
  unfold memberParts
  split
  case h_1 hkind =>
    have hfield : member? src r n = some (.field (field src r n)) := by simp only [member?, hkind]
    obtain rfl := Option.some.inj (hfield.symm.trans h)
    rw [Member.walk, Declarator.walkAll_eq_flatMap, initializers_field hfield,
      List.filterMap_flatMap, List.flatMap_map, List.flatMap_map]
    rfl
  case h_2 hkind =>
    cases m with
    | field f =>
      unfold member? at h
      split at h
      case h_1 hfield => exact absurd hfield hkind
      all_goals cases h
    | constructor c => exact hbody
    | method c => exact hbody
    | property p => exact hbody

/-- The written types of the parameters of a member. -/
def parameterTypeNodes (n : Node) : List Node :=
  ((n.child? .parameters).or (n.namedOf? "parameter_list")).toList.flatMap fun list =>
    (list.namedChildren.filter (·.kind == "parameter")).filterMap (·.child? .type)

/-- The types that are written in the head of a member; none where one that belongs there is not
written. -/
def headTypeNodes (n : Node) : List (Option Node) :=
  match n.kind with
  | "field_declaration" => [variableTypeNode? n]
  | "constructor_declaration" => (parameterTypeNodes n).map some
  | "method_declaration" =>
    (n.child? .returns).or (n.child? .type) :: (parameterTypeNodes n).map some
  | "property_declaration" => [n.child? .type]
  | _ => []

theorem declaredType_parameters (src : SourceText) (n : Node) :
    (parameters src n).filterMap (·.declaredType) =
      ((parameterTypeNodes n).map some).map (fieldType src) := by
  unfold parameters parameterTypeNodes
  cases (n.child? .parameters).or (n.namedOf? "parameter_list") with
  | none => rfl
  | some list =>
    dsimp only
    rw [Option.toList_some, List.flatMap_singleton, List.filterMap_map, List.map_map,
      List.map_filterMap]
    rfl

theorem headTypes_member? (h : member? src r n = some m) :
    m.headTypes = (headTypeNodes n).map (fieldType src) := by
  unfold member? at h
  split at h
  case h_1 hkind =>
    obtain rfl := Option.some.inj h
    simp [headTypeNodes, hkind, Member.headTypes, field, declaration_fst]
  case h_2 hkind =>
    obtain rfl := Option.some.inj h
    simp only [headTypeNodes, hkind]
    exact declaredType_parameters src n
  case h_3 hkind =>
    obtain rfl := Option.some.inj h
    simp only [headTypeNodes, hkind, List.map_cons, ← declaredType_parameters]
    rfl
  case h_4 hkind =>
    obtain rfl := Option.some.inj h
    simp [headTypeNodes, hkind, Member.headTypes, property]
  case h_5 => cases h

/-- The types that are written in the head of a member and at the parts of it that are read. -/
def memberTypes (src : SourceText) (n : Node) : List (Option Node) :=
  headTypeNodes n ++ (((memberParts n).flatMap (Part.readings (maxDepth - 1))).filterMap
    (Part.typeNode? src)).map some

theorem typeRefs_member? (src : SourceText) (n : Node) :
    (member? src (bodyReader src) n).toList.flatMap Member.typeRefs =
      (memberTypes src n).map (fieldType src) := by
  cases h : member? src (bodyReader src) n with
  | none =>
    have hnone : memberTypes src n = [] := by
      unfold member? at h
      split at h
      case h_5 => simp [memberTypes, headTypeNodes, memberParts, memberEntries, bodyNodes, *]
      all_goals cases h
    rw [hnone]
    rfl
  | some m =>
    have hreader : (memberParts n).flatMap (bodyReader src).typeRefs =
        ((((memberParts n).flatMap (Part.readings (maxDepth - 1))).filterMap
          (Part.typeNode? src)).map some).map (fieldType src) := by
      rw [bodyReader, funext (typeRefs_reader src _), List.filterMap_flatMap, List.map_map,
        List.map_flatMap]
      rfl
    rw [Option.toList_some, List.flatMap_singleton, Member.typeRefs, headTypes_member? h,
      typeRefs_walk h, hreader, memberTypes, List.map_append]

end Members

section Types

/-- The types that are written in the base list of a type. -/
def baseTypeNodes (n : Node) : List Node :=
  match n.namedOf? "base_list" with
  | none => []
  | some list => list.namedChildren.filterMap fun c =>
    match c.kind with
    | "argument_list" | "comment" => none
    | "primary_constructor_base_type" => innerType? c
    | _ => some c

theorem baseTypes_eq_map (src : SourceText) (n : Node) :
    baseTypes src n = (baseTypeNodes n).map (typeRef src) := by
  unfold baseTypes baseTypeNodes
  cases n.namedOf? "base_list" with
  | none => rfl
  | some list =>
    dsimp only
    rw [List.map_filterMap]
    refine List.filterMap_congr fun c _ => ?_
    split <;> simp [*]

/-- The types that are written in the declaration of a type. -/
def declarationTypes (src : SourceText) (n : Node) : List (Option Node) :=
  (baseTypeNodes n).map some ++ (typeContents n).flatMap (memberTypes src)

theorem typeRefs_typeDeclaration (src : SourceText) (ns containing : Option String) (n : Node) :
    (typeDeclaration src (bodyReader src) ns containing n).typeRefs =
      (declarationTypes src n).map (fieldType src) := by
  have hbase : baseTypes src n = ((baseTypeNodes n).map some).map (fieldType src) := by
    rw [baseTypes_eq_map, List.map_map]
    rfl
  have hmembers : ((typeContents n).filterMap (member? src (bodyReader src))).flatMap
      Member.typeRefs = ((typeContents n).flatMap (memberTypes src)).map (fieldType src) := by
    rw [List.filterMap_eq_flatMap_toList, List.flatMap_assoc, List.map_flatMap]
    exact List.flatMap_congr fun c _ => typeRefs_member? src c
  rw [declarationTypes, List.map_append, ← hbase, ← hmembers]
  rfl

/-- The types that are written at the places of a file that reading comes to. -/
def writtenTypes (src : SourceText) (root : Node) : List (Option Node) :=
  (root.typePlaces.filter Place.isRead).flatMap (declarationTypes src ·.node)

private theorem typeRefs_sourceTree (src : SourceText) (root : Node) :
    (sourceTree src root).typeRefs = (writtenTypes src root).map (fieldType src) := by
  have hplaces : (sourceTree src root).types = (root.typePlaces.filter Place.isRead).map
      (declarationAt src (bodyReader src) .row ⟨none, none⟩) := by
    rw [← filter_isRead_places]
    exact types_eq_map_places root
  rw [SourceTree.typeRefs, hplaces, writtenTypes, List.flatMap_map, List.map_flatMap]
  exact List.flatMap_congr fun p _ => typeRefs_typeDeclaration src _ _ p.node

end Types

/-- The types in the declarations of a file are those that are written at the places that reading
comes to, each with all its levels. So none of them nests deeper than statements and expressions may
exactly when none of those that are written does: no type is cut off. -/
theorem types_nest_as_written (src : SourceText) (root : Node) :
    (sourceTree src root).typeRefs.map TypeRef.height =
        (writtenTypes src root).map (fun n => (n.map typeLevels).getD 1) ∧
      ((∀ t ∈ (sourceTree src root).typeRefs, t.height ≤ maxDepth) ↔
        ∀ n, some n ∈ writtenTypes src root → typeLevels n ≤ maxDepth) := by
  rw [typeRefs_sourceTree]
  constructor
  · rw [List.map_map]
    exact List.map_congr_left fun n _ => height_fieldType src n
  · rw [List.forall_mem_map]
    constructor
    · intro h n hn
      simpa [height_fieldType] using h (some n) hn
    · intro h n hn
      rw [height_fieldType]
      cases n with
      | none => decide
      | some n => exact h n hn

section Lists

/-- The type `List<List<...<int>...>>` with a number of lists. -/
def nestedLists (start stop : Nat) : (lists : Nat) → Node
  | 0 => plain "predefined_type" start stop none []
  | lists + 1 =>
    plain "generic_name" start stop none
      [plain "identifier" start (start + 4) none [],
        plain "type_argument_list" (start + 4) stop none
          [nestedLists (start + 5) (stop - 1) lists]]

/-- A class whose base type is made of nested lists. -/
def listSource (lists : Nat) : SourceText :=
  .ofBytes "L.cs" ("class L : " ++ String.join (List.replicate lists "List<") ++ "int" ++
    String.join (List.replicate lists ">") ++ " \x7b \x7d").toUTF8

def listClass (lists : Nat) : Node :=
  plain "class_declaration" 0 (6 * lists + 17) none
    [plain "identifier" 6 7 (some .name) [],
      plain "base_list" 8 (6 * lists + 13) none [nestedLists 10 (6 * lists + 13) lists],
      plain "declaration_list" (6 * lists + 14) (6 * lists + 17) (some .body) []]

def listRoot (lists : Nat) : Node :=
  plain "compilation_unit" 0 (6 * lists + 17) none [listClass lists]

theorem typeLevels_nestedLists (start stop lists : Nat) :
    typeLevels (nestedLists start stop lists) = lists + 1 := by
  induction lists generalizing start stop with
  | zero => exact typeLevels_eq _
  | succ lists ih =>
    have harguments : typeArguments (nestedLists start stop (lists + 1)) =
        [nestedLists (start + 5) (stop - 1) lists] := by
      cases lists <;> rfl
    have hlevels := typeLevels_eq (nestedLists start stop (lists + 1))
    rw [harguments, List.map_singleton, ih] at hlevels
    exact hlevels

theorem typeRefs_listRoot (src : SourceText) (lists : Nat) :
    (sourceTree src (listRoot lists)).typeRefs =
      [typeRef src (nestedLists 10 (6 * lists + 13) lists)] := by
  have hroot : (listRoot lists).children = [listClass lists] := rfl
  have hcontents : typeContents (listClass lists) = [] := rfl
  have htypes : (sourceTree src (listRoot lists)).types =
      [typeDeclaration src (bodyReader src) none none (listClass lists)] := by
    rw [sourceTree, types, hroot, typesIn, typesIn, typeAndNested_eq, hcontents]
    rfl
  have hwritten : declarationTypes src (listClass lists) =
      [some (nestedLists 10 (6 * lists + 13) lists)] := by
    cases lists <;> rfl
  rw [SourceTree.typeRefs, htypes, List.flatMap_singleton, typeRefs_typeDeclaration, hwritten]
  rfl

/-- No number of levels is too many. -/
theorem height_listRoot (src : SourceText) (lists : Nat) :
    (sourceTree src (listRoot lists)).typeRefs.map TypeRef.height = [lists + 1] := by
  rw [typeRefs_listRoot, List.map_singleton, height_typeRef, typeLevels_nestedLists]

/-- A base type with more levels than statements and expressions may have. -/
theorem base_type_beyond_limit :
    (sourceTree (listSource 129) (listRoot 129)).typeRefs.map TypeRef.height = [130] ∧
      ¬ ∀ t ∈ (sourceTree (listSource 129) (listRoot 129)).typeRefs, t.height ≤ maxDepth := by
  have hheight := height_listRoot (listSource 129) 129
  refine ⟨hheight, fun hlimit => ?_⟩
  rw [typeRefs_listRoot, List.map_singleton, List.singleton_inj] at hheight
  rw [typeRefs_listRoot, List.forall_mem_singleton, hheight, maxDepth] at hlimit
  omega

end Lists

end Lowering
end PatternFinder
