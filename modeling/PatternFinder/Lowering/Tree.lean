import PatternFinder.Hash.Xxh3
import PatternFinder.Lowering.Member
import PatternFinder.Model.Declaration
import PatternFinder.Source.Faults

/-! Reading the declared types of a file off its concrete tree. -/
namespace PatternFinder.Lowering

def typeKind? (kind : String) : Option TypeKind :=
  [("class_declaration", TypeKind.class), ("interface_declaration", .interface),
    ("struct_declaration", .struct), ("record_declaration", .record),
    ("record_struct_declaration", .struct)].lookup kind

def isTypeNode (n : Node) : Bool := (typeKind? n.kind).isSome

/-- The base list of a type, without comments and constructor arguments. -/
def baseTypes (src : SourceText) (n : Node) : List TypeRef :=
  match n.namedOf? "base_list" with
  | none => []
  | some list => list.namedChildren.filterMap fun c =>
    match c.kind with
    | "argument_list" | "comment" => none
    | "primary_constructor_base_type" => (innerType? c).map (typeRef src)
    | _ => some (typeRef src c)

def typeBody? (n : Node) : Option Node := (n.child? .body).or (n.namedOf? "declaration_list")

/-- The named nodes in the body of a type. -/
def typeContents (n : Node) : List Node :=
  match typeBody? n with
  | some body => body.namedChildren
  | none => []

private theorem sizeOf_lt_of_mem_typeContents {c n : Node} (h : c ∈ typeContents n) :
    sizeOf c < sizeOf n := by
  unfold typeContents at h
  split at h
  case h_1 body hb =>
    have h₁ := Node.sizeOf_lt_of_mem (Node.mem_of_mem_namedChildren h)
    rcases Option.or_eq_some_iff.mp hb with hb | ⟨_, hb⟩
    · have h₂ := Node.sizeOf_lt_of_mem (Node.mem_of_child? hb)
      omega
    · have h₂ := Node.sizeOf_lt_of_mem (Node.mem_of_namedOf? hb)
      omega
  case h_2 => simp at h

/-- The type that a node declares, without the types nested in it. -/
def typeDeclaration (src : SourceText) (bodies : Reader) (ns containing : Option String)
    (n : Node) : TypeDeclaration where
  kind := (typeKind? n.kind).getD .class
  modifiers := modifiers src n
  identifier := src.fieldText n .name
  identifierLocation := src.location ((n.child? .name).getD n)
  location := src.location n
  namespaceName := ns
  containingType := containing
  baseTypes := baseTypes src n
  members := (typeContents n).filterMap (member? src bodies)

/-- The type that a node declares, followed by the types nested in it. -/
def typeAndNested (src : SourceText) (bodies : Reader) (ns containing : Option String)
    (n : Node) : List TypeDeclaration :=
  typeDeclaration src bodies ns containing n ::
    ((typeContents n).filter isTypeNode).attach.flatMap fun ⟨c, _⟩ =>
      typeAndNested src bodies ns (some (src.fieldText n .name)) c
termination_by sizeOf n
decreasing_by
  exact sizeOf_lt_of_mem_typeContents (List.mem_filter.mp (by assumption)).1

theorem typeAndNested_eq {src : SourceText} {bodies : Reader} {n : Node}
    (ns containing : Option String) :
    typeAndNested src bodies ns containing n = typeDeclaration src bodies ns containing n ::
      ((typeContents n).filter isTypeNode).flatMap
        (typeAndNested src bodies ns (some (src.fieldText n .name))) := by
  rw [typeAndNested]
  simp

/-- An inner namespace name after an outer one; an empty outer name is dropped. -/
def joinNamespace (outer : Option String) (name : String) : String :=
  match outer with
  | some o => if o.isEmpty then name else o ++ "." ++ name
  | none => name

private theorem sizeOf_children_lt (n : Node) : sizeOf n.children < sizeOf n := by
  cases n
  simp only [Node.mk.sizeOf_spec]
  omega

private theorem sizeOf_namespaceBody_lt (n : Node) :
    sizeOf ((n.child? .body).getD n).children < sizeOf n := by
  cases h : n.child? .body with
  | none => exact sizeOf_children_lt n
  | some b =>
    have h₁ := sizeOf_children_lt b
    have h₂ := Node.sizeOf_lt_of_mem (Node.mem_of_child? h)
    simp only [Option.getD_some]
    omega

/-- The types declared by a row of siblings. `outer` is the namespace around the row, `current` the
one in force at the first sibling: a namespace declared for the rest of the file changes it. -/
def typesIn (src : SourceText) (bodies : Reader) (outer current : Option String) :
    List Node → List TypeDeclaration
  | [] => []
  | c :: rest =>
    if !c.named then typesIn src bodies outer current rest
    else match c.kind with
      | "namespace_declaration" =>
        let ns := some (joinNamespace current (src.fieldText c .name))
        typesIn src bodies ns ns ((c.child? .body).getD c).children ++
          typesIn src bodies outer current rest
      | "file_scoped_namespace_declaration" =>
        let ns := some (joinNamespace outer (src.fieldText c .name))
        typesIn src bodies ns ns c.children ++ typesIn src bodies outer ns rest
      | "declaration_list" | "ERROR" =>
        typesIn src bodies current current c.children ++ typesIn src bodies outer current rest
      | _ =>
        (if isTypeNode c then typeAndNested src bodies current none c else []) ++
          typesIn src bodies outer current rest
termination_by siblings => sizeOf siblings
decreasing_by
  all_goals simp only [List.cons.sizeOf_spec]
  all_goals have h₁ := sizeOf_namespaceBody_lt c
  all_goals have h₂ := sizeOf_children_lt c
  all_goals omega

/-- The types declared in a file, outer types before the types nested in them. -/
def types (src : SourceText) (bodies : Reader) (root : Node) : List TypeDeclaration :=
  typesIn src bodies none none root.children

/-- The declarations of a file with the given bytes and concrete tree. -/
def sourceTree (src : SourceText) (root : Node) : SourceTree where
  path := src.path
  contentHash := Hash.xxh3 src.bytes
  errorCount := root.faults.length
  errorRanges := root.faults.map src.range
  types := types src (bodyReader src) root

end PatternFinder.Lowering
