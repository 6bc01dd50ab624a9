import PatternFinder.Model.TypeRef
import PatternFinder.Source.Text

/-! Reading written types off concrete nodes. -/
namespace PatternFinder.Lowering

/-- The node that names a generic name. -/
def genericName? (n : Node) : Option Node := (n.child? .name).or (n.namedOf? "identifier")

/-- The node that gives a dotted name its last part. -/
def lastName? (n : Node) : Option Node := (n.child? .name).or n.namedChildren.getLast?

/-- The node inside an array, nullable or reference type. -/
def innerType? (n : Node) : Option Node := (n.child? .type).or n.namedChildren.head?

def typeArguments (n : Node) : List Node :=
  match n.namedOf? "type_argument_list" with
  | some list => list.namedChildren
  | none => []

/-- What stands before the last part of a dotted name. -/
def qualifier? (src : SourceText) (n : Node) : Option String :=
  ((n.child? .qualifier).or (n.child? .alias)).map src.text

/-- Put a qualifier on a named type; other types keep their form. -/
def requalify (qualifier : Option String) : TypeRef → TypeRef
  | .named name _ arguments => .named name qualifier arguments
  | t => t

private theorem sizeOf_lt_of_mem_typeArguments {c n : Node} (h : c ∈ typeArguments n) :
    sizeOf c < sizeOf n := by
  unfold typeArguments at h
  split at h
  case h_1 list hl =>
    have h₁ := Node.sizeOf_lt_of_mem (Node.mem_of_mem_namedChildren h)
    have h₂ := Node.sizeOf_lt_of_mem (Node.mem_of_namedOf? hl)
    omega
  case h_2 => simp at h

private theorem sizeOf_lt_of_lastName? {c n : Node} (h : lastName? n = some c) :
    sizeOf c < sizeOf n := by
  rcases Option.or_eq_some_iff.mp h with h | ⟨_, h⟩
  · exact Node.sizeOf_lt_of_mem (Node.mem_of_child? h)
  · exact Node.sizeOf_lt_of_mem (Node.mem_of_mem_namedChildren (List.mem_of_getLast? h))

private theorem sizeOf_lt_of_innerType? {c n : Node} (h : innerType? n = some c) :
    sizeOf c < sizeOf n := by
  rcases Option.or_eq_some_iff.mp h with h | ⟨_, h⟩
  · exact Node.sizeOf_lt_of_mem (Node.mem_of_child? h)
  · exact Node.sizeOf_lt_of_mem (Node.mem_of_mem_namedChildren (List.mem_of_mem_head? h))

/-- The type that a node writes. A form that is not known keeps its text. -/
def typeRef (src : SourceText) (n : Node) : TypeRef :=
  match n.kind with
  | "predefined_type" | "void_keyword" => .predefined (src.text n)
  | "identifier" => .ofSimpleName (src.text n)
  | "implicit_type" => .other "var"
  | "generic_name" =>
    .generic (((genericName? n).map src.text).getD "")
      ((typeArguments n).attach.map fun ⟨c, _⟩ => typeRef src c)
  | "qualified_name" | "alias_qualified_name" =>
    match _h : lastName? n with
    | some c => requalify (qualifier? src n) (typeRef src c)
    | none => .other (src.text n)
  | "array_type" =>
    match _h : innerType? n with
    | some c => .array (typeRef src c)
    | none => .array (.other (src.text n))
  | "nullable_type" =>
    match _h : innerType? n with
    | some c => .nullable (typeRef src c)
    | none => .nullable (.other (src.text n))
  | "ref_type" | "scoped_type" =>
    match _h : innerType? n with
    | some c => typeRef src c
    | none => .other (src.text n)
  | _ => .other (src.text n)
termination_by sizeOf n
decreasing_by
  · exact sizeOf_lt_of_mem_typeArguments (by assumption)
  · exact sizeOf_lt_of_lastName? (by assumption)
  all_goals exact sizeOf_lt_of_innerType? (by assumption)

end PatternFinder.Lowering
