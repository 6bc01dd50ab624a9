import PatternFinder.Lowering.Body
import PatternFinder.Model.Declaration

/-! Reading members off concrete nodes. -/
namespace PatternFinder.Lowering

/-- The keywords that may stand as bare tokens in front of a declaration. -/
def bareKeywords : List String :=
  (Modifier.keywords.filter (·.2 != .new)).map (·.1)

def modifiers (src : SourceText) (n : Node) : Modifiers :=
  n.children.filterMap fun c =>
    if c.kind == "modifier" then some (.ofKeyword (src.text c))
    else if !c.named && bareKeywords.contains c.kind then some (.ofKeyword c.kind)
    else none

/-- The type in a child with the given field; the empty text when there is none. -/
def fieldType (src : SourceText) (n : Option Node) : TypeRef :=
  (n.map (typeRef src)).getD (.other "")

def parameter (src : SourceText) (n : Node) : Parameter where
  identifier :=
    (((n.child? .name).or (n.namedChildren.filter (·.kind == "identifier")).getLast?).map
      src.text).getD ""
  declaredType := (n.child? .type).map (typeRef src)

def parameters (src : SourceText) (n : Node) : List Parameter :=
  match (n.child? .parameters).or (n.namedOf? "parameter_list") with
  | some list => (list.namedChildren.filter (·.kind == "parameter")).map (parameter src)
  | none => []

section Bodies

variable (src : SourceText) (bodies : Reader)

/-- A block, or an arrow with an expression, which stands for one statement. -/
def bodyOf (n : Node) : Option Block :=
  match n.kind with
  | "block" => some ⟨statements bodies n⟩
  | "arrow_expression_clause" =>
    some ⟨[.compound ⟨n.kind, expressions bodies n, [], src.location n⟩]⟩
  | _ => none

def body? (n : Node) : Option Block :=
  (((n.child? .body).or (n.namedOf? "block")).or (n.namedOf? "arrow_expression_clause")).bind
    (bodyOf src bodies)

/-- The bodies of the accessors one after the other; none when they hold no statement. -/
def accessorBody? (n : Node) : Option Block :=
  ((n.child? .accessors).or (n.namedOf? "accessor_list")).bind fun accessors =>
    let found := ((accessors.namedChildren.filter (·.kind == "accessor_declaration")).filterMap
      (body? src bodies)).flatMap (·.statements)
    if found.isEmpty then none else some ⟨found⟩

def propertyBody? (n : Node) : Option Block :=
  match n.namedOf? "arrow_expression_clause" with
  | some arrow => bodyOf src bodies arrow
  | none => accessorBody? src bodies n

def field (n : Node) : FieldDeclaration :=
  let d := declaration src bodies n
  ⟨modifiers src n, d.1, d.2, src.location n⟩

def constructor (n : Node) : ConstructorDeclaration :=
  ⟨modifiers src n, src.fieldText n .name, parameters src n, body? src bodies n, src.location n⟩

def method (n : Node) : MethodDeclaration :=
  ⟨modifiers src n, src.fieldText n .name, src.location ((n.child? .name).getD n),
    fieldType src ((n.child? .returns).or (n.child? .type)), parameters src n,
    body? src bodies n, src.location n⟩

def property (n : Node) : PropertyDeclaration :=
  ⟨modifiers src n, src.fieldText n .name, fieldType src (n.child? .type),
    propertyBody? src bodies n, src.location n⟩

/-- The member that a node declares, if it declares one of the four kinds. -/
def member? (n : Node) : Option Member :=
  match n.kind with
  | "field_declaration" => some (.field (field src bodies n))
  | "constructor_declaration" => some (.constructor (constructor src bodies n))
  | "method_declaration" => some (.method (method src bodies n))
  | "property_declaration" => some (.property (property src bodies n))
  | _ => none

end Bodies

end PatternFinder.Lowering
