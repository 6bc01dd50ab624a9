import PatternFinder.Lowering.TypeRef
import PatternFinder.Model.Body

/-! Reading statements and expressions off concrete nodes, down to a bounded depth. -/
namespace PatternFinder.Lowering

/-- A way to read the statements and the expressions below a node. -/
structure Reader where
  statement : Node → Statement
  expression : Node → Expression

/-- The named children without comments. -/
def contents (n : Node) : List Node := n.namedChildren.filter (!·.isComment)

def isStatementKind (kind : String) : Bool :=
  "_statement".toList.isSuffixOf kind.toList ||
    ["block", "catch_clause", "finally_clause", "switch_section", "switch_body",
      "else_clause"].contains kind

def literalKinds : List String :=
  ["string_literal", "verbatim_string_literal", "raw_string_literal",
    "interpolated_string_expression", "character_literal", "integer_literal", "real_literal",
    "boolean_literal", "null_literal"]

/-- The test that picks out the child naming a declarator: the child with the field, or the first
identifier when no child has it. -/
def isDeclaratorName (n : Node) : Node → Bool :=
  if (n.child? .name).isSome then (·.field == some .name)
  else fun c => c.named && c.kind == "identifier"

def declaratorName? (n : Node) : Option Node := n.children.find? (isDeclaratorName n)

/-- The named children of a declarator other than its name. -/
def declaratorParts (n : Node) : List Node :=
  (n.children.eraseP (isDeclaratorName n)).filter (·.named)

/-- The written type of a variable declaration. -/
def declaredTypeNode? (n : Node) : Option Node :=
  (n.child? .type).or (n.namedChildren.find? (·.kind != "variable_declarator"))

/-- The written type of a construction. -/
def createdTypeNode? (n : Node) : Option Node :=
  (n.child? .type).or
    (n.namedChildren.find? fun c => c.kind != "argument_list" && c.kind != "initializer_expression")

def argumentList? (n : Node) : Option Node := (n.child? .arguments).or (n.namedOf? "argument_list")

def initializerList? (n : Node) : Option Node :=
  (n.child? .initializer).or (n.namedOf? "initializer_expression")

/-- The expression that a call applies. -/
def callee? (n : Node) : Option Node := (n.child? .function).or n.namedChildren.head?

/-- The object on which a call is made. -/
def receiver? (n : Node) : Option Node :=
  match callee? n with
  | some f => if f.kind == "member_access_expression" then f.child? .expression else none
  | none => none

def lambdaBody? (n : Node) : Option Node :=
  ((n.child? .body).or (n.namedOf? "block")).or n.namedChildren.getLast?

/-- The name under which an expression is called: the last part of a member access. -/
def calledName? (src : SourceText) (n : Node) : Option String :=
  match n.kind with
  | "identifier" => some (src.text n)
  | "generic_name" => (genericName? n).map src.text
  | "member_access_expression" | "qualified_name" =>
    match _h : n.child? .name with
    | some name => calledName? src name
    | none => none
  | _ => none
termination_by sizeOf n
decreasing_by
  all_goals exact Node.sizeOf_lt_of_mem (Node.mem_of_child? (by assumption))

section Step

variable (src : SourceText) (inner : Reader)

def statements (n : Node) : List Statement := (contents n).map inner.statement

def expressions (n : Node) : List Expression := (contents n).map inner.expression

def initialValue (value : Option Expression) (part : Node) : Option Expression :=
  match part.kind with
  | "equals_value_clause" => part.namedChildren.head?.map inner.expression
  | "bracketed_argument_list" | "tuple_pattern" | "comment" => value
  | _ => some (inner.expression part)

/-- A variable takes the value of its last part that can be one. -/
def declarator (n : Node) : Declarator where
  identifier := ((declaratorName? n).map src.text).getD ""
  initializer := (declaratorParts n).foldl (initialValue inner) none

def variableType (n : Node) : TypeRef :=
  ((declaredTypeNode? n).map (typeRef src)).getD (.other "")

def declarators (n : Node) : List Declarator :=
  (n.namedChildren.filter (·.kind == "variable_declarator")).map (declarator src inner)

/-- The type and the variables of the variable declaration below a node. -/
def declaration (n : Node) : TypeRef × List Declarator :=
  match n.namedOf? "variable_declaration" with
  | some d => (variableType src d, declarators src inner d)
  | none => (.other "", [])

/-- A type that leaves the choice to the compiler is no type. -/
def explicitType : TypeRef → Option TypeRef
  | .other text => if text == "var" || text.isEmpty then none else some (.other text)
  | .named name qualifier arguments =>
    if name == "var" then none else some (.named name qualifier arguments)
  | t => some t

def localDeclaration (n : Node) : LocalDeclaration :=
  let d := declaration src inner n
  ⟨explicitType d.1, d.2, src.location n⟩

/-- An `if` statement whose parts carry their fields, or else stand in order. -/
def conditional (n : Node) : Conditional :=
  match n.child? .consequence with
  | some consequence =>
    ⟨(n.child? .condition).map inner.expression, [inner.statement consequence],
      ((n.child? .alternative).map inner.statement).toList, src.location n⟩
  | none =>
    let branches := (n.namedChildren.filter (isStatementKind ·.kind)).map inner.statement
    ⟨((contents n).find? (!isStatementKind ·.kind)).map inner.expression,
      branches.take 1, (branches.drop 1).take 1, src.location n⟩

def compound (n : Node) : Compound :=
  ⟨n.kind, ((contents n).filter (!isStatementKind ·.kind)).map inner.expression,
    ((contents n).filter (isStatementKind ·.kind)).map inner.statement, src.location n⟩

def statementStep (n : Node) : Statement :=
  match n.kind with
  | "local_declaration_statement" => .declare (localDeclaration src inner n)
  | "if_statement" => .branch (conditional src inner n)
  | _ => .compound (compound src inner n)

/-- The elements of a list that may be missing. -/
def elements (list : Option Node) : List Expression :=
  ((list.map (expressions inner)).getD [])

def creation (explicit : Bool) (n : Node) : ObjectCreation :=
  ⟨if explicit then (createdTypeNode? n).map (typeRef src) else none,
    elements inner (argumentList? n), elements inner (initializerList? n), src.location n⟩

def invocation (n : Node) : Invocation :=
  ⟨(callee? n).bind (calledName? src), (receiver? n).map inner.expression,
    elements inner (argumentList? n), src.location n⟩

/-- The body of a lambda; an expression stands for one statement that evaluates it. -/
def lambdaStatements (n : Node) : List Statement :=
  match lambdaBody? n with
  | some body =>
    if body.kind == "block" then statements inner body
    else [.compound ⟨"expression_statement", [inner.expression body], [], src.location body⟩]
  | none => []

def expressionStep (n : Node) : Expression :=
  match n.kind with
  | "object_creation_expression" => .creation (creation src inner true n)
  | "implicit_object_creation_expression" => .creation (creation src inner false n)
  | "invocation_expression" => .call (invocation src inner n)
  | "parenthesized_expression" =>
    match expressions inner n with
    | [e] => e
    | es => .other es
  | "argument" => (n.namedChildren.getLast?.map inner.expression).getD (.other [])
  | "identifier" => .identifier (src.text n)
  | "lambda_expression" | "anonymous_method_expression" => .lambda (lambdaStatements src inner n)
  | "block" => .lambda (statements inner n)
  | kind =>
    if literalKinds.contains kind then .literal (src.text n) else .other (expressions inner n)

/-- Read one level and leave what is below it to `inner`. -/
def step : Reader := ⟨statementStep src inner, expressionStep src inner⟩

end Step

/-- The reader that keeps nothing below a node. -/
def truncated (src : SourceText) : Reader :=
  ⟨fun n => .compound ⟨n.kind, [], [], src.location n⟩, fun _ => .other []⟩

/-- The reader that reads `levels` levels and cuts off what lies deeper. -/
def reader (src : SourceText) : (levels : Nat) → Reader
  | 0 => truncated src
  | levels + 1 => step src (reader src levels)

/-- Nesting is cut off at this depth, counted from the body of a member. -/
def maxDepth : Nat := 128

/-- The reader for what stands directly in a member body. -/
def bodyReader (src : SourceText) : Reader := reader src (maxDepth - 1)

end PatternFinder.Lowering
