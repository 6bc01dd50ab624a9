import PatternFinder.Encoding.TypeRef
import PatternFinder.Model.Body

/-! The JSON form of statements and expressions. -/
namespace PatternFinder

mutual

def Expression.toJson : Expression → Json
  | .creation ⟨ty, arguments, initializer, loc⟩ =>
    .object [("ObjectCreation", .object [("created_type", Json.ofOption TypeRef.toJson ty),
      ("arguments", .array (Expression.toJsons arguments)),
      ("initializer", .array (Expression.toJsons initializer)), ("location", loc.toJson)])]
  | .call ⟨target, receiver, arguments, loc⟩ =>
    .object [("Invocation", .object [("target", Json.ofOption Json.string target),
      ("receiver", Expression.optionToJson receiver),
      ("arguments", .array (Expression.toJsons arguments)), ("location", loc.toJson)])]
  | .literal text => .object [("Literal", .string text)]
  | .identifier name => .object [("Identifier", .string name)]
  | .lambda body => .object [("Lambda", .array (Statement.toJsons body))]
  | .other parts => .object [("Other", .array (Expression.toJsons parts))]

def Expression.toJsons : List Expression → List Json
  | [] => []
  | e :: es => e.toJson :: Expression.toJsons es

def Expression.optionToJson : Option Expression → Json
  | none => .null
  | some e => e.toJson

def Statement.toJson : Statement → Json
  | .declare ⟨ty, declarators, loc⟩ =>
    .object [("LocalDeclaration", .object [("declared_type", Json.ofOption TypeRef.toJson ty),
      ("variables", .array (Declarator.toJsons declarators)), ("location", loc.toJson)])]
  | .branch ⟨condition, consequence, alternative, loc⟩ =>
    .object [("Conditional", .object [("condition", Expression.optionToJson condition),
      ("consequence", .array (Statement.toJsons consequence)),
      ("alternative", .array (Statement.toJsons alternative)), ("location", loc.toJson)])]
  | .compound ⟨kind, expressions, statements, loc⟩ =>
    .object [("Compound", .object [("kind", .string kind),
      ("expressions", .array (Expression.toJsons expressions)),
      ("statements", .array (Statement.toJsons statements)), ("location", loc.toJson)])]

def Statement.toJsons : List Statement → List Json
  | [] => []
  | s :: ss => s.toJson :: Statement.toJsons ss

def Declarator.toJson : Declarator → Json
  | ⟨identifier, initializer⟩ =>
    .object [("identifier", .string identifier),
      ("initializer", Expression.optionToJson initializer)]

def Declarator.toJsons : List Declarator → List Json
  | [] => []
  | d :: ds => d.toJson :: Declarator.toJsons ds

end

/-- A way to read the statements and the expressions below a value. -/
structure BodyDecoder where
  statement : Json → Option Statement
  expression : Json → Option Expression

namespace BodyDecoder

section Step

variable (inner : BodyDecoder)

def declarator (j : Json) : Option Declarator := do
  let identifier ← j.required "identifier" Json.asString?
  let initializer ← j.optional "initializer" inner.expression
  some ⟨identifier, initializer⟩

/-- Read one level of an expression and leave what is below it to `inner`. -/
def expressionStep : Json → Option Expression
  | .object [("ObjectCreation", j)] => do
    let ty ← j.optional "created_type" TypeRef.ofJson?
    let arguments ← j.required "arguments" (Json.list inner.expression)
    let initializer ← j.required "initializer" (Json.list inner.expression)
    let loc ← j.required "location" Location.ofJson?
    some (.creation ⟨ty, arguments, initializer, loc⟩)
  | .object [("Invocation", j)] => do
    let target ← j.optional "target" Json.asString?
    let receiver ← j.optional "receiver" inner.expression
    let arguments ← j.required "arguments" (Json.list inner.expression)
    let loc ← j.required "location" Location.ofJson?
    some (.call ⟨target, receiver, arguments, loc⟩)
  | .object [("Literal", .string text)] => some (.literal text)
  | .object [("Identifier", .string name)] => some (.identifier name)
  | .object [("Lambda", j)] => (j.list inner.statement).map .lambda
  | .object [("Other", j)] => (j.list inner.expression).map .other
  | _ => none

/-- Read one level of a statement and leave what is below it to `inner`. -/
def statementStep : Json → Option Statement
  | .object [("LocalDeclaration", j)] => do
    let ty ← j.optional "declared_type" TypeRef.ofJson?
    let declarators ← j.required "variables" (Json.list inner.declarator)
    let loc ← j.required "location" Location.ofJson?
    some (.declare ⟨ty, declarators, loc⟩)
  | .object [("Conditional", j)] => do
    let condition ← j.optional "condition" inner.expression
    let consequence ← j.required "consequence" (Json.list inner.statement)
    let alternative ← j.required "alternative" (Json.list inner.statement)
    let loc ← j.required "location" Location.ofJson?
    some (.branch ⟨condition, consequence, alternative, loc⟩)
  | .object [("Compound", j)] => do
    let kind ← j.required "kind" Json.asString?
    let expressions ← j.required "expressions" (Json.list inner.expression)
    let statements ← j.required "statements" (Json.list inner.statement)
    let loc ← j.required "location" Location.ofJson?
    some (.compound ⟨kind, expressions, statements, loc⟩)
  | _ => none

end Step

/-- The decoder that reads values of at most `levels` levels. -/
def upTo : (levels : Nat) → BodyDecoder
  | 0 => ⟨fun _ => none, fun _ => none⟩
  | levels + 1 => ⟨statementStep (upTo levels), expressionStep (upTo levels)⟩

end BodyDecoder

def Statement.ofJson? (j : Json) : Option Statement := (BodyDecoder.upTo j.height).statement j

def Expression.ofJson? (j : Json) : Option Expression := (BodyDecoder.upTo j.height).expression j

def Declarator.ofJson? (j : Json) : Option Declarator := (BodyDecoder.upTo j.height).declarator j

namespace Block

def toJson (b : Block) : Json := .object [("statements", Json.ofList Statement.toJson b.statements)]

def ofJson? (j : Json) : Option Block :=
  (j.required "statements" (Json.list Statement.ofJson?)).map Block.mk

end Block

end PatternFinder
