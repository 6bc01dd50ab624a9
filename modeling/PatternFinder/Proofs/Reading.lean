import Mathlib.Data.List.Basic
import PatternFinder.Lowering.Body

/-! Which nodes are read out of a body, and the constructions, calls, branches and local variables
that come of them. -/
namespace PatternFinder

inductive FactKind where
  | creation | call | branch | «local»
deriving DecidableEq

/-- Something that rules ask for in a body, and its place. -/
structure Fact where
  kind : FactKind
  location : Location
deriving DecidableEq

def BodyNode.fact? : BodyNode → Option Fact
  | .expression (.creation c) => some ⟨.creation, c.location⟩
  | .expression (.call c) => some ⟨.call, c.location⟩
  | .statement (.branch c) => some ⟨.branch, c.location⟩
  | .statement (.declare l) => some ⟨.local, l.location⟩
  | _ => none

namespace BodyNode

@[simp] theorem fact?_creation (c : ObjectCreation) :
    fact? (.expression (.creation c)) = some ⟨.creation, c.location⟩ := rfl

@[simp] theorem fact?_call (c : Invocation) :
    fact? (.expression (.call c)) = some ⟨.call, c.location⟩ := rfl

@[simp] theorem fact?_literal (text : String) : fact? (.expression (.literal text)) = none := rfl

@[simp] theorem fact?_identifier (name : String) :
    fact? (.expression (.identifier name)) = none := rfl

@[simp] theorem fact?_lambda (body : List Statement) :
    fact? (.expression (.lambda body)) = none := rfl

@[simp] theorem fact?_other (parts : List Expression) :
    fact? (.expression (.other parts)) = none := rfl

@[simp] theorem fact?_declare (l : LocalDeclaration) :
    fact? (.statement (.declare l)) = some ⟨.local, l.location⟩ := rfl

@[simp] theorem fact?_branch (c : Conditional) :
    fact? (.statement (.branch c)) = some ⟨.branch, c.location⟩ := rfl

@[simp] theorem fact?_compound (c : Compound) : fact? (.statement (.compound c)) = none := rfl

theorem creation?_eq_some_iff {n : BodyNode} {c : ObjectCreation} :
    n.creation? = some c ↔ n = .expression (.creation c) := by
  rcases n with _ | (_ | _ | _ | _ | _ | _) <;> simp [creation?]

theorem branch?_eq_some_iff {n : BodyNode} {c : Conditional} :
    n.branch? = some c ↔ n = .statement (.branch c) := by
  rcases n with (_ | _ | _) | _ <;> simp [branch?]

theorem local?_eq_some_iff {n : BodyNode} {l : LocalDeclaration} :
    n.local? = some l ↔ n = .statement (.declare l) := by
  rcases n with (_ | _ | _) | _ <;> simp [local?]

end BodyNode

theorem Statement.walkAll_eq_flatMap (ss : List Statement) :
    walkAll ss = ss.flatMap Statement.walk := by
  induction ss with
  | nil => simp [walkAll]
  | cons s ss ih => simp [walkAll, ih]

theorem Expression.walkAll_eq_flatMap (es : List Expression) :
    walkAll es = es.flatMap Expression.walk := by
  induction es with
  | nil => simp [walkAll]
  | cons e es ih => simp [walkAll, ih]

theorem Expression.walkOption_eq_flatMap (e : Option Expression) :
    walkOption e = e.toList.flatMap Expression.walk := by
  cases e <;> simp [walkOption]

theorem Declarator.walkAll_eq_flatMap (vs : List Declarator) :
    walkAll vs = (vs.filterMap (·.initializer)).flatMap Expression.walk := by
  induction vs with
  | nil => simp [walkAll]
  | cons v vs ih =>
    obtain ⟨name, initializer⟩ := v
    cases initializer <;> simp [walkAll, ih, Expression.walkOption]

namespace Lowering

/-- A node, and whether it is read as a statement or as an expression. -/
inductive Part where
  | statement (n : Node)
  | expression (n : Node)

namespace Part

def node : Part → Node
  | .statement n => n
  | .expression n => n

/-- The kind of fact that a node is, when it is read in this way. -/
def factKind? : Part → Option FactKind
  | .statement n => match n.kind with
    | "local_declaration_statement" => some .local
    | "if_statement" => some .branch
    | _ => none
  | .expression n => match n.kind with
    | "object_creation_expression" | "implicit_object_creation_expression" => some .creation
    | "invocation_expression" => some .call
    | _ => none

def fact? (src : SourceText) (p : Part) : Option Fact :=
  p.factKind?.map (⟨·, src.location p.node⟩)

end Part

/-- What a declarator takes its initial value from, given what it had before. -/
def initialNode (value : Option Node) (part : Node) : Option Node :=
  match part.kind with
  | "equals_value_clause" => part.namedChildren.head?
  | "bracketed_argument_list" | "tuple_pattern" | "comment" => value
  | _ => some part

/-- The initial values of the variables that are declared below a node. -/
def initialNodes (n : Node) : List Node :=
  match n.namedOf? "variable_declaration" with
  | some d => (d.namedChildren.filter (·.kind == "variable_declarator")).filterMap fun v =>
    (declaratorParts v).foldl initialNode none
  | none => []

def conditionalParts (n : Node) : List Part :=
  match n.child? .consequence with
  | some consequence => (n.child? .condition).toList.map .expression ++
    (.statement consequence :: (n.child? .alternative).toList.map .statement)
  | none => ((contents n).find? (!isStatementKind ·.kind)).toList.map .expression ++
    ((n.namedChildren.filter (isStatementKind ·.kind)).take 2).map .statement

def lambdaParts (n : Node) : List Part :=
  match lambdaBody? n with
  | some body => if body.kind == "block" then (contents body).map .statement else [.expression body]
  | none => []

/-- The contents of a list that may be missing. -/
def listed (list : Option Node) : List Part :=
  list.toList.flatMap fun n => (contents n).map .expression

namespace Part

/-- What is read next below a node, in the order of the walk. -/
def parts : Part → List Part
  | .statement n => match n.kind with
    | "local_declaration_statement" => (initialNodes n).map .expression
    | "if_statement" => conditionalParts n
    | _ => ((contents n).filter (!isStatementKind ·.kind)).map .expression ++
      ((contents n).filter (isStatementKind ·.kind)).map .statement
  | .expression n => match n.kind with
    | "object_creation_expression" | "implicit_object_creation_expression" =>
      listed (argumentList? n) ++ listed (initializerList? n)
    | "invocation_expression" =>
      (receiver? n).toList.map .expression ++ listed (argumentList? n)
    | "parenthesized_expression" => (contents n).map .expression
    | "argument" => n.namedChildren.getLast?.toList.map .expression
    | "identifier" => []
    | "lambda_expression" | "anonymous_method_expression" => lambdaParts n
    | "block" => (contents n).map .statement
    | kind => if literalKinds.contains kind then [] else (contents n).map .expression

/-- All that is read from a node down to a number of levels, in preorder. -/
def readings : Nat → Part → List Part
  | 0, _ => []
  | levels + 1, p => p :: p.parts.flatMap (readings levels)

end Part

namespace Reader

/-- The facts that a walk over what is read of a node meets. -/
def facts (r : Reader) : Part → List Fact
  | .statement n => (r.statement n).walk.filterMap BodyNode.fact?
  | .expression n => (r.expression n).walk.filterMap BodyNode.fact?

end Reader

section Step

variable (src : SourceText) (inner : Reader)

theorem foldl_initialValue (parts : List Node) (value : Option Node) :
    parts.foldl (initialValue inner) (value.map inner.expression) =
      (parts.foldl initialNode value).map inner.expression := by
  induction parts generalizing value with
  | nil => rfl
  | cons part parts ih =>
    have hstep : initialValue inner (value.map inner.expression) part =
        (initialNode value part).map inner.expression := by
      unfold initialValue initialNode
      split <;> simp [*]
    rw [List.foldl_cons, List.foldl_cons, hstep, ih]

theorem facts_statements (ns : List Node) :
    (Statement.walkAll (ns.map inner.statement)).filterMap BodyNode.fact? =
      (ns.map Part.statement).flatMap inner.facts := by
  rw [Statement.walkAll_eq_flatMap, List.flatMap_map, List.flatMap_map, List.filterMap_flatMap]
  rfl

theorem facts_expressions (ns : List Node) :
    (Expression.walkAll (ns.map inner.expression)).filterMap BodyNode.fact? =
      (ns.map Part.expression).flatMap inner.facts := by
  rw [Expression.walkAll_eq_flatMap, List.flatMap_map, List.flatMap_map, List.filterMap_flatMap]
  rfl

theorem facts_option (n : Option Node) :
    (Expression.walkOption (n.map inner.expression)).filterMap BodyNode.fact? =
      (n.toList.map Part.expression).flatMap inner.facts := by
  cases n <;> simp [Expression.walkOption, Reader.facts]

theorem facts_elements (list : Option Node) :
    (Expression.walkAll (elements inner list)).filterMap BodyNode.fact? =
      (listed list).flatMap inner.facts := by
  cases list with
  | none => simp [elements, listed, Expression.walkAll]
  | some n => simp [elements, listed, expressions, facts_expressions]

theorem initializer_declarator (v : Node) : (declarator src inner v).initializer =
    ((declaratorParts v).foldl initialNode none).map inner.expression :=
  foldl_initialValue inner (declaratorParts v) none

/-- The initial values in a declaration are what is read of the nodes that give them. -/
theorem initializers_declaration (n : Node) :
    (declaration src inner n).2.filterMap (·.initializer) =
      (initialNodes n).map inner.expression := by
  unfold declaration initialNodes
  cases n.namedOf? "variable_declaration" with
  | none => rfl
  | some d =>
    dsimp only
    rw [declarators, List.filterMap_map, List.map_filterMap]
    simp only [Function.comp_def, initializer_declarator]

theorem facts_declarators (n : Node) :
    (Declarator.walkAll (declaration src inner n).2).filterMap BodyNode.fact? =
      ((initialNodes n).map Part.expression).flatMap inner.facts := by
  rw [Declarator.walkAll_eq_flatMap, initializers_declaration, ← Expression.walkAll_eq_flatMap,
    facts_expressions]

theorem facts_conditional (n : Node) :
    (Statement.branch (conditional src inner n)).walk.filterMap BodyNode.fact? =
      ⟨.branch, src.location n⟩ :: (conditionalParts n).flatMap inner.facts := by
  unfold conditional conditionalParts
  cases n.child? .consequence with
  | none =>
    have hsplit :=
      List.take_append_drop 1 ((n.namedChildren.filter (isStatementKind ·.kind)).take 2)
    rw [List.take_take, List.drop_take] at hsplit
    dsimp only
    rw [← List.map_take, ← List.map_drop, ← List.map_take, ← hsplit]
    simp only [Statement.walk, List.filterMap_cons, BodyNode.fact?_branch, List.filterMap_append,
      facts_option, facts_statements, List.map_append, List.flatMap_append]
    rfl
  | some consequence =>
    have hconsequence := facts_statements inner [consequence]
    have halternative : ((n.child? .alternative).map inner.statement).toList =
        (n.child? .alternative).toList.map inner.statement := by
      cases n.child? .alternative <;> rfl
    rw [List.map_singleton, List.map_singleton, List.flatMap_singleton] at hconsequence
    dsimp only
    simp only [Statement.walk, List.filterMap_cons, BodyNode.fact?_branch, List.filterMap_append,
      facts_option, halternative, facts_statements, hconsequence, List.flatMap_append,
      List.flatMap_cons]

theorem facts_lambda (n : Node) :
    (Expression.lambda (lambdaStatements src inner n)).walk.filterMap BodyNode.fact? =
      (lambdaParts n).flatMap inner.facts := by
  unfold lambdaStatements lambdaParts
  cases lambdaBody? n with
  | none => simp [Expression.walk, Statement.walkAll]
  | some body =>
    dsimp only
    split_ifs
    · simp only [Expression.walk, List.filterMap_cons, BodyNode.fact?_lambda, statements,
        facts_statements]
    · simp [Expression.walk, Statement.walkAll, Statement.walk, Expression.walkAll, Reader.facts,
        List.filterMap_cons]

theorem facts_statementStep (n : Node) :
    (statementStep src inner n).walk.filterMap BodyNode.fact? =
      ((Part.statement n).fact? src).toList ++ (Part.statement n).parts.flatMap inner.facts := by
  unfold statementStep Part.fact? Part.factKind? Part.parts
  split
  case h_1 hkind => simp [hkind, localDeclaration, Statement.walk, facts_declarators, Part.node]
  case h_2 hkind => simp [hkind, facts_conditional, Part.node]
  case h_3 hlocal hbranch =>
    simp only [compound, Statement.walk, List.filterMap_cons, BodyNode.fact?_compound,
      List.filterMap_append, facts_expressions, facts_statements]
    simp

private theorem facts_expressionStep (n : Node) :
    (expressionStep src inner n).walk.filterMap BodyNode.fact? =
      ((Part.expression n).fact? src).toList ++ (Part.expression n).parts.flatMap inner.facts := by
  have hcontents : (Expression.other (expressions inner n)).walk.filterMap BodyNode.fact? =
      ((contents n).map Part.expression).flatMap inner.facts := by
    simp only [Expression.walk, List.filterMap_cons, BodyNode.fact?_other, expressions,
      facts_expressions]
  have hparenthesized : ∀ e, expressions inner n = [e] → e.walk.filterMap BodyNode.fact? =
      ((contents n).map Part.expression).flatMap inner.facts := by
    intro e he
    rw [← hcontents, he]
    simp [Expression.walk, Expression.walkAll, List.filterMap_cons]
  unfold expressionStep Part.fact? Part.factKind? Part.parts
  split
  case h_1 hkind =>
    simp [hkind, creation, Expression.walk, facts_elements, Part.node]
  case h_2 hkind =>
    simp [hkind, creation, Expression.walk, facts_elements, Part.node]
  case h_3 hkind =>
    simp [hkind, invocation, Expression.walk, facts_elements, facts_option, Part.node]
  case h_4 hkind =>
    simp only [hkind]
    split
    case h_1 e he => simpa using hparenthesized e he
    case h_2 => simpa using hcontents
  case h_5 hkind =>
    cases hlast : n.namedChildren.getLast? <;>
      simp [hkind, hlast, Expression.walk, Expression.walkAll, Reader.facts]
  case h_6 hkind => simp [hkind, Expression.walk]
  case h_7 hkind => simp [hkind, facts_lambda]
  case h_8 hkind => simp [hkind, facts_lambda]
  case h_9 hkind =>
    simp [hkind, Expression.walk, statements, facts_statements, List.filterMap_cons]
  case h_10 =>
    rw [List.contains_eq_mem]
    by_cases hliteral : n.kind ∈ literalKinds
    · simp [hliteral, Expression.walk]
    · simp [hliteral, hcontents]

/-- One level of reading: the fact that a node is, then the facts of its parts. -/
theorem facts_step (p : Part) :
    (step src inner).facts p = (p.fact? src).toList ++ p.parts.flatMap inner.facts := by
  cases p with
  | statement n => exact facts_statementStep src inner n
  | expression n => exact facts_expressionStep src inner n

end Step

/-- The facts in what is read of a node are the facts among the nodes that are read. -/
theorem facts_reader (src : SourceText) (levels : Nat) (p : Part) :
    (reader src levels).facts p = (p.readings levels).filterMap (Part.fact? src) := by
  induction levels generalizing p with
  | zero =>
    cases p <;> simp [reader, truncated, Reader.facts, Part.readings, Statement.walk,
      Expression.walk, Expression.walkAll, Statement.walkAll, List.filterMap_cons]
  | succ levels ih =>
    have hparts : p.parts.flatMap (reader src levels).facts =
        (p.parts.flatMap (Part.readings levels)).filterMap (Part.fact? src) := by
      rw [List.filterMap_flatMap, funext ih]
    rw [reader, facts_step, hparts, Part.readings, List.filterMap_cons]
    cases p.fact? src <;> rfl

end Lowering

end PatternFinder
