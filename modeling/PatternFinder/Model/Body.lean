import PatternFinder.Model.TypeRef
import PatternFinder.Source.Location

/-! Statements and expressions of member bodies, and their preorder walk. -/
namespace PatternFinder

mutual

/-- An expression. Forms that no rule looks at are `other`, with their parts. -/
inductive Expression where
  | creation (c : ObjectCreation)
  | call (c : Invocation)
  | literal (text : String)
  | identifier (name : String)
  | lambda (body : List Statement)
  | other (parts : List Expression)

/-- A statement. Forms that no rule looks at are `compound`, with their parts. -/
inductive Statement where
  | declare (l : LocalDeclaration)
  | branch (c : Conditional)
  | compound (c : Compound)

/-- The construction of an object; the type is absent when it is inferred from the target. -/
structure ObjectCreation where
  createdType : Option TypeRef
  arguments : List Expression
  initializer : List Expression
  location : Location

/-- A call; the target is absent when the called expression has no name. -/
structure Invocation where
  target : Option String
  receiver : Option Expression
  arguments : List Expression
  location : Location

/-- A declared variable and its initial value. -/
structure Declarator where
  identifier : String
  initializer : Option Expression

/-- A declaration of local variables; the type is absent when it is inferred. -/
structure LocalDeclaration where
  declaredType : Option TypeRef
  declarators : List Declarator
  location : Location

/-- An `if` statement. -/
structure Conditional where
  condition : Option Expression
  consequence : List Statement
  alternative : List Statement
  location : Location

/-- A statement of any other kind. -/
structure Compound where
  kind : String
  expressions : List Expression
  statements : List Statement
  location : Location

end

instance : Inhabited Expression := ⟨.other []⟩

/-- What a walk over a body meets. -/
inductive BodyNode where
  | statement (s : Statement)
  | expression (e : Expression)

mutual

/-- The statement itself, then all that it contains, in source order. -/
def Statement.walk : Statement → List BodyNode
  | .declare ⟨ty, declarators, loc⟩ =>
    .statement (.declare ⟨ty, declarators, loc⟩) :: Declarator.walkAll declarators
  | .branch ⟨condition, consequence, alternative, loc⟩ =>
    .statement (.branch ⟨condition, consequence, alternative, loc⟩) ::
      (Expression.walkOption condition ++
        (Statement.walkAll consequence ++ Statement.walkAll alternative))
  | .compound ⟨kind, expressions, statements, loc⟩ =>
    .statement (.compound ⟨kind, expressions, statements, loc⟩) ::
      (Expression.walkAll expressions ++ Statement.walkAll statements)

def Statement.walkAll : List Statement → List BodyNode
  | [] => []
  | s :: ss => s.walk ++ Statement.walkAll ss

/-- The expression itself, then all that it contains, in source order. -/
def Expression.walk : Expression → List BodyNode
  | .creation ⟨ty, arguments, initializer, loc⟩ =>
    .expression (.creation ⟨ty, arguments, initializer, loc⟩) ::
      (Expression.walkAll arguments ++ Expression.walkAll initializer)
  | .call ⟨target, receiver, arguments, loc⟩ =>
    .expression (.call ⟨target, receiver, arguments, loc⟩) ::
      (Expression.walkOption receiver ++ Expression.walkAll arguments)
  | .literal text => [.expression (.literal text)]
  | .identifier name => [.expression (.identifier name)]
  | .lambda body => .expression (.lambda body) :: Statement.walkAll body
  | .other parts => .expression (.other parts) :: Expression.walkAll parts

def Expression.walkAll : List Expression → List BodyNode
  | [] => []
  | e :: es => e.walk ++ Expression.walkAll es

def Expression.walkOption : Option Expression → List BodyNode
  | none => []
  | some e => e.walk

/-- The walks of the initial values, variable by variable. -/
def Declarator.walkAll : List Declarator → List BodyNode
  | [] => []
  | ⟨_, initializer⟩ :: vs => Expression.walkOption initializer ++ Declarator.walkAll vs

end

namespace BodyNode

def creation? : BodyNode → Option ObjectCreation
  | .expression (.creation c) => some c
  | _ => none

def call? : BodyNode → Option Invocation
  | .expression (.call c) => some c
  | _ => none

def branch? : BodyNode → Option Conditional
  | .statement (.branch c) => some c
  | _ => none

def local? : BodyNode → Option LocalDeclaration
  | .statement (.declare l) => some l
  | _ => none

end BodyNode

def Expression.asCreation? : Expression → Option ObjectCreation
  | .creation c => some c
  | _ => none

def Expression.asCall? : Expression → Option Invocation
  | .call c => some c
  | _ => none

def LocalDeclaration.initializers (l : LocalDeclaration) : List Expression :=
  l.declarators.filterMap (·.initializer)

/-- The constructions in the condition and in both branches. -/
def Conditional.creations (c : Conditional) : List ObjectCreation :=
  (Expression.walkOption c.condition).filterMap BodyNode.creation? ++
    (Statement.walkAll c.consequence).filterMap BodyNode.creation? ++
    (Statement.walkAll c.alternative).filterMap BodyNode.creation?

/-- The body of a member. -/
structure Block where
  statements : List Statement

namespace Block

def walk (b : Block) : List BodyNode := Statement.walkAll b.statements

def creations (b : Block) : List ObjectCreation := b.walk.filterMap BodyNode.creation?

def calls (b : Block) : List Invocation := b.walk.filterMap BodyNode.call?

def branches (b : Block) : List Conditional := b.walk.filterMap BodyNode.branch?

def locals (b : Block) : List LocalDeclaration := b.walk.filterMap BodyNode.local?

end Block

end PatternFinder
