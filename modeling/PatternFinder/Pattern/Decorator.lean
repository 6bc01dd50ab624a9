import PatternFinder.Compilation.View
import PatternFinder.Pattern.Outcome

/-! Decorator: a class that extends an abstraction and holds another object of it. -/
namespace PatternFinder.Decorator

/-- The abstraction that a decorator wraps, once it is known. -/
structure Context where
  referenceType : Option String
deriving Repr, BEq, DecidableEq, Inhabited

/-- Declarations are told apart by the place of their identifiers. -/
def isOtherAbstraction (t candidate : TypeDeclaration) : Bool :=
  candidate.isAbstraction && !(candidate.identifierLocation == t.identifierLocation)

/-- A class with a base that is, or is extended by, another abstraction. -/
def hasAbstractClass (t : TypeDeclaration) (c : Compilation) : Outcome :=
  if t.isInterface then .notFound
  else match t.baseIdentifiers.find? fun base =>
      (c.typesNamed base).any (isOtherAbstraction t) ||
        (c.typesWithBase base).any (isOtherAbstraction t) with
    | some base => .found t.identifierLocation (some base)
    | none => .notFound

def Context.ofOutcome (o : Outcome) : Context := ⟨if o.matched then o.evidence else none⟩

def Context.discover (t : TypeDeclaration) (c : Compilation) : Context :=
  .ofOutcome (hasAbstractClass t c)

/-- A private field of the wrapped type. -/
def hasPrivateField (t : TypeDeclaration) (context : Context) : Outcome :=
  match context.referenceType with
  | none => .notFound
  | some reference =>
    match t.fields.find? fun f =>
        f.modifiers.isPrivate && f.declaredType.hasIdentifier reference with
    | some f => .found f.location (some f.firstName)
    | none => .notFound

def takesFirst (reference : String) (c : ConstructorDeclaration) : Bool :=
  c.modifiers.isPublic &&
    (c.firstParameter?.bind (·.declaredType)).any (·.hasIdentifier reference)

/-- A public constructor that takes the wrapped object first. -/
def hasConstructor (t : TypeDeclaration) (context : Context) : Outcome :=
  match context.referenceType with
  | none => .notFound
  | some reference =>
    match t.constructors.find? (takesFirst reference) with
    | some c => .found c.location (some reference)
    | none => .notFound

/-- Follow the first arguments inward: whether the innermost construction is built from something
other than a literal. -/
def endsOpen : List Expression → Bool
  | .creation ⟨_, arguments, _, _⟩ :: _ => endsOpen arguments
  | .literal _ :: _ => false
  | _ => true

/-- A construction whose first argument is a construction, and so on inward. -/
def isWrappingChain (c : ObjectCreation) : Bool :=
  match c.arguments with
  | .creation inner :: _ => endsOpen inner.arguments
  | _ => false

/-- A local variable that is initialized by a wrapping chain. -/
def wrapsInStatement (l : LocalDeclaration) : Outcome :=
  match (l.initializers.filterMap Expression.asCreation?).find? isWrappingChain with
  | some c => .found l.location (c.createdType.map TypeRef.text)
  | none => .notFound

/-- A decorator has a wrapped abstraction, a private field of it and a public constructor for it. -/
def verdict (t : TypeDeclaration) (c : Compilation) : Outcome :=
  let context := Context.discover t c
  match context.referenceType with
  | none => .notFound
  | some reference =>
    if (hasPrivateField t context).matched && (hasConstructor t context).matched then
      .found t.identifierLocation (some reference)
    else .notFound

end PatternFinder.Decorator
