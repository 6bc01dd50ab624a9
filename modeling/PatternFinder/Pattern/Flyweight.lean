import PatternFinder.Compilation.View
import PatternFinder.Pattern.Outcome

/-! Flyweight: a pool of shared objects and a method that hands them out. -/
namespace PatternFinder.Flyweight

/-- The element types of the pools of a type, and how many of its fields could not be resolved. -/
structure Context where
  elementTypes : List String
  unresolved : Nat
deriving Repr, BEq, DecidableEq, Inhabited

/-- A field that holds a collection of elements with a name. -/
def hasCollection (f : FieldDeclaration) (c : Compilation) : Outcome :=
  match c.semantics with
  | none => .unsupported .noSemanticModel
  | some semantics =>
    match semantics.isCollection f.declaredType with
    | none => .unsupported (.unresolvedType f.declaredType.text)
    | some false => .notFound
    | some true =>
      match (semantics.elementType f.declaredType).bind TypeRef.simpleName? with
      | some name => .found f.location (some name)
      | none => .unsupported (.unresolvedElementType f.declaredType.text)

namespace Context

def collect (t : TypeDeclaration) (c : Compilation) : Context :=
  let outcomes := t.fields.map (hasCollection · c)
  ⟨((outcomes.filter (·.matched)).filterMap (·.evidence)).eraseDups,
    (outcomes.filter (·.isUnsupported)).length⟩

def tracks (context : Context) (elementType : String) : Bool :=
  context.elementTypes.contains elementType

end Context

/-- Whether a body constructs an object of the named type under some condition. -/
def createsConditionally (b : Block) (name : String) : Bool :=
  b.branches.any fun branch => branch.creations.any fun creation =>
    creation.createdType.bind TypeRef.simpleName? == some name

/-- A public method that returns an element of a pool and constructs it under some condition. -/
def hasGetMethod (m : MethodDeclaration) (context : Context) : Outcome :=
  if !m.modifiers.isPublic || m.returnType.isVoid then .notFound
  else match m.body, m.returnType.simpleName? with
    | some b, some returned =>
      if !createsConditionally b returned then .notFound
      else if context.tracks returned then .found m.identifierLocation (some returned)
      else if 0 < context.unresolved then .unsupported (.unresolvedElementType returned)
      else .notFound
    | _, _ => .notFound

end PatternFinder.Flyweight
