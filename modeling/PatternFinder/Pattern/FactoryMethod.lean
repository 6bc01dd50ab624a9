import PatternFinder.Compilation.View
import PatternFinder.Pattern.Outcome

/-! Factory Method: abstract methods that return a product, overrides that construct one, and the
products themselves. -/
namespace PatternFinder.FactoryMethod

def isAbstractFactoryMethod (m : MethodDeclaration) : Outcome :=
  if !m.modifiers.isAbstract || m.returnType.isPredefined then .notFound
  else .found m.identifierLocation (some m.returnType.text)

/-- An override that constructs an object anywhere in its body. -/
def overridesAbstractFactoryMethod (m : MethodDeclaration) : Outcome :=
  if !m.modifiers.isOverride || m.returnType.isPredefined then .notFound
  else match m.body with
    | none => .notFound
    | some b => match b.creations with
      | [] => .notFound
      | c :: _ => .found m.identifierLocation (c.createdType.map TypeRef.text)

/-- An interface that an abstract factory method returns. -/
def isProductInterface (t : TypeDeclaration) (c : Compilation) : Outcome :=
  if !t.isInterface then .notFound
  else match (c.methodsReturning t.identifier).find? (isAbstractFactoryMethod · |>.matched) with
    | some m => .found t.identifierLocation (some m.identifier)
    | none => .notFound

/-- A class that implements a product interface. -/
def isConcreteProduct (t : TypeDeclaration) (c : Compilation) : Outcome :=
  if !t.isClassLike then .notFound
  else match t.baseIdentifiers.find? fun base =>
      (c.typesNamed base).any (isProductInterface · c |>.matched) with
    | some base => .found t.identifierLocation (some base)
    | none => .notFound

/-- The name of a call when an abstract factory method has that name. -/
def factoryCall? (c : Compilation) (e : Expression) : Option String :=
  (e.asCall?.bind (·.target)).filter fun target =>
    (c.methodsNamed target).any (isAbstractFactoryMethod · |>.matched)

/-- A local variable that is initialized by a call of an abstract factory method. -/
def declarationWithFactoryMethod (l : LocalDeclaration) (c : Compilation) : Outcome :=
  match l.initializers.findSome? (factoryCall? c) with
  | some target => .found l.location (some target)
  | none => .notFound

end PatternFinder.FactoryMethod
