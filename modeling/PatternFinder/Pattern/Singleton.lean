import PatternFinder.Model.Declaration
import PatternFinder.Pattern.Outcome

/-! Singleton: a private constructor, a private static field and a public static method of the
type itself. -/
namespace PatternFinder.Singleton

def hasPrivateConstructor (t : TypeDeclaration) : Outcome :=
  if t.constructors.any fun c => c.modifiers.isPrivate && !c.modifiers.isPublic then
    .found t.identifierLocation none
  else .notFound

def hasPrivateStaticSelfField (t : TypeDeclaration) : Outcome :=
  match t.fields.find? fun f => f.modifiers.isPrivate && f.modifiers.isStatic &&
      f.declaredType.hasIdentifier t.identifier with
  | some f => .found t.identifierLocation (some f.firstName)
  | none => .notFound

def hasGetInstanceSelfMethod (t : TypeDeclaration) : Outcome :=
  match t.methods.find? fun m => m.modifiers.isPublic && m.modifiers.isStatic &&
      m.returnType.hasIdentifier t.identifier with
  | some m => .found t.identifierLocation (some m.identifier)
  | none => .notFound

/-- A singleton passes all three checks. -/
def verdict (t : TypeDeclaration) : Outcome :=
  if (hasPrivateConstructor t).matched && (hasPrivateStaticSelfField t).matched &&
      (hasGetInstanceSelfMethod t).matched then
    .found t.identifierLocation none
  else .notFound

end PatternFinder.Singleton
