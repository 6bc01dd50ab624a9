import PatternFinder.Model.Body
import PatternFinder.Model.Modifier

/-! Declared types, their members, and the files that declare them. -/
namespace PatternFinder

inductive TypeKind where
  | «class» | interface | struct | record
deriving Repr, BEq, DecidableEq, Inhabited

namespace TypeKind

def name : TypeKind → String
  | .class => "class"
  | .interface => "interface"
  | .struct => "struct"
  | .record => "record"

def ofName? (s : String) : Option TypeKind :=
  [TypeKind.class, .interface, .struct, .record].find? (·.name == s)

end TypeKind

structure Parameter where
  identifier : String
  declaredType : Option TypeRef

structure FieldDeclaration where
  modifiers : Modifiers
  declaredType : TypeRef
  declarators : List Declarator
  location : Location

structure ConstructorDeclaration where
  modifiers : Modifiers
  identifier : String
  parameters : List Parameter
  body : Option Block
  location : Location

structure MethodDeclaration where
  modifiers : Modifiers
  identifier : String
  identifierLocation : Location
  returnType : TypeRef
  parameters : List Parameter
  body : Option Block
  location : Location

structure PropertyDeclaration where
  modifiers : Modifiers
  identifier : String
  declaredType : TypeRef
  body : Option Block
  location : Location

inductive Member where
  | field (f : FieldDeclaration)
  | constructor (c : ConstructorDeclaration)
  | method (m : MethodDeclaration)
  | property (p : PropertyDeclaration)

/-- A declared type. A nested type stands on its own and names the type that contains it. -/
structure TypeDeclaration where
  kind : TypeKind
  modifiers : Modifiers
  identifier : String
  identifierLocation : Location
  location : Location
  namespaceName : Option String
  containingType : Option String
  baseTypes : List TypeRef
  members : List Member

/-- The first of several variables declared together names the declaration. -/
def Declarator.firstName (declarators : List Declarator) : String :=
  (declarators.head?.map (·.identifier)).getD ""

def FieldDeclaration.firstName (f : FieldDeclaration) : String := Declarator.firstName f.declarators

def ConstructorDeclaration.firstParameter? (c : ConstructorDeclaration) : Option Parameter :=
  c.parameters.head?

/-- A method without a body counts as one with an empty body. -/
def MethodDeclaration.hasEmptyBody (m : MethodDeclaration) : Bool :=
  match m.body with
  | none => true
  | some b => b.statements.isEmpty

namespace Member

def modifiers : Member → Modifiers
  | .field f => f.modifiers
  | .constructor c => c.modifiers
  | .method m => m.modifiers
  | .property p => p.modifiers

def location : Member → Location
  | .field f => f.location
  | .constructor c => c.location
  | .method m => m.location
  | .property p => p.location

/-- Fields have no body. -/
def body? : Member → Option Block
  | .field _ => none
  | .constructor c => c.body
  | .method m => m.body
  | .property p => p.body

def field? : Member → Option FieldDeclaration
  | .field f => some f
  | _ => none

def constructor? : Member → Option ConstructorDeclaration
  | .constructor c => some c
  | _ => none

def method? : Member → Option MethodDeclaration
  | .method m => some m
  | _ => none

def property? : Member → Option PropertyDeclaration
  | .property p => some p
  | _ => none

end Member

namespace TypeDeclaration

def isInterface (t : TypeDeclaration) : Bool := t.kind == .interface

def isClassLike (t : TypeDeclaration) : Bool := !t.isInterface

/-- An interface or an abstract class. -/
def isAbstraction (t : TypeDeclaration) : Bool :=
  t.isInterface || (t.kind == .class && t.modifiers.isAbstract)

/-- The names in the base list; entries without a name are skipped. -/
def baseIdentifiers (t : TypeDeclaration) : List String := t.baseTypes.filterMap TypeRef.identifier?

def hasBase (t : TypeDeclaration) (name : String) : Bool := t.baseIdentifiers.contains name

def fields (t : TypeDeclaration) : List FieldDeclaration := t.members.filterMap Member.field?

def constructors (t : TypeDeclaration) : List ConstructorDeclaration :=
  t.members.filterMap Member.constructor?

def methods (t : TypeDeclaration) : List MethodDeclaration := t.members.filterMap Member.method?

def properties (t : TypeDeclaration) : List PropertyDeclaration :=
  t.members.filterMap Member.property?

/-- Namespace, containing type and identifier, as far as present, joined by dots. -/
def qualifiedName (t : TypeDeclaration) : String :=
  String.intercalate "." (t.namespaceName.toList ++ t.containingType.toList ++ [t.identifier])

end TypeDeclaration

/-- A file as the rules see it: its declared types, a hash of its bytes and its syntax errors. -/
structure SourceTree where
  path : String
  contentHash : UInt64
  errorCount : Nat
  errorRanges : List Range
  types : List TypeDeclaration

def SourceTree.hasErrors (t : SourceTree) : Bool := 0 < t.errorCount

end PatternFinder
