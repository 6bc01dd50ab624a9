import PatternFinder.Compilation.View

/-! The declarations that an analysis visits, in order. -/
namespace PatternFinder

/-- The kinds of declarations that an analyzer can ask for. -/
inductive SiteKind where
  | «class» | interface | field | constructor | method | property | «local» | creation
deriving Repr, BEq, ReflBEq, LawfulBEq, DecidableEq, Inhabited

namespace SiteKind

def all : List SiteKind :=
  [.class, .interface, .field, .constructor, .method, .property, .local, .creation]

def name : SiteKind → String
  | .class => "Class"
  | .interface => "Interface"
  | .field => "Field"
  | .constructor => "Constructor"
  | .method => "Method"
  | .property => "Property"
  | .local => "LocalDeclaration"
  | .creation => "ObjectCreation"

def ofName? (s : String) : Option SiteKind := all.find? (·.name == s)

end SiteKind

/-- A declaration that is visited. -/
inductive Site where
  | type (t : TypeDeclaration)
  | field (f : FieldDeclaration)
  | constructor (c : ConstructorDeclaration)
  | method (m : MethodDeclaration)
  | property (p : PropertyDeclaration)
  | local (l : LocalDeclaration)
  | creation (c : ObjectCreation)

namespace Site

/-- Every type that is no interface is visited as a class. -/
def kind : Site → SiteKind
  | .type t => if t.isInterface then .interface else .class
  | .field _ => .field
  | .constructor _ => .constructor
  | .method _ => .method
  | .property _ => .property
  | .local _ => .local
  | .creation _ => .creation

def location : Site → Location
  | .type t => t.location
  | .field f => f.location
  | .constructor c => c.location
  | .method m => m.location
  | .property p => p.location
  | .local l => l.location
  | .creation c => c.location

def ofMember : Member → Site
  | .field f => .field f
  | .constructor c => .constructor c
  | .method m => .method m
  | .property p => .property p

def ofBodyNode? : BodyNode → Option Site
  | .statement (.declare l) => some (.local l)
  | .expression (.creation c) => some (.creation c)
  | _ => none

end Site

/-- A declaration, the file it is in and the type it belongs to. -/
structure WorkItem where
  tree : SourceTree
  site : Site
  owner : Option TypeDeclaration

/-- The declaration of a member, then the local declarations and constructions in its body. -/
def memberSites (m : Member) : List Site :=
  .ofMember m :: match m.body? with
    | some b => b.walk.filterMap Site.ofBodyNode?
    | none => []

/-- All declarations of a type, the type first. -/
def typeItems (tree : SourceTree) (t : TypeDeclaration) : List WorkItem :=
  ⟨tree, .type t, none⟩ :: (t.members.flatMap memberSites).map fun s => ⟨tree, s, some t⟩

/-- The declarations of the subscribed kinds, file by file. -/
def workItems (c : Compilation) (subscribed : SiteKind → Bool) : List WorkItem :=
  (c.trees.flatMap fun tree => tree.types.flatMap (typeItems tree)).filter fun item =>
    subscribed item.site.kind

end PatternFinder
