import PatternFinder.Model.Declaration
import Std.Data.HashMap

/-! Name indexes over the declarations of several files. -/
namespace PatternFinder

/-- The place of a type: its file and its number within the file. -/
structure TypeId where
  tree : Nat
  type : Nat
deriving Repr, BEq, DecidableEq, Inhabited

/-- The place of a method: its type and its number among all members of the type. -/
structure MethodId where
  owner : TypeId
  member : Nat
deriving Repr, BEq, DecidableEq, Inhabited

/-- Group values by key; the values of one key keep their order. -/
def buckets {α : Type} (entries : List (String × α)) : Std.HashMap String (List α) :=
  entries.foldr (fun entry m => m.insert entry.1 (entry.2 :: m.getD entry.1 [])) ∅

/-- All types with their places, file by file. -/
def typeEntries (trees : List SourceTree) : List (TypeId × TypeDeclaration) :=
  trees.zipIdx.flatMap fun (tree, i) => tree.types.zipIdx.map fun (t, j) => (⟨i, j⟩, t)

/-- All methods with their places, type by type. -/
def methodEntries (trees : List SourceTree) : List (MethodId × MethodDeclaration) :=
  (typeEntries trees).flatMap fun (id, t) =>
    t.members.zipIdx.filterMap fun (member, k) => member.method?.map fun m => (⟨id, k⟩, m)

structure DeclarationIndex where
  typesByName : Std.HashMap String (List TypeId)
  typesByBase : Std.HashMap String (List TypeId)
  methodsByName : Std.HashMap String (List MethodId)
  methodsByReturn : Std.HashMap String (List MethodId)
  methodCount : Nat

namespace DeclarationIndex

/-- A type is filed under its name and once under each name in its base list; a method under its
name and under the name of its return type. -/
def build (trees : List SourceTree) : DeclarationIndex :=
  let types := typeEntries trees
  let methods := methodEntries trees
  { typesByName := buckets (types.map fun (id, t) => (t.identifier, id))
    typesByBase := buckets (types.flatMap fun (id, t) => t.baseIdentifiers.map (·, id))
    methodsByName := buckets (methods.map fun (id, m) => (m.identifier, id))
    methodsByReturn := buckets (methods.filterMap fun (id, m) => m.returnType.identifier?.map (·, id))
    methodCount := methods.length }

def typesNamed (ix : DeclarationIndex) (name : String) : List TypeId := ix.typesByName.getD name []

def typesWithBase (ix : DeclarationIndex) (name : String) : List TypeId :=
  ix.typesByBase.getD name []

def methodsNamed (ix : DeclarationIndex) (name : String) : List MethodId :=
  ix.methodsByName.getD name []

def methodsReturning (ix : DeclarationIndex) (name : String) : List MethodId :=
  ix.methodsByReturn.getD name []

end DeclarationIndex

end PatternFinder
