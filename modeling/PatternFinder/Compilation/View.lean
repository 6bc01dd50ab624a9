import PatternFinder.Compilation.Index
import PatternFinder.Compilation.Semantics
import PatternFinder.Hash.Xxh3

/-! Several files seen as one compilation. -/
namespace PatternFinder

/-- The declarations of several files with their index and, unless left out, what is known of their
types. -/
structure Compilation where
  trees : List SourceTree
  index : DeclarationIndex
  semantics : Option Semantics
  index_eq : index = DeclarationIndex.build trees

namespace Compilation

/-- The compilation of some files, with or without a semantic model. -/
def ofTrees (trees : List SourceTree) (semantic : Bool) : Compilation where
  trees := trees
  index := DeclarationIndex.build trees
  semantics := if semantic then some (Semantics.ofTrees trees) else none
  index_eq := rfl

/-- What is known of types, if anything, is read off the same files. -/
def HasOwnSemantics (c : Compilation) : Prop :=
  ∀ m, c.semantics = some m → m = Semantics.ofTrees c.trees

theorem hasOwnSemantics_ofTrees (trees : List SourceTree) (semantic : Bool) :
    (ofTrees trees semantic).HasOwnSemantics := by
  intro m hm
  cases semantic with
  | false => cases hm
  | true => exact (Option.some.inj hm).symm

def types (c : Compilation) : List TypeDeclaration := c.trees.flatMap (·.types)

def typeCount (c : Compilation) : Nat := (c.trees.map (·.types.length)).foldl (· + ·) 0

def methodCount (c : Compilation) : Nat := c.index.methodCount

def typeAt? (c : Compilation) (id : TypeId) : Option TypeDeclaration :=
  c.trees[id.tree]?.bind (·.types[id.type]?)

def methodAt? (c : Compilation) (id : MethodId) : Option MethodDeclaration :=
  ((c.typeAt? id.owner).bind (·.members[id.member]?)).bind Member.method?

def typesNamed (c : Compilation) (name : String) : List TypeDeclaration :=
  (c.index.typesNamed name).filterMap c.typeAt?

def typesWithBase (c : Compilation) (name : String) : List TypeDeclaration :=
  (c.index.typesWithBase name).filterMap c.typeAt?

def methodsNamed (c : Compilation) (name : String) : List MethodDeclaration :=
  (c.index.methodsNamed name).filterMap c.methodAt?

def methodsReturning (c : Compilation) (name : String) : List MethodDeclaration :=
  (c.index.methodsReturning name).filterMap c.methodAt?

/-- The eight bytes of a word, least significant first. -/
def littleEndian (w : UInt64) : List UInt8 :=
  (List.range 8).map fun i => (w >>> UInt64.ofNat (8 * i)).toUInt8

/-- Order by path, then by hash. -/
def fileLe (a b : String × UInt64) : Bool :=
  decide (a.1 < b.1) || (a.1 == b.1 && decide (a.2 ≤ b.2))

/-- What the fingerprint is the hash of: paths and content hashes in order of path. -/
def fingerprintBytes (c : Compilation) : List UInt8 :=
  ((c.trees.map fun t => (t.path, t.contentHash)).mergeSort fileLe).flatMap fun (path, hash) =>
    path.toUTF8.toList ++ littleEndian hash

/-- A hash of all paths and contents that does not depend on the order of the files. -/
def fingerprint (c : Compilation) : UInt64 := Hash.xxh3 ⟨c.fingerprintBytes.toArray⟩

/-- A one-line account of the compilation. -/
def summary (c : Compilation) : String :=
  "CompilationView \x7b trees: " ++ toString c.trees.length ++ ", types: " ++
    toString c.typeCount ++ ", methods: " ++ toString c.methodCount ++ ", semantics: " ++
    (if c.semantics.isSome then "true" else "false") ++ " \x7d"

end Compilation

end PatternFinder
