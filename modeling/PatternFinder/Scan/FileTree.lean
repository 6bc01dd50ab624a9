import PatternFinder.Source.Node

/-! Directories, files and symbolic links. -/
namespace PatternFinder

/-- A file: its bytes, and the syntax tree that the grammar gives for them. -/
structure StoredFile where
  bytes : ByteArray
  syntaxTree : Option Node

/-- The entries of a directory are in increasing order of their names. -/
inductive FileNode where
  | file (content : StoredFile)
  | directory (entries : List (String × FileNode))
  | link (target : String)

/-- The names on the way from the top of a file tree to one of its nodes. -/
abbrev TreePath := List String

namespace FileNode

def emptyDirectory : FileNode := .directory []

def entries : FileNode → List (String × FileNode)
  | .directory entries => entries
  | _ => []

def child? (n : FileNode) (name : String) : Option FileNode := n.entries.lookup name

/-- The node at the end of a path that goes through directories only. -/
def at? : TreePath → FileNode → Option FileNode
  | [], n => some n
  | name :: path, n => (n.child? name).bind (at? path)

private def alterEntry (name : String) (change : Option FileNode → FileNode) :
    List (String × FileNode) → List (String × FileNode)
  | [] => [(name, change none)]
  | (k, n) :: rest =>
    if k == name then (k, change (some n)) :: rest
    else if name < k then (name, change none) :: (k, n) :: rest
    else (k, n) :: alterEntry name change rest

/-- Put a node at a place, with the directories on the way to it. -/
def put (new : FileNode) : TreePath → FileNode → FileNode
  | [], _ => new
  | name :: path, old =>
    .directory (alterEntry name (fun n => put new path (n.getD emptyDirectory)) old.entries)

mutual

/-- The number of directories in a tree. -/
def directoryCount : FileNode → Nat
  | .directory entries => directoryCounts entries + 1
  | _ => 0

def directoryCounts : List (String × FileNode) → Nat
  | [] => 0
  | (_, n) :: rest => directoryCount n + directoryCounts rest

end

/-- Links that are followed on the way to one file, at most. -/
def maxLinks : Nat := 40

/-- The names in the text of a path. -/
def namesOf (path : String) : List String :=
  (path.splitToList (· == '/')).filter fun name => name != "" && name != "."

/-- The steps to the target of a link. A dot, or a slash at the end, asks for a directory. -/
def linkSteps (target : String) : List String :=
  let steps := (target.splitToList (· == '/')).filter (· != "")
  if target.endsWith "/" then steps ++ ["."] else steps

/-- The nodes on the way from the top, the innermost first, each with its name. -/
abbrev Trail := List (String × FileNode)

/-- The node that a trail ends at. -/
private def trailEnd (top : FileNode) : Trail → FileNode
  | [] => top
  | (_, node) :: _ => node

/-- Take steps from a directory. `onLink` goes on where a link points. -/
private def resolveStep (top : FileNode) (onLink : Trail → List String → Option Trail) :
    Trail → List String → Option Trail
  | trail, [] => some trail
  | trail, name :: rest =>
    if name == "." then resolveStep top onLink trail rest
    else if name == ".." then
      match trail with
      | [] => none
      | _ :: outer => resolveStep top onLink outer rest
    else
      match (trailEnd top trail).child? name with
      | none => none
      | some (.directory entries) => resolveStep top onLink ((name, .directory entries) :: trail) rest
      | some (.file content) => if rest.isEmpty then some ((name, .file content) :: trail) else none
      | some (.link target) =>
        if target.startsWith "/" then none else onLink trail (linkSteps target ++ rest)

private def resolveWithin (top : FileNode) : Nat → Trail → List String → Option Trail
  | 0 => resolveStep top fun _ _ => none
  | links + 1 => resolveStep top (resolveWithin top links)

/-- Where steps lead from the top when links are followed: the place, with the node there. -/
def find? (top : FileNode) (steps : List String) : Option (TreePath × FileNode) :=
  (resolveWithin top maxLinks [] steps).map fun trail =>
    ((trail.map Prod.fst).reverse, trailEnd top trail)

def resolve? (top : FileNode) (steps : List String) : Option TreePath :=
  (top.find? steps).map Prod.fst

/-- The file to which steps lead. -/
def fileAt? (top : FileNode) (steps : List String) : Option StoredFile := do
  match ← top.find? steps with
  | (_, .file content) => some content
  | _ => none

/-- The directory to which steps lead: its place and its entries. -/
def directoryAt? (top : FileNode) (steps : List String) :
    Option (TreePath × List (String × FileNode)) := do
  match ← top.find? steps with
  | (place, .directory entries) => some (place, entries)
  | _ => none

end FileNode

end PatternFinder
