import PatternFinder.Scan.FileTree

/-! Adding to a file tree. Paths lead through links, and directories on the way are made. -/
namespace PatternFinder.FileNode

/-- Put a node under a name that is free in a directory. -/
private def add? (top : FileNode) (directory : List String) (name : String) (new : FileNode) :
    Option FileNode := do
  let (place, entries) ← top.directoryAt? directory
  if name == ".." || (entries.lookup name).isSome then none
  else some (put new (place ++ [name]) top)

private def makeAll? (parent : List String) : List String → FileNode → Option FileNode
  | [], top => some top
  | name :: rest, top => do
    let path := parent ++ [name]
    let top ← if (top.directoryAt? path).isSome then some top else add? top parent name emptyDirectory
    makeAll? path rest top

/-- Make a directory with all that are missing on the way to it. -/
def makeDirectory? (top : FileNode) (path : List String) : Option FileNode :=
  if (top.directoryAt? path).isSome then some top else makeAll? [] path top

/-- Make a link under a name that is free. -/
def makeLink? (top : FileNode) (path : List String) (target : String) : Option FileNode := do
  add? (← top.makeDirectory? path.dropLast) path.dropLast (← path.getLast?) (.link target)

/-- Where a file is written: the place that steps lead to, which need not be there yet. -/
private def writingPlace? (top : FileNode) : Nat → List String → Option TreePath
  | 0, _ => none
  | links + 1, steps => do
    let name ← steps.getLast?
    let (place, entries) ← top.directoryAt? steps.dropLast
    if name == "." || name == ".." then none
    else
      match entries.lookup name with
      | none => some (place ++ [name])
      | some (.file _) => some (place ++ [name])
      | some (.directory _) => none
      | some (.link target) =>
        if target.startsWith "/" then none else writingPlace? top links (place ++ linkSteps target)

/-- Write a file, or write it anew. Writing to a link writes to its target. -/
def writeFile? (top : FileNode) (path : List String) (content : StoredFile) : Option FileNode := do
  let top ← top.makeDirectory? path.dropLast
  let place ← writingPlace? top (maxLinks + 1) path
  some (put (.file content) place top)

end PatternFinder.FileNode
