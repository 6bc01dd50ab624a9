import PatternFinder.Scan.Walk

/-! What a scan sees of the world: the entries of a walk, and the contents of files. -/
namespace PatternFinder

/-- Reading a file can be refused. -/
structure Disk where
  /-- Whether something stands at a path. -/
  isThere : (path : String) → Bool
  /-- The entries of a walk from a root, less what the rules leave out. -/
  walk : ScanSettings → List IgnoreRule → (root : String) → List WalkEntry
  read : (path : String) → Except String StoredFile

namespace Disk

/-- The names of a path below a directory. -/
private def namesBelow (base path : String) : List String :=
  FileNode.namesOf (String.ofList (path.toList.drop base.length))

private def walkTree (base : String) (top : FileNode) (s : ScanSettings)
    (overrides : List IgnoreRule) (root : String) : List WalkEntry :=
  let names := namesBelow base root
  match top.resolve? names with
  | none => []
  | some place =>
    Scan.WalkPlan.entries ⟨top, names, place, root, overrides, s.effectiveFollowSymlinks,
      s.effectiveIncludeHidden⟩

/-- A disk that holds one tree in the directory `base`. -/
def ofTree (base : String) (top : FileNode) : Disk where
  isThere path := (top.resolve? (namesBelow base path)).isSome
  walk := walkTree base top
  read path :=
    match top.fileAt? (namesBelow base path) with
    | some content => .ok content
    | none => .error "no such file"

end Disk

end PatternFinder
