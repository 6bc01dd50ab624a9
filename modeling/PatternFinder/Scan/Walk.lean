import PatternFinder.Config.Settings
import PatternFinder.Error
import PatternFinder.Scan.FileTree
import PatternFinder.Scan.IgnoreFile

/-! The walk of a scan: which entries below a directory are looked at, and in which order. -/
namespace PatternFinder

/-- What a walk comes to. Only a regular file has more to tell than that it is there; its size may be
out of reach. -/
inductive WalkEntry where
  | file (path relative : String) (size : Except String Nat)
  | other
  | failure (message : String)

namespace Scan

/-- Directories with build output or repository data. -/
def defaultIgnores : List String := ["!**/bin/**", "!**/obj/**", "!**/.git/**", "!**/.vs/**"]

/-- A configured pattern as a rule that excludes. -/
def overrideRule (pattern : String) : Except ScanError IgnoreRule :=
  let line := if pattern.startsWith "!" then pattern else "!" ++ pattern
  match IgnoreRule.ofLine? false line.toList with
  | some rule => .ok { rule with keeps := false }
  | none => .error (.invalidIgnorePattern pattern "not a valid glob")

/-- Every configured pattern excludes, with or without an exclamation mark in front of it. Each must
be a glob, and none of them nested too deeply. -/
def overrideRules (s : ScanSettings) : Except ScanError (List IgnoreRule) := do
  let rules ← (defaultIgnores ++ s.extraIgnore).mapM overrideRule
  if rules.any (·.glob.isTooDeep) then
    .error (.invalidIgnorePattern "<overrides>" "a glob is nested too deeply")
  else .ok rules

/-- The rules that stand in a directory. Paths are matched after dropping `depth` names, which
leaves the part below the directory. -/
structure IgnoreLayer where
  depth : Nat
  general : List IgnoreRule
  repository : List IgnoreRule
  repositoryExtra : List IgnoreRule
  faulty : Bool

namespace IgnoreLayer

private def fileIn (top : FileNode) (directory names : List String) : IgnoreFile :=
  match top.fileAt? (directory ++ names) with
  | some content => IgnoreFile.ofBytes content.bytes
  | none => .empty

/-- A file in the place of the repository data names another place, so it has to be text. -/
private def hasBadPointer (top : FileNode) (directory : List String) : Bool :=
  match top.fileAt? (directory ++ [".git"]) with
  | some content => !IgnoreFile.startsWithText content.bytes
  | none => false

/-- The rules of the directory to which names lead. -/
def ofDirectory (top : FileNode) (directory : List String) (depth : Nat) : IgnoreLayer :=
  let general := fileIn top directory [".ignore"]
  let repository := fileIn top directory [".gitignore"]
  let repositoryExtra := fileIn top directory [".git", "info", "exclude"]
  { depth
    general := general.rules
    repository := repository.rules
    repositoryExtra := repositoryExtra.rules
    faulty := general.faulty || repository.faulty || repositoryExtra.faulty ||
      hasBadPointer top directory }

/-- The innermost directory with an opinion decides, kind of file by kind of file. -/
def decide? (layers : List IgnoreLayer) (path : List String) (isDirectory : Bool) :
    Option IgnoreVerdict :=
  let byKind (rules : IgnoreLayer → List IgnoreRule) : Option IgnoreVerdict :=
    layers.findSome? fun layer => IgnoreRule.decide? (rules layer) (path.drop layer.depth) isDirectory
  (byKind (·.general)).or ((byKind (·.repository)).or (byKind (·.repositoryExtra)))

end IgnoreLayer

/-- What stays the same during a walk: the tree, the names that lead to the root, its place and its
path as text, and what is left out. -/
structure WalkPlan where
  top : FileNode
  rootNames : List String
  root : TreePath
  rootText : String
  overrides : List IgnoreRule
  followLinks : Bool
  includeHidden : Bool

namespace WalkPlan

/-- Configured patterns decide first, then rules in the tree, and last whether the name is hidden. -/
def excludes (p : WalkPlan) (layers : List IgnoreLayer) (relative : List String)
    (isDirectory : Bool) : Bool :=
  let verdict := (IgnoreRule.decide? p.overrides relative isDirectory).or
    (IgnoreLayer.decide? layers (p.root ++ relative) isDirectory)
  match verdict with
  | some .exclude => true
  | some .keep => false
  | none => !p.includeHidden && ((relative.getLast?.getD "").startsWith ".")

private def fileEntry (p : WalkPlan) (relative : List String) (content : StoredFile) : WalkEntry :=
  .file (String.intercalate "/" (p.rootText :: relative)) (String.intercalate "/" relative)
    (.ok content.bytes.size)

/-- The entries below a directory. `place` is where it is, `relative` how the walk came to it, and
`ancestors` holds the places of the directories on the way, itself included. A link that leads back
to one of them, or nowhere, is a failure. -/
private def below (p : WalkPlan) :
    Nat → (ancestors : List TreePath) → (place : TreePath) → (relative : List String) →
      List IgnoreLayer → List WalkEntry
  | 0, _, _, _, _ => []
  | fuel + 1, ancestors, place, relative, layers =>
    let visit (target : TreePath) (path : List String) : FileNode → List WalkEntry
      | .file content => if p.excludes layers path false then [] else [p.fileEntry path content]
      | .link _ => if p.excludes layers path false then [] else [.other]
      | .directory _ =>
        if p.excludes layers path true then []
        else .other :: below p fuel (target :: ancestors) target path
          (IgnoreLayer.ofDirectory p.top (p.rootNames ++ path) (p.root.length + path.length) :: layers)
    (((FileNode.at? place p.top).map FileNode.entries).getD []).flatMap fun (name, node) =>
      let path := relative ++ [name]
      match node, p.followLinks with
      | .link _, true =>
        match p.top.find? (p.rootNames ++ path) with
        | none => [.failure "broken link"]
        | some (target, .directory entries) =>
          if ancestors.contains target then [.failure "link to an enclosing directory"]
          else visit target path (.directory entries)
        | some (target, found) => visit target path found
      | _, _ => visit (place ++ [name]) path node

/-- A walk enters a directory again only after it has followed a link to a new place, so this many
levels are never used up. -/
private def maxDepth (top : FileNode) : Nat := (top.directoryCount + 1) * (top.directoryCount + 1)

/-- The rules of the directories above the root, the innermost first. -/
private def outerLayers (p : WalkPlan) : List IgnoreLayer :=
  ((List.range p.root.length).map fun depth =>
    IgnoreLayer.ofDirectory p.top (p.root.take depth) depth).reverse

/-- The root itself is never left out. Faulty rules above it are one failure. -/
def entries (p : WalkPlan) : List WalkEntry :=
  match p.top.fileAt? p.rootNames with
  | some content => [.file p.rootText "" (.ok content.bytes.size)]
  | none =>
    let outer := p.outerLayers
    let faults := if outer.any (·.faulty) then [.failure "bad rules above the root"] else []
    faults ++ .other :: p.below (maxDepth p.top) [p.root] p.root []
      (IgnoreLayer.ofDirectory p.top p.rootNames p.root.length :: outer)

end WalkPlan

end Scan

end PatternFinder
