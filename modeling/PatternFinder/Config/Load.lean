import PatternFinder.Config.File
import PatternFinder.Config.Layers
import PatternFinder.Config.Validate

/-! Settings from their four sources: two files, the environment and the command line. -/
namespace PatternFinder

/-- What stands at a path that exists: the bytes there, or why they cannot be read. -/
abbrev FileStore := (path : String) → Option (Except String ByteArray)

/-- The path of an entry of a directory. The empty path is the working directory, and a slash at the
end of a path is not repeated. -/
def entryPath (directory name : String) : String :=
  if directory.toList.getLast?.all (· == '/') then directory ++ name
  else directory ++ "/" ++ name

/-- The text of a file; a directory has none, nor has a file that is closed to the reader or that
holds other bytes. -/
def storedText? (content : Except String ByteArray) : Option String :=
  content.toOption.bind String.fromUTF8?

namespace Settings

/-- The file of a user stands below the home directory, which either of two variables names. -/
def userPath? (env : Environment) : Option String :=
  ((env.lookup "HOME").or (env.lookup "USERPROFILE")).map fun home =>
    entryPath (entryPath home ".inspector") "config.toml"

/-- The file of a project stands in its root directory. -/
def projectPath (root : String) : String := entryPath root "inspector.toml"

def parse (path text : String) : Except ConfigError Settings :=
  match ofText? text with
  | some s => .ok s
  | none => .error (.parse path "not a valid document")

/-- Read a file that exists. -/
def ofFile (path : String) (content : Except String ByteArray) : Except ConfigError Settings :=
  match storedText? content with
  | some text => parse path text
  | none => .error (.fileNotFound path)

/-- A user file that is absent or cannot be read says nothing, but one that can be read must be a
valid document. -/
def userLayer (files : FileStore) (env : Environment) : Except ConfigError Settings :=
  match (userPath? env).bind fun path => (files path).map (path, ·) with
  | none => .ok .unset
  | some (path, content) =>
    match ofFile path content with
    | .error (.fileNotFound _) => .ok .unset
    | other => other

/-- A project file that exists must be readable. -/
def projectLayer (files : FileStore) (root : String) : Except ConfigError Settings :=
  match files (projectPath root) with
  | none => .ok .unset
  | some content => ofFile (projectPath root) content

/-- Each layer overrides those before it. -/
def layered (user project : Settings) (env : Environment) (cli : Option CliOverrides) : Settings :=
  let s := applyEnvironment env ((unset.merge user).merge project)
  match cli with
  | some overrides => applyCli overrides s
  | none => s

/-- Settings from all layers; the outcome must be valid. -/
def load (files : FileStore) (root : String) (env : Environment) (cli : Option CliOverrides) :
    Except ConfigError Settings := do
  let user ← userLayer files env
  let project ← projectLayer files root
  let s := layered user project env cli
  s.validate
  .ok s

end Settings

end PatternFinder
