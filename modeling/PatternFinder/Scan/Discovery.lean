import PatternFinder.Analysis.Cancellation
import PatternFinder.Config.Settings
import PatternFinder.Scan.Disk

/-! The source files among the entries of a walk; file extensions tell the languages apart. -/
namespace PatternFinder

/-- The languages that can be analyzed. -/
inductive Language where
  | csharp
deriving Repr, BEq, DecidableEq, Inhabited

namespace Language

def all : List Language := [.csharp]

def name : Language → String
  | .csharp => "csharp"

def extensions : Language → List String
  | .csharp => ["cs"]

/-- Extensions are compared exactly. -/
def ofExtension? (ext : String) : Option Language := all.find? (·.extensions.contains ext)

end Language

/-- A source file; `relative` is its path below the root of the scan. -/
structure DiscoveredFile where
  path : String
  relative : String
  size : Nat
  language : Language
deriving Repr, BEq, DecidableEq

/-- A source file that is too large. -/
structure OversizedFile where
  path : String
  size : Nat
  max : Nat
deriving Repr, BEq, DecidableEq

structure Discovery where
  files : List DiscoveredFile
  oversized : List OversizedFile
  errors : List ScanError
  cancelled : Bool

namespace Discovery

def totalBytes (d : Discovery) : Nat := (d.files.map (·.size)).foldl (· + ·) 0

/-- What follows the last dot of a file name; a dot at its start does not count. -/
def extension? (path : String) : Option String :=
  let name := (Text.splitList (· == '/') path.toList).getLastD []
  let ext := (name.reverse.takeWhile (· != '.')).reverse
  if ext.length + 1 < name.length then some (String.ofList ext) else none

def languageOf? (path : String) : Option Language := (extension? path).bind Language.ofExtension?

/-- Put an entry of the walk in front of what comes after it. -/
def see (max : Nat) (root : String) (d : Discovery) : WalkEntry → Discovery
  | .other => d
  | .failure message => { d with errors := .io root message :: d.errors }
  | .file path relative size =>
    match languageOf? path, size with
    | none, _ => d
    | some _, .error message => { d with errors := .io path message :: d.errors }
    | some language, .ok size =>
      if max < size then { d with oversized := ⟨path, size, max⟩ :: d.oversized }
      else { d with files := ⟨path, relative, size, language⟩ :: d.files }

/-- Sort entries into files, oversized files and errors. The signal is asked before each entry, and
the first yes ends the scan. -/
def collect {σ : Type} (max : Nat) (root : String) (signal : Signal σ) :
    σ → List WalkEntry → Discovery × σ
  | s, [] => (⟨[], [], [], false⟩, s)
  | s, entry :: rest =>
    match signal.poll s with
    | (true, s) => (⟨[], [], [], true⟩, s)
    | (false, s) =>
      let (d, s) := collect max root signal s rest
      (d.see max root entry, s)

/-- Files in order of their relative paths. -/
def sorted (d : Discovery) : Discovery :=
  { d with files := d.files.mergeSort fun a b => decide (a.relative ≤ b.relative) }

end Discovery

/-- Look for source files below a root, which must be there; the configured patterns must be valid. -/
def Disk.scan {σ : Type} (disk : Disk) (settings : ScanSettings) (root : String)
    (signal : Signal σ) (s : σ) : Except ScanError (Discovery × σ) :=
  if disk.isThere root then do
    let rules ← Scan.overrideRules settings
    let (d, s) := Discovery.collect settings.effectiveMaxFileSize root signal s
      (disk.walk settings rules root)
    .ok (d.sorted, s)
  else .error (.rootNotFound root)

end PatternFinder
