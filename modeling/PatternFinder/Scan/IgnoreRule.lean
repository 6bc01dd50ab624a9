import PatternFinder.Scan.GlobReader
import PatternFinder.Text.Basic

/-! Lines that say which paths are left out. -/
namespace PatternFinder

/-- A rule excludes what its glob matches, or keeps it. -/
structure IgnoreRule where
  keeps : Bool
  onlyDirectories : Bool
  glob : Glob

/-- What rules say about a path. -/
inductive IgnoreVerdict where
  | exclude
  | keep
deriving Repr, BEq, DecidableEq

namespace IgnoreRule

/-- Blanks at the end of a line do not count, unless a backslash stands before the last of them. -/
private def trimEnd (cs : List Char) : List Char :=
  if [' ', '\\'].isPrefixOf cs.reverse then cs
  else (cs.reverse.dropWhile Text.isBlank).reverse

private def startsWith (text : String) (cs : List Char) : Bool := text.toList.isPrefixOf cs

private def endsWith (text : String) (cs : List Char) : Bool :=
  text.toList.reverse.isPrefixOf cs.reverse

/-- Take a slash off the end, with a backslash before it. -/
private def dropLastSlash (cs : List Char) : List Char :=
  let cs := cs.dropLast
  if endsWith "\\" cs then cs.dropLast else cs

/-- A glob without a slash matches at any depth, and one that ends with a double star matches only
what is inside a directory. -/
private def globText (anchored : Bool) (cs : List Char) : List Char :=
  let atAnyDepth := !anchored && !cs.contains '/' && cs != ['*', '*']
  let cs := if atAnyDepth then "**/".toList ++ cs else cs
  if endsWith "/**" cs then cs ++ ['/', '*'] else cs

/-- The rule of a line without blanks at its end. -/
private def ofTrimmed? (looseBrackets : Bool) (cs : List Char) : Option IgnoreRule := do
  let escaped := startsWith "\\!" cs || startsWith "\\#" cs
  let keeps := !escaped && startsWith "!" cs
  let cs := if escaped || keeps then cs.drop 1 else cs
  let anchored := !escaped && startsWith "/" cs
  let cs := if anchored then cs.drop 1 else cs
  let onlyDirectories := endsWith "/" cs
  let cs := if onlyDirectories then dropLastSlash cs else cs
  let glob ← Glob.read? looseBrackets (globText anchored cs)
  some { keeps, onlyDirectories, glob }

/-- Whether a line says nothing: a comment, or nothing but blanks. -/
def isIdle (line : List Char) : Bool := startsWith "#" line || (trimEnd line).isEmpty

/-- Read a line that says something. -/
def ofLine? (looseBrackets : Bool) (line : List Char) : Option IgnoreRule :=
  ofTrimmed? looseBrackets (trimEnd line)

/-- The bytes of a relative path. -/
def pathBytes (path : List String) : List UInt8 := (String.intercalate "/" path).toUTF8.toList

def applies (r : IgnoreRule) (path : List String) (isDirectory : Bool) : Bool :=
  (!r.onlyDirectories || isDirectory) && r.glob.matchesPath (pathBytes path)

/-- The last rule that applies decides. -/
def decide? (rules : List IgnoreRule) (path : List String) (isDirectory : Bool) :
    Option IgnoreVerdict :=
  (rules.reverse.find? (·.applies path isDirectory)).map fun r =>
    if r.keeps then .keep else .exclude

end IgnoreRule

end PatternFinder
