/-! What can go wrong, with the text and the code under which it is shown. -/
namespace PatternFinder

inductive ConfigError where
  | fileNotFound (path : String)
  | parse (path message : String)
  | validation (field message : String)
deriving Repr, BEq, DecidableEq, Inhabited

inductive DetectionError where
  | unknownPattern (name : String)
  | noAnalyzers
  | analyzerFailure (pattern message : String)
  | threadPool (message : String)
deriving Repr, BEq, DecidableEq, Inhabited

inductive ParseError where
  | grammarNotFound (language : String)
  | parser (path message : String)
  | unsupportedLanguage (ext : String)
  | invalidUtf8 (path : String)
deriving Repr, BEq, DecidableEq, Inhabited

inductive ScanError where
  | io (path message : String)
  | rootNotFound (path : String)
  | invalidIgnorePattern (pattern message : String)
  | cancelled
  | fileTooLarge (path : String) (size max : Nat)
deriving Repr, BEq, DecidableEq, Inhabited

/-- An error of a whole run: that of one of its stages, or one of its own. -/
inductive PipelineError where
  | scan (e : ScanError)
  | parse (e : ParseError)
  | detection (e : DetectionError)
  | config (e : ConfigError)
  | report (message : String)
  | cancelled
deriving Repr, BEq, DecidableEq, Inhabited

/-- A code in brackets in front of a text. -/
def withCode (code text : String) : String := "[" ++ code ++ "] " ++ text

namespace ConfigError

def message : ConfigError → String
  | .fileNotFound path => "Config file not found: " ++ path
  | .parse path message => "Config parse error in " ++ path ++ ": " ++ message
  | .validation field message => "Config validation failed for " ++ field ++ ": " ++ message

def code (_ : ConfigError) : String := "CONFIG_ERROR"

end ConfigError

namespace DetectionError

def message : DetectionError → String
  | .unknownPattern name => "Unknown design pattern: " ++ name
  | .noAnalyzers => "No pattern analyzers enabled"
  | .analyzerFailure pattern message => "Analyzer " ++ pattern ++ " panicked: " ++ message
  | .threadPool message => "Thread pool setup failed: " ++ message

def code : DetectionError → String
  | .unknownPattern _ => "UNKNOWN_PATTERN"
  | _ => "DETECTION_ERROR"

end DetectionError

namespace ParseError

def message : ParseError → String
  | .grammarNotFound language => "Grammar could not be loaded for language: " ++ language
  | .parser path message => "Tree-sitter error parsing " ++ path ++ ": " ++ message
  | .unsupportedLanguage ext => "Unsupported language: " ++ ext
  | .invalidUtf8 path => "Source is not valid UTF-8: " ++ path

def code : ParseError → String
  | .unsupportedLanguage _ => "UNSUPPORTED_LANGUAGE"
  | _ => "PARSE_ERROR"

end ParseError

namespace ScanError

def message : ScanError → String
  | .io path message => "IO error scanning " ++ path ++ ": " ++ message
  | .rootNotFound path => "Scan root does not exist: " ++ path
  | .invalidIgnorePattern pattern message => "Invalid ignore pattern " ++ pattern ++ ": " ++ message
  | .cancelled => "Scan cancelled"
  | .fileTooLarge path size max =>
    "File too large: " ++ path ++ " (" ++ toString size ++ " bytes, max " ++ toString max ++ ")"

def code : ScanError → String
  | .cancelled => "CANCELLED"
  | _ => "SCAN_ERROR"

end ScanError

namespace PipelineError

def message : PipelineError → String
  | .scan e => "Scan error: " ++ e.message
  | .parse e => "Parse error: " ++ e.message
  | .detection e => "Detection error: " ++ e.message
  | .config e => "Configuration error: " ++ e.message
  | .report message => "Report generation failed: " ++ message
  | .cancelled => "Pipeline cancelled"

def code : PipelineError → String
  | .scan e => e.code
  | .parse e => e.code
  | .detection e => e.code
  | .config e => e.code
  | .report _ => "PIPELINE_ERROR"
  | .cancelled => "CANCELLED"

def display (e : PipelineError) : String := withCode e.code e.message

end PipelineError

/-- A value together with the errors met on the way to it. -/
structure Collected (α : Type) where
  data : α
  errors : List PipelineError

namespace Collected

variable {α : Type}

def ofData (data : α) : Collected α := ⟨data, []⟩

/-- The values among several outcomes, and apart from them the errors. -/
def ofOutcomes (outcomes : List (Except PipelineError α)) : Collected (List α) where
  data := outcomes.filterMap Except.toOption
  errors := outcomes.filterMap fun
    | .ok _ => none
    | .error e => some e

def addError (c : Collected α) (e : PipelineError) : Collected α := { c with errors := c.errors ++ [e] }

def isClean (c : Collected α) : Bool := c.errors.isEmpty

def errorCount (c : Collected α) : Nat := c.errors.length

end Collected

section Sequencing

variable {ε ε' α β : Type} {b : β} {a : α}

theorem bind_eq_ok_iff {x : Except ε α} {f : α → Except ε β} :
    (x >>= f) = .ok b ↔ ∃ a, x = .ok a ∧ f a = .ok b := by
  cases x <;> simp [bind, Except.bind]

theorem mapError_eq_ok_iff {x : Except ε α} {f : ε → ε'} : x.mapError f = .ok a ↔ x = .ok a := by
  cases x with
  | error e => exact ⟨nofun, nofun⟩
  | ok a' => exact ⟨fun h => by cases h; rfl, fun h => by cases h; rfl⟩

end Sequencing

end PatternFinder
