import PatternFinder.Config.Settings
import PatternFinder.Text.Number

/-! Layers of settings, from the weakest: user file, project file, environment, command line. -/
namespace PatternFinder

/-- Settings given on the command line. -/
structure CliOverrides where
  maxFileSize : Option Nat
  threads : Option Nat
  parallel : Option Bool
  enabled : Option (List String)
  format : Option String
deriving Repr, BEq, DecidableEq, Inhabited

/-- The environment variables that are set, with their values. -/
abbrev Environment := List (String × String)

namespace Settings

def strongerList (weak strong : List String) : List String :=
  if strong.isEmpty then weak else strong

/-- The stronger layer wins wherever it says something. A list says something when it is not empty;
severity overrides are taken key by key. -/
def merge (weak strong : Settings) : Settings where
  scan :=
    { maxFileSize := strong.scan.maxFileSize.or weak.scan.maxFileSize
      extraIgnore := strongerList weak.scan.extraIgnore strong.scan.extraIgnore
      followSymlinks := strong.scan.followSymlinks.or weak.scan.followSymlinks
      includeHidden := strong.scan.includeHidden.or weak.scan.includeHidden }
  analysis :=
    { parallel := strong.analysis.parallel.or weak.analysis.parallel
      threads := strong.analysis.threads.or weak.analysis.threads
      semanticModel := strong.analysis.semanticModel.or weak.analysis.semanticModel }
  patterns :=
    { enabled := strongerList weak.patterns.enabled strong.patterns.enabled
      minSeverity := strong.patterns.minSeverity.or weak.patterns.minSeverity
      severityOverrides :=
        overlay weak.patterns.severityOverrides strong.patterns.severityOverrides }
  output :=
    { format := strong.output.format.or weak.output.format
      includePartial := strong.output.includePartial.or weak.output.includePartial
      color := strong.output.color.or weak.output.color }

def readBool? (s : String) : Option Bool :=
  match s with
  | "true" => some true
  | "false" => some false
  | _ => none

/-- The non-blank entries of a list with commas, trimmed. -/
def readNames (s : String) : List String :=
  ((Text.splitAt ',' s).map Text.trim).filter (!·.isEmpty)

/-- Variables override settings where they can be read; others are ignored. -/
def applyEnvironment (env : Environment) (s : Settings) : Settings where
  scan := { s.scan with
    maxFileSize := ((env.lookup "INSPECTOR_SCAN_MAX_FILE_SIZE").bind (Text.readNat? UInt64.size)).or
      s.scan.maxFileSize }
  analysis := { s.analysis with
    threads := ((env.lookup "INSPECTOR_ANALYSIS_THREADS").bind (Text.readNat? UInt64.size)).or
      s.analysis.threads
    parallel := ((env.lookup "INSPECTOR_ANALYSIS_PARALLEL").bind readBool?).or s.analysis.parallel }
  patterns := { s.patterns with
    enabled := strongerList s.patterns.enabled
      (((env.lookup "INSPECTOR_PATTERNS_ENABLED").map readNames).getD []) }
  output := { s.output with format := (env.lookup "INSPECTOR_OUTPUT_FORMAT").or s.output.format }

/-- A list given on the command line counts even when it is empty. -/
def applyCli (cli : CliOverrides) (s : Settings) : Settings where
  scan := { s.scan with maxFileSize := cli.maxFileSize.or s.scan.maxFileSize }
  analysis := { s.analysis with
    threads := cli.threads.or s.analysis.threads
    parallel := cli.parallel.or s.analysis.parallel }
  patterns := { s.patterns with enabled := cli.enabled.getD s.patterns.enabled }
  output := { s.output with format := cli.format.or s.output.format }

end Settings

end PatternFinder
