import PatternFinder.Analysis.Report

/-! A report as lines of text. -/
namespace PatternFinder.Report

private def colorOf : Severity → String
  | .error => "\x1b[31m"
  | .warning => "\x1b[33m"
  | .info => "\x1b[36m"
  | .hint => "\x1b[90m"

private def colored (color : Bool) (s : Severity) : String :=
  if color then colorOf s ++ s.name ++ "\x1b[0m" else s.name

private def findingLines (color : Bool) (f : Finding) : String :=
  f.location.short ++ ": " ++ colored color f.severity ++ ": " ++ f.message ++ " [" ++ f.ruleId ++
    "/" ++ f.check ++ "]\n" ++
    (match f.evidence with
      | some e => "    evidence: " ++ e ++ "\n"
      | none => "")

private def summaryLine (r : Report) : String :=
  let counts := r.counts.map fun (p, n) => p.displayName ++ ": " ++ toString n
  "─── " ++ toString r.filesAnalyzed ++ " files, " ++ toString r.declarationsVisited ++
    " declarations, " ++ toString r.findings.length ++ " findings (" ++
    String.intercalate ", " counts ++ ") in " ++ toString r.durationMs ++ " ms ───\n"

private def failureLine (f : Failure) : String :=
  "analyzer " ++ f.pattern.name ++ " failed on " ++ f.file ++ ": " ++ f.message ++ "\n"

/-- Findings, a blank line, a summary, and notes on what went wrong. -/
def console (color : Bool) (r : Report) : String :=
  String.join (r.findings.map (findingLines color)) ++
    (if r.findings.isEmpty then "" else "\n") ++ summaryLine r ++
    (if 0 < r.filesWithSyntaxErrors then
      toString r.filesWithSyntaxErrors ++
        " file(s) contained syntax errors and were analyzed partially\n"
    else "") ++
    String.join (r.failures.map failureLine) ++
    (if r.cancelled then "Analysis cancelled: results are incomplete\n" else "")

end PatternFinder.Report
