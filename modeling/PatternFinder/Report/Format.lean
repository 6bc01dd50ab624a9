import PatternFinder.Report.Console
import PatternFinder.Report.Sarif

/-! The formats in which a report can be written: text for people, JSON, and SARIF. -/
namespace PatternFinder

namespace Report

private def findingEntry (f : Finding) : Json :=
  let range := f.location.range
  .object [("rule_id", .string f.ruleId), ("pattern", f.pattern.toJson),
    ("check", .string f.check), ("severity", f.severity.toJson), ("message", .string f.message),
    ("file", .string f.location.file), ("line", .number (range.start.line + 1)),
    ("column", .number (range.start.column + 1)), ("end_line", .number (range.stop.line + 1)),
    ("end_column", .number (range.stop.column + 1)),
    ("evidence", Json.ofOption Json.string f.evidence)]

/-- The whole report as one object, with lines and columns counted from one. -/
def jsonText (r : Report) : String :=
  Json.pretty (.object [("files_analyzed", .number r.filesAnalyzed),
    ("files_with_syntax_errors", .number r.filesWithSyntaxErrors),
    ("declarations_visited", .number r.declarationsVisited), ("cancelled", .bool r.cancelled),
    ("duration_ms", .number r.durationMs), ("fingerprint", .string (Text.hexWord r.fingerprint)),
    ("counts", .object (r.counts.map fun (p, n) => (p.name, .number n))),
    ("diagnostic_count", .number r.findings.length),
    ("diagnostics", Json.ofList findingEntry r.findings),
    ("failures", Json.ofList Failure.toJson r.failures)])

end Report

inductive ReportFormat where
  | console | json | sarif
deriving Repr, BEq, DecidableEq, Inhabited

namespace ReportFormat

def all : List ReportFormat := [.console, .json, .sarif]

def name : ReportFormat → String
  | .console => "console"
  | .json => "json"
  | .sarif => "sarif"

def ofName? (s : String) : Option ReportFormat := all.find? (·.name == s)

/-- Only text for people has colors. -/
def render (color : Bool) (r : Report) : ReportFormat → String
  | .console => r.console color
  | .json => r.jsonText
  | .sarif => r.sarif

end ReportFormat

end PatternFinder
