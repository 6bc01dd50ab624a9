import PatternFinder.Encoding.Report
import PatternFinder.Json.Printer

/-! A report in the Static Analysis Results Interchange Format. -/
namespace PatternFinder.Report

private def levelOf : Severity → String
  | .error => "error"
  | .warning => "warning"
  | .info | .hint => "note"

private def textObject (s : String) : Json := .object [("text", .string s)]

private def resultEntry (f : Finding) : Json :=
  let range := f.location.range
  .object [("ruleId", .string f.ruleId), ("level", .string (levelOf f.severity)),
    ("message", textObject f.message),
    ("locations", .array [.object [("physicalLocation", .object [
      ("artifactLocation", .object [("uri", .string f.location.file),
        ("uriBaseId", .string "%SRCROOT%")]),
      ("region", .object [("startLine", .number (range.start.line + 1)),
        ("startColumn", .number (range.start.column + 1)),
        ("endLine", .number (range.stop.line + 1)),
        ("endColumn", .number (range.stop.column + 1))])])]]),
    ("properties", .object ([("check", .string f.check), ("pattern", f.pattern.toJson)] ++
      (match f.evidence with
        | some e => [("evidence", .string e)]
        | none => [])))]

private def ruleEntry (p : Pattern) : Json :=
  let rule := Rule.ofPattern p
  .object [("id", .string rule.id), ("name", .string rule.title),
    ("shortDescription", textObject rule.title),
    ("defaultConfiguration", .object [("level", .string (levelOf rule.defaultSeverity))]),
    ("properties", .object [("category", .string rule.category)])]

/-- One run with its tool, its results and whether it went through. -/
def sarif (r : Report) : String :=
  Json.pretty (.object [("$schema", .string "https://json.schemastore.org/sarif-2.1.0.json"),
    ("version", .string "2.1.0"),
    ("runs", .array [.object [
      ("tool", .object [("driver", .object [("name", .string "inspector"),
        ("version", .string "0.1.0"), ("rules", Json.ofList ruleEntry r.patterns)])]),
      ("results", Json.ofList resultEntry r.findings),
      ("invocations", .array [.object [("executionSuccessful",
        .bool (!r.cancelled && r.failures.isEmpty))]])]])])

end PatternFinder.Report
