import PatternFinder.Analysis.Report
import PatternFinder.Encoding.Finding
import PatternFinder.Text.Number

/-! The JSON form of reports. -/
namespace PatternFinder

namespace Failure

def toJson (f : Failure) : Json :=
  .object [("pattern", f.pattern.toJson), ("file", .string f.file), ("message", .string f.message)]

def ofJson? (j : Json) : Option Failure := do
  let pattern ← j.required "pattern" Pattern.ofJson?
  let file ← j.required "file" Json.asString?
  let message ← j.required "message" Json.asString?
  some ⟨pattern, file, message⟩

end Failure

namespace Report

/-- A report without failures has no such member. -/
def toJson (r : Report) : Json :=
  .object ([("diagnostics", Json.ofList Finding.toJson r.findings),
    ("patterns", Json.ofList Pattern.toJson r.patterns),
    ("files_analyzed", .number r.filesAnalyzed),
    ("files_with_syntax_errors", .number r.filesWithSyntaxErrors),
    ("declarations_visited", .number r.declarationsVisited), ("cancelled", .bool r.cancelled),
    ("duration_ms", .number r.durationMs), ("fingerprint", .string (Text.hexWord r.fingerprint))] ++
    (match r.failures with
      | [] => []
      | f :: fs => [("failures", Json.ofList Failure.toJson (f :: fs))]))

def ofJson? (j : Json) : Option Report := do
  let findings ← j.required "diagnostics" (Json.list Finding.ofJson?)
  let patterns ← j.required "patterns" (Json.list Pattern.ofJson?)
  let filesAnalyzed ← j.required "files_analyzed" Json.asNat?
  let filesWithSyntaxErrors ← j.required "files_with_syntax_errors" Json.asNat?
  let declarationsVisited ← j.required "declarations_visited" Json.asNat?
  let cancelled ← j.required "cancelled" Json.asBool?
  let durationMs ← j.required "duration_ms" Json.asNat?
  let failures ← j.optional "failures" (Json.list Failure.ofJson?)
  let fingerprint ← (← j.required "fingerprint" Json.asString?) |> Text.hexWord?
  some ⟨findings, patterns, filesAnalyzed, filesWithSyntaxErrors, declarationsVisited, cancelled,
    durationMs, failures.getD [], fingerprint⟩

end Report

end PatternFinder
