import PatternFinder.Finding.Basic
import PatternFinder.Pattern.Outcome

/-! The JSON form of findings and of check results. -/
namespace PatternFinder

namespace Pattern

def toJson (p : Pattern) : Json := .string p.name

/-- Only the canonical names are read. -/
def ofJson? (j : Json) : Option Pattern := j.asString?.bind fun s => all.find? (·.name == s)

end Pattern

namespace Severity

def toJson (s : Severity) : Json := .string s.name

def ofJson? (j : Json) : Option Severity := j.asString?.bind ofExactName?

end Severity

namespace Finding

/-- A finding without evidence has no such member. -/
def toJson (f : Finding) : Json :=
  .object ([("rule_id", .string f.ruleId), ("pattern", f.pattern.toJson),
    ("check", .string f.check), ("severity", f.severity.toJson), ("message", .string f.message),
    ("location", f.location.toJson)] ++
    (match f.evidence with
      | some e => [("evidence", .string e)]
      | none => []))

def ofJson? (j : Json) : Option Finding := do
  let ruleId ← j.required "rule_id" Json.asString?
  let pattern ← j.required "pattern" Pattern.ofJson?
  let check ← j.required "check" Json.asString?
  let severity ← j.required "severity" Severity.ofJson?
  let message ← j.required "message" Json.asString?
  let location ← j.required "location" Location.ofJson?
  let evidence ← j.optional "evidence" Json.asString?
  some ⟨ruleId, pattern, check, severity, message, location, evidence⟩

end Finding

def UnsupportedReason.toJson : UnsupportedReason → Json
  | .noSemanticModel => .object [("reason", .string "no_semantic_model")]
  | .unresolvedType t => .object [("reason", .string "unresolved_type"), ("detail", .string t)]
  | .unresolvedElementType t =>
    .object [("reason", .string "unresolved_element_type"), ("detail", .string t)]

def UnsupportedReason.ofJson? (j : Json) : Option UnsupportedReason := do
  match ← j.required "reason" Json.asString? with
  | "no_semantic_model" => some .noSemanticModel
  | "unresolved_type" => (j.required "detail" Json.asString?).map .unresolvedType
  | "unresolved_element_type" => (j.required "detail" Json.asString?).map .unresolvedElementType
  | _ => none

def Verdict.toJson : Verdict → Json
  | .found => .string "match"
  | .notFound => .string "no_match"
  | .unsupported reason => .object [("unsupported", reason.toJson)]

def Outcome.toJson (o : Outcome) : Json :=
  .array [o.verdict.toJson, Json.ofOption Location.toJson o.location,
    Json.ofOption Json.string o.evidence]

end PatternFinder
