import PatternFinder.Analysis.Report
import PatternFinder.Analysis.Work
import PatternFinder.Pattern.Check

/-! Analyzers: what is done at which declarations. -/
namespace PatternFinder

/-- What is reported, and how severely. -/
structure ReportOptions where
  minSeverity : Severity
  includePartial : Bool
  severityOverrides : Pattern → Option Severity

namespace ReportOptions

/-- Everything, with the severities of the rules. -/
def standard : ReportOptions := ⟨.hint, true, fun _ => none⟩

def severityFor (o : ReportOptions) (p : Pattern) : Severity :=
  (o.severityOverrides p).getD (Rule.ofPattern p).defaultSeverity

/-- Override the severity of one pattern. -/
def override (o : ReportOptions) (p : Pattern) (s : Severity) : ReportOptions :=
  { o with severityOverrides := fun q => if q == p then some s else o.severityOverrides q }

end ReportOptions

/-- What an action has before it: a declaration, the compilation around it and the options. -/
structure Visit where
  item : WorkItem
  compilation : Compilation
  options : ReportOptions

/-- What an action does: findings, or a breakdown with a message; it may also ask to cancel. -/
structure Reaction where
  findings : List Finding
  failure : Option String
  cancels : Bool

namespace Reaction

def nothing : Reaction := ⟨[], none, false⟩

def ofFindings (findings : List Finding) : Reaction := ⟨findings, none, false⟩

def fail (message : String) : Reaction := ⟨[], some message, false⟩

def cancel : Reaction := ⟨[], none, true⟩

end Reaction

/-- What an analyzer does at one kind of declaration. -/
structure Action where
  kind : SiteKind
  react : Visit → Reaction

structure Analyzer where
  pattern : Pattern
  actions : List Action

namespace Visit

/-- The finding of a pattern at a place, unless it is not severe enough. -/
def report (v : Visit) (p : Pattern) (check subject : String) (location : Location)
    (evidence : Option String) : List Finding :=
  let severity := v.options.severityFor p
  if severity.atLeast v.options.minSeverity then
    let rule := Rule.ofPattern p
    [⟨rule.id, p, check, severity, rule.message subject check, location, evidence⟩]
  else []

/-- The finding of an outcome that is a match. -/
def reportOutcome (v : Visit) (p : Pattern) (check subject : String) (o : Outcome) : List Finding :=
  match o.matched, o.location with
  | true, some location => v.report p check subject location o.evidence
  | _, _ => []

/-- The finding of a check that matches. -/
def reportCheck (v : Visit) (check : Check) (subject : String) : List Finding :=
  v.reportOutcome check.pattern check.name subject (check.evaluate v.compilation)

end Visit

/-- The name under which a local declaration is reported. -/
def localSubject (l : LocalDeclaration) : String := (l.declarators.head?.map (·.identifier)).getD "<local>"

namespace Analyzer

def onType (kind : SiteKind) (f : Visit → TypeDeclaration → List Finding) : Action :=
  ⟨kind, fun v => match v.item.site with
    | .type t => .ofFindings (f v t)
    | _ => .nothing⟩

def onField (f : Visit → FieldDeclaration → List Finding) : Action :=
  ⟨.field, fun v => match v.item.site with
    | .field d => .ofFindings (f v d)
    | _ => .nothing⟩

def onMethod (f : Visit → MethodDeclaration → List Finding) : Action :=
  ⟨.method, fun v => match v.item.site with
    | .method m => .ofFindings (f v m)
    | _ => .nothing⟩

/-- An action at local declarations, which are reported only when partial evidence is wanted. -/
def onLocal (f : Visit → LocalDeclaration → List Finding) : Action :=
  ⟨.local, fun v => match v.item.site with
    | .local l => if v.options.includePartial then .ofFindings (f v l) else .nothing
    | _ => .nothing⟩

def singleton : Analyzer where
  pattern := .singleton
  actions := [onType .class fun v t =>
    v.reportOutcome .singleton "Singleton" t.identifier (Singleton.verdict t)]

def factoryMethod : Analyzer where
  pattern := .factoryMethod
  actions :=
    [onType .interface fun v t => v.reportCheck (.isProductInterface t) t.identifier,
      onType .class fun v t => v.reportCheck (.isConcreteProduct t) t.identifier,
      onMethod fun v m => v.reportCheck (.isAbstractFactoryMethod m) m.identifier ++
        v.reportCheck (.overridesAbstractFactoryMethod m) m.identifier,
      onLocal fun v l => v.reportCheck (.declarationWithFactoryMethod l) (localSubject l)]

def decorator : Analyzer where
  pattern := .decorator
  actions :=
    [onType .class fun v t =>
        v.reportOutcome .decorator "Decorator" t.identifier (Decorator.verdict t v.compilation),
      onLocal fun v l => v.reportCheck (.wrapsInStatement l) (localSubject l)]

def flyweight : Analyzer where
  pattern := .flyweight
  actions :=
    [onField fun v f => v.reportCheck (.hasCollection f) f.firstName,
      onMethod fun v m => match v.item.owner with
        | some t => v.reportCheck (.hasGetMethod m (Flyweight.Context.collect t v.compilation))
            m.identifier
        | none => []]

/-- The analyzer of each pattern. -/
def ofPattern : Pattern → Analyzer
  | .singleton => singleton
  | .factoryMethod => factoryMethod
  | .decorator => decorator
  | .flyweight => flyweight

end Analyzer

end PatternFinder
