import PatternFinder.Analysis.Analyzer
import PatternFinder.Config.Settings

/-! The analyzers that take part in a run, at most one for each pattern. -/
namespace PatternFinder

structure Registry where
  analyzers : List Analyzer

namespace Registry

def empty : Registry := ⟨[]⟩

/-- An analyzer takes the place of the one for the same pattern, and goes last. -/
def register (r : Registry) (a : Analyzer) : Registry :=
  ⟨r.analyzers.filter (·.pattern != a.pattern) ++ [a]⟩

/-- The analyzers of all patterns. -/
def standard : Registry := (Pattern.all.map Analyzer.ofPattern).foldl register empty

def retain (r : Registry) (keep : Pattern → Bool) : Registry :=
  ⟨r.analyzers.filter (keep ·.pattern)⟩

def patterns (r : Registry) : List Pattern := r.analyzers.map (·.pattern)

def size (r : Registry) : Nat := r.analyzers.length

def isEmpty (r : Registry) : Bool := r.analyzers.isEmpty

private def readPatterns : List String → Except DetectionError (List Pattern)
  | [] => .ok []
  | name :: rest =>
    match Pattern.ofName? name with
    | none => .error (.unknownPattern name)
    | some p => (readPatterns rest).map (p :: ·)

/-- The standard analyzers of the enabled patterns. -/
def ofSettings (s : PatternSettings) : Except DetectionError Registry := do
  let enabled ← readPatterns s.effectiveEnabled
  let r := standard.retain enabled.contains
  if r.isEmpty then .error .noAnalyzers else .ok r

private theorem readPatterns_names (ps : List Pattern) :
    readPatterns (ps.map Pattern.name) = .ok ps := by
  induction ps with
  | nil => rfl
  | cons p ps ih =>
    rw [List.map_cons, readPatterns, Pattern.ofName?_name]
    simp only [ih, Except.map]

theorem ofSettings_eq_ok {s : PatternSettings} {ps : List Pattern}
    (hnames : s.effectiveEnabled = ps.map Pattern.name)
    (hsome : (standard.retain ps.contains).isEmpty = false) :
    ofSettings s = .ok (standard.retain ps.contains) := by
  unfold ofSettings
  rw [hnames, readPatterns_names]
  simp only [bind, Except.bind, hsome, Bool.false_eq_true, if_false]

end Registry

end PatternFinder
