import PatternFinder.Finding.Severity
import PatternFinder.Pattern.Basic

/-! Settings. A setting that is absent has a default; absence itself is kept, because a stronger
layer overrides a weaker one only where it says something. -/
namespace PatternFinder

@[ext] structure ScanSettings where
  maxFileSize : Option Nat
  extraIgnore : List String
  followSymlinks : Option Bool
  includeHidden : Option Bool
deriving Repr, BEq, DecidableEq, Inhabited

@[ext] structure AnalysisSettings where
  parallel : Option Bool
  threads : Option Nat
  semanticModel : Option Bool
deriving Repr, BEq, DecidableEq, Inhabited

/-- The severity overrides are in increasing order of their keys, which are spellings of pattern
names. -/
@[ext] structure PatternSettings where
  enabled : List String
  minSeverity : Option String
  severityOverrides : List (String × String)
deriving Repr, BEq, DecidableEq, Inhabited

@[ext] structure OutputSettings where
  format : Option String
  includePartial : Option Bool
  color : Option Bool
deriving Repr, BEq, DecidableEq, Inhabited

@[ext] structure Settings where
  scan : ScanSettings
  analysis : AnalysisSettings
  patterns : PatternSettings
  output : OutputSettings
deriving Repr, BEq, DecidableEq, Inhabited

namespace ScanSettings

def unset : ScanSettings := ⟨none, [], none, none⟩

/-- One mebibyte unless set. -/
def effectiveMaxFileSize (s : ScanSettings) : Nat := s.maxFileSize.getD 1048576

def effectiveFollowSymlinks (s : ScanSettings) : Bool := s.followSymlinks.getD false

def effectiveIncludeHidden (s : ScanSettings) : Bool := s.includeHidden.getD false

end ScanSettings

namespace AnalysisSettings

def unset : AnalysisSettings := ⟨none, none, none⟩

def effectiveParallel (s : AnalysisSettings) : Bool := s.parallel.getD true

/-- Zero leaves the number of threads to the machine. -/
def effectiveThreads (s : AnalysisSettings) : Nat := s.threads.getD 0

def effectiveSemanticModel (s : AnalysisSettings) : Bool := s.semanticModel.getD true

end AnalysisSettings

namespace PatternSettings

def unset : PatternSettings := ⟨[], none, []⟩

/-- No list means all patterns. -/
def effectiveEnabled (s : PatternSettings) : List String :=
  if s.enabled.isEmpty then Pattern.all.map Pattern.name else s.enabled.map Pattern.normalizeName

def isEnabled (s : PatternSettings) (name : String) : Bool :=
  s.effectiveEnabled.contains (Pattern.normalizeName name)

def effectiveMinSeverity (s : PatternSettings) : String := s.minSeverity.getD "hint"

/-- The first override whose key spells the given pattern. -/
def severityOverride? (s : PatternSettings) (name : String) : Option String :=
  (s.severityOverrides.find? fun entry =>
    Pattern.normalizeName entry.1 == Pattern.normalizeName name).map (·.2)

end PatternSettings

namespace OutputSettings

def unset : OutputSettings := ⟨none, none, none⟩

def effectiveFormat (s : OutputSettings) : String := s.format.getD "console"

def effectiveIncludePartial (s : OutputSettings) : Bool := s.includePartial.getD true

def effectiveColor (s : OutputSettings) : Bool := s.color.getD false

end OutputSettings

def Settings.unset : Settings := ⟨.unset, .unset, .unset, .unset⟩

/-- Put an entry into a list that is ordered by key; an entry with the same key is replaced. -/
def insertByKey (key value : String) : List (String × String) → List (String × String)
  | [] => [(key, value)]
  | (k, v) :: rest =>
    if key == k then (key, value) :: rest
    else if key < k then (key, value) :: (k, v) :: rest
    else (k, v) :: insertByKey key value rest

/-- Put all entries of the stronger list into the weaker one. -/
def overlay (weak strong : List (String × String)) : List (String × String) :=
  strong.foldl (fun acc entry => insertByKey entry.1 entry.2 acc) weak

end PatternFinder
