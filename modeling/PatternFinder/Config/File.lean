import PatternFinder.Config.Settings
import PatternFinder.Toml.Printer
import PatternFinder.Toml.Reader

/-! Settings as a TOML document. What a document says beyond the settings is ignored; what it says
about a setting must have the right type. -/
namespace PatternFinder

namespace ScanSettings

def fieldNames : List String := ["max_file_size", "extra_ignore", "follow_symlinks", "include_hidden"]

def ofToml? (v : Toml) : Option ScanSettings := do
  let entries ← v.fields? fieldNames
  some {
    maxFileSize := ← Toml.optional? entries "max_file_size" Toml.asNat?
    extraIgnore := ← Toml.strings? entries "extra_ignore"
    followSymlinks := ← Toml.optional? entries "follow_symlinks" Toml.asBool?
    includeHidden := ← Toml.optional? entries "include_hidden" Toml.asBool? }

def toToml (s : ScanSettings) : Toml :=
  .table (Toml.entry "max_file_size" Toml.ofNat s.maxFileSize ++
    [("extra_ignore", Toml.ofStrings s.extraIgnore)] ++
    Toml.entry "follow_symlinks" .boolean s.followSymlinks ++
    Toml.entry "include_hidden" .boolean s.includeHidden)

end ScanSettings

namespace AnalysisSettings

def fieldNames : List String := ["parallel", "threads", "semantic_model"]

def ofToml? (v : Toml) : Option AnalysisSettings := do
  let entries ← v.fields? fieldNames
  some {
    parallel := ← Toml.optional? entries "parallel" Toml.asBool?
    threads := ← Toml.optional? entries "threads" Toml.asNat?
    semanticModel := ← Toml.optional? entries "semantic_model" Toml.asBool? }

def toToml (s : AnalysisSettings) : Toml :=
  .table (Toml.entry "parallel" .boolean s.parallel ++
    Toml.entry "threads" Toml.ofNat s.threads ++
    Toml.entry "semantic_model" .boolean s.semanticModel)

end AnalysisSettings

namespace PatternSettings

def fieldNames : List String := ["enabled", "min_severity", "severity_overrides"]

/-- The overrides in increasing order of their keys. -/
def overrides? (v : Toml) : Option (List (String × String)) := do
  let entries ← v.entries?
  let pairs ← entries.mapM fun (key, v) => v.asString?.map ((key, ·))
  some (overlay [] pairs)

def ofToml? (v : Toml) : Option PatternSettings := do
  let entries ← v.fields? fieldNames
  some {
    enabled := ← Toml.strings? entries "enabled"
    minSeverity := ← Toml.optional? entries "min_severity" Toml.asString?
    severityOverrides := (← Toml.optional? entries "severity_overrides" overrides?).getD [] }

def toToml (s : PatternSettings) : Toml :=
  .table ([("enabled", Toml.ofStrings s.enabled)] ++
    Toml.entry "min_severity" .string s.minSeverity ++
    [("severity_overrides", .table (s.severityOverrides.map fun (key, v) => (key, .string v)))])

end PatternSettings

namespace OutputSettings

def fieldNames : List String := ["format", "include_partial", "color"]

def ofToml? (v : Toml) : Option OutputSettings := do
  let entries ← v.fields? fieldNames
  some {
    format := ← Toml.optional? entries "format" Toml.asString?
    includePartial := ← Toml.optional? entries "include_partial" Toml.asBool?
    color := ← Toml.optional? entries "color" Toml.asBool? }

def toToml (s : OutputSettings) : Toml :=
  .table (Toml.entry "format" .string s.format ++
    Toml.entry "include_partial" .boolean s.includePartial ++
    Toml.entry "color" .boolean s.color)

end OutputSettings

namespace Settings

def ofToml? (v : Toml) : Option Settings := do
  let entries ← v.entries?
  some {
    scan := (← Toml.optional? entries "scan" ScanSettings.ofToml?).getD .unset
    analysis := (← Toml.optional? entries "analysis" AnalysisSettings.ofToml?).getD .unset
    patterns := (← Toml.optional? entries "patterns" PatternSettings.ofToml?).getD .unset
    output := (← Toml.optional? entries "output" OutputSettings.ofToml?).getD .unset }

/-- The numbers among the settings fit into a document. -/
def Writable (s : Settings) : Prop :=
  (∀ n ∈ s.scan.maxFileSize, Toml.IsWord n) ∧ ∀ n ∈ s.analysis.threads, Toml.IsWord n

instance (s : Settings) : Decidable s.Writable := inferInstanceAs (Decidable (_ ∧ _))

/-- Every section is written, and in each the settings that are present. -/
def toToml? (s : Settings) : Option Toml :=
  if s.Writable then
    some (.table [("scan", s.scan.toToml), ("analysis", s.analysis.toToml),
      ("patterns", s.patterns.toToml), ("output", s.output.toToml)])
  else none

/-- Read settings from the text of a document. -/
def ofText? (text : String) : Option Settings := (Toml.read? text).bind ofToml?

/-- The text of a document with these settings. -/
def toText? (s : Settings) : Option String := s.toToml?.map Toml.print

end Settings

end PatternFinder
