import PatternFinder.Config.Settings
import PatternFinder.Json.Basic

/-! The JSON form of settings: every setting is shown, an absent one as null. -/
namespace PatternFinder

namespace ScanSettings

def toJson (s : ScanSettings) : Json :=
  .object [("max_file_size", Json.ofOption Json.number s.maxFileSize),
    ("extra_ignore", Json.ofList Json.string s.extraIgnore),
    ("follow_symlinks", Json.ofOption Json.bool s.followSymlinks),
    ("include_hidden", Json.ofOption Json.bool s.includeHidden)]

end ScanSettings

namespace AnalysisSettings

def toJson (s : AnalysisSettings) : Json :=
  .object [("parallel", Json.ofOption Json.bool s.parallel),
    ("threads", Json.ofOption Json.number s.threads),
    ("semantic_model", Json.ofOption Json.bool s.semanticModel)]

end AnalysisSettings

namespace PatternSettings

def toJson (s : PatternSettings) : Json :=
  .object [("enabled", Json.ofList Json.string s.enabled),
    ("min_severity", Json.ofOption Json.string s.minSeverity),
    ("severity_overrides", .object (s.severityOverrides.map fun (key, v) => (key, .string v)))]

end PatternSettings

namespace OutputSettings

def toJson (s : OutputSettings) : Json :=
  .object [("format", Json.ofOption Json.string s.format),
    ("include_partial", Json.ofOption Json.bool s.includePartial),
    ("color", Json.ofOption Json.bool s.color)]

end OutputSettings

namespace Settings

def toJson (s : Settings) : Json :=
  .object [("scan", s.scan.toJson), ("analysis", s.analysis.toJson),
    ("patterns", s.patterns.toJson), ("output", s.output.toJson)]

/-- What the settings come to once defaults are filled in. -/
def effectiveJson (s : Settings) : Json :=
  .object [("max_file_size", .number s.scan.effectiveMaxFileSize),
    ("follow_symlinks", .bool s.scan.effectiveFollowSymlinks),
    ("include_hidden", .bool s.scan.effectiveIncludeHidden),
    ("parallel", .bool s.analysis.effectiveParallel),
    ("threads", .number s.analysis.effectiveThreads),
    ("semantic_model", .bool s.analysis.effectiveSemanticModel),
    ("enabled", Json.ofList Json.string s.patterns.effectiveEnabled),
    ("min_severity", .string s.patterns.effectiveMinSeverity),
    ("format", .string s.output.effectiveFormat),
    ("include_partial", .bool s.output.effectiveIncludePartial),
    ("color", .bool s.output.effectiveColor)]

end Settings

end PatternFinder
