import PatternFinder.Analysis.Host
import PatternFinder.Config.Validate
import PatternFinder.Lowering.Tree
import PatternFinder.Report.Format
import PatternFinder.Scan.Discovery

/-! A whole run: from settings and a directory to a report. -/
namespace PatternFinder

/-- What a run leaves to the machine: whether threads can be started, and in which order they take up
their work. -/
structure Machine where
  /-- Start a pool of threads, or say why not. -/
  startThreads : (count : Nat) → Except String Unit
  /-- The order in which the places of a list are taken up. -/
  order : (count : Nat) → List Nat
  order_perm : ∀ count, (order count).Perm (List.range count)

namespace Machine

/-- One thread, which takes up everything as it comes. -/
def sequential : Machine where
  startThreads _ := .ok ()
  order := List.range
  order_perm _ := .refl _

/-- A pool is started only for a parallel run with a fixed number of threads. -/
def setUp (m : Machine) (s : AnalysisSettings) : Except DetectionError Unit :=
  if s.effectiveParallel && 0 < s.effectiveThreads then
    (m.startThreads s.effectiveThreads).mapError .threadPool
  else .ok ()

end Machine

namespace Pipeline

/-- Write a report in the configured format. -/
def render (s : Settings) (r : Report) : Except PipelineError String :=
  match ReportFormat.ofName? s.output.effectiveFormat with
  | some format => .ok (format.render s.output.effectiveColor r)
  | none => .error (.report ("unknown format: " ++ s.output.effectiveFormat))

/-- Read and lower a file; its findings are placed by its relative path. -/
def parseFile (disk : Disk) (file : DiscoveredFile) : Except PipelineError SourceTree :=
  match disk.read file.path with
  | .error message => .error (.scan (.io file.path message))
  | .ok content =>
    match content.syntaxTree with
    | some root => .ok (Lowering.sourceTree (SourceText.ofBytes file.relative content.bytes) root)
    | none => .error (.parse (.parser file.relative "parser produced no tree"))

/-- Parse files, which are taken up in the given order of their places. Before each the signal is
asked, and a file is left out when the answer is yes. What comes out is in the order of the files. -/
def parseFiles {σ : Type} (disk : Disk) (signal : Signal σ) (order : List Nat) (s : σ)
    (files : List DiscoveredFile) : Collected (List SourceTree) × σ :=
  let (cleared, s) := signal.goAhead s order
  let taken := files.zipIdx.filter fun file => cleared.contains file.2
  (.ofOutcomes (taken.map fun file => parseFile disk file.1), s)

/-- The errors of a scan: entries that could not be looked at, then files that are too large. -/
def scanErrors (d : Discovery) : List PipelineError :=
  d.errors.map .scan ++ d.oversized.map fun f => .scan (.fileTooLarge f.path f.size f.max)

/-- The report of a run that was cancelled before the analysis. -/
def cancelledReport : Report := { Report.blank with cancelled := true }

/-- Analyze what a scan discovered. -/
def analyze {σ : Type} (machine : Machine) (settings : Settings) (host : Host) (disk : Disk)
    (found : Discovery) (signal : Signal σ) (s : σ) : Collected Report × σ :=
  if found.cancelled then (⟨cancelledReport, scanErrors found⟩, s)
  else
    let (parsed, s) := parseFiles disk signal (machine.order found.files.length) s found.files
    let errors := scanErrors found ++ parsed.errors
    let (stop, s) := signal.poll s
    if stop then (⟨cancelledReport, errors⟩, s)
    else
      let c := Compilation.ofTrees parsed.data settings.analysis.effectiveSemanticModel
      let (report, s) := host.run c signal s
      (⟨report, errors ++ report.failures.map fun f => .detection f.toError⟩, s)

/-- Analyze every source file below a root. Settings that are not valid, threads that cannot be
started, a missing root and patterns that cannot be read end the run; files that cannot be used are
collected as errors. -/
def runOn {σ : Type} (machine : Machine) (settings : Settings) (disk : Disk) (root : String)
    (signal : Signal σ) (s : σ) : Except PipelineError (Collected Report × σ) := do
  settings.validate.mapError .config
  let host ← (Host.ofSettings settings).mapError .detection
  (machine.setUp settings.analysis).mapError .detection
  let (found, s) ← (disk.scan settings.scan root signal s).mapError .scan
  .ok (analyze machine settings host disk found signal s)

/-- A run in which everything is done as it comes. -/
def run {σ : Type} (settings : Settings) (disk : Disk) (root : String) (signal : Signal σ) (s : σ) :
    Except PipelineError (Collected Report × σ) :=
  runOn .sequential settings disk root signal s

end Pipeline

end PatternFinder
