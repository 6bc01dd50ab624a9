import PatternFinder.Pipeline
import PatternFinder.Proofs.ValidSettings

/-! Every entry of a walk is accounted for: unless a run says that it was cancelled, each source
file is one tree of the compilation or one error, whenever the run is told to stop and in whatever
order the files are taken up. -/
namespace PatternFinder

/-- Once the answer is yes, it is yes ever after. -/
def Signal.Lasting {σ : Type} (signal : Signal σ) : Prop :=
  ∀ s, (signal.poll s).1 = true → (signal.poll (signal.poll s).2).1 = true

/-- What becomes of an entry of a walk. -/
inductive Fate where
  | passedOver
  | unseen (e : PipelineError)
  | oversized (e : PipelineError)
  | unusable (e : PipelineError)
  | analyzed (tree : SourceTree)

namespace Fate

def tree? : Fate → Option SourceTree
  | .analyzed tree => some tree
  | _ => none

def error? : Fate → Option PipelineError
  | .unseen e | .oversized e | .unusable e => some e
  | _ => none

def isUnseen : Fate → Bool
  | .unseen _ => true
  | _ => false

def isOversized : Fate → Bool
  | .oversized _ => true
  | _ => false

def isUnusable : Fate → Bool
  | .unusable _ => true
  | _ => false

def isAnalyzed : Fate → Bool
  | .analyzed _ => true
  | _ => false

theorem length_filterMap_tree? (fates : List Fate) :
    (fates.filterMap tree?).length = fates.countP isAnalyzed := by
  induction fates with
  | nil => rfl
  | cons fate rest ih =>
    cases fate <;> simp [List.filterMap_cons, List.countP_cons, tree?, isAnalyzed, ih]

theorem length_filterMap_error? (fates : List Fate) :
    (fates.filterMap error?).length =
      fates.countP isUnseen + fates.countP isOversized + fates.countP isUnusable := by
  induction fates with
  | nil => rfl
  | cons fate rest ih =>
    cases fate <;>
      simp [List.filterMap_cons, List.countP_cons, error?, isUnseen, isOversized, isUnusable,
        ih] <;>
      omega

end Fate

/-- Only a regular file with the extension `cs` counts. It must not be too large, it must be
possible to read it, and reading it must give a tree. -/
def WalkEntry.fate (disk : Disk) (max : Nat) (root : String) : WalkEntry → Fate
  | .other => .passedOver
  | .failure message => .unseen (.scan (.io root message))
  | .file path relative size =>
    if Discovery.extension? path = some "cs" then
      match size with
      | .error message => .unusable (.scan (.io path message))
      | .ok size =>
        if size ≤ max then
          match disk.read path with
          | .error message => .unusable (.scan (.io path message))
          | .ok content =>
            match content.syntaxTree with
            | none => .unusable (.parse (.parser relative "parser produced no tree"))
            | some top =>
              .analyzed (Lowering.sourceTree (SourceText.ofBytes relative content.bytes) top)
        else .oversized (.scan (.fileTooLarge path size max))
    else .passedOver

theorem Discovery.languageOf?_eq (path : String) :
    languageOf? path = if extension? path = some "cs" then some .csharp else none := by
  unfold languageOf?
  cases extension? path with
  | none => rfl
  | some ext =>
    by_cases hext : ext = "cs"
    · subst hext
      rfl
    · simp [Language.ofExtension?, Language.all, Language.extensions, hext]

namespace Signal

variable {σ : Type} {signal : Signal σ}

theorem goAhead_cons (s : σ) (place : Nat) (rest : List Nat) :
    signal.goAhead s (place :: rest) =
      (if (signal.poll s).1 then (signal.goAhead (signal.poll s).2 rest).1
        else place :: (signal.goAhead (signal.poll s).2 rest).1,
        (signal.goAhead (signal.poll s).2 rest).2) := rfl

theorem Lasting.goAhead (h : signal.Lasting) (order : List Nat) {s : σ}
    (hs : (signal.poll s).1 = true) :
    (signal.poll (signal.goAhead s order).2).1 = true := by
  induction order generalizing s with
  | nil => exact hs
  | cons place rest ih => exact ih (h s hs)

/-- If the last question is answered with no, so were all before it. -/
theorem Lasting.goAhead_eq (h : signal.Lasting) (order : List Nat) (s : σ)
    (hend : (signal.poll (signal.goAhead s order).2).1 = false) :
    (signal.goAhead s order).1 = order := by
  induction order generalizing s with
  | nil => rfl
  | cons place rest ih =>
    rw [goAhead_cons] at hend ⊢
    cases hpoll : (signal.poll s).1 with
    | true =>
      have hstill := h.goAhead rest (h s hpoll)
      rw [hstill] at hend
      cases hend
    | false => simp only [Bool.false_eq_true, if_false, ih _ hend]

end Signal

namespace Pipeline

/-- All files of a discovery, parsed. -/
def parsed (disk : Disk) (d : Discovery) : Collected (List SourceTree) :=
  .ofOutcomes (d.files.map (parseFile disk))

variable {disk : Disk} {max : Nat} {root : String}

/-- What an entry adds to a discovery: nothing, an error, an oversized file, or a file whose fate is
decided when it is parsed. -/
theorem see_cases (disk : Disk) (max : Nat) (root : String) (d : Discovery) (entry : WalkEntry) :
    (entry.fate disk max root = .passedOver ∧ d.see max root entry = d) ∨
    (∃ e, (entry.fate disk max root = .unseen (.scan e) ∨
        entry.fate disk max root = .unusable (.scan e)) ∧
      d.see max root entry = { d with errors := e :: d.errors }) ∨
    (∃ f : OversizedFile,
      entry.fate disk max root = .oversized (.scan (.fileTooLarge f.path f.size f.max)) ∧
      d.see max root entry = { d with oversized := f :: d.oversized }) ∨
    (∃ f, d.see max root entry = { d with files := f :: d.files } ∧
      ((∃ tree, parseFile disk f = .ok tree ∧ entry.fate disk max root = .analyzed tree) ∨
        ∃ e, parseFile disk f = .error e ∧ entry.fate disk max root = .unusable e)) := by
  cases entry with
  | other => exact .inl ⟨rfl, rfl⟩
  | failure message => exact .inr (.inl ⟨.io root message, .inl rfl, rfl⟩)
  | file path relative size =>
    simp only [Discovery.see, Discovery.languageOf?_eq, WalkEntry.fate]
    by_cases hext : Discovery.extension? path = some "cs"
    · cases size with
      | error message =>
        exact .inr (.inl ⟨.io path message, by simp [hext]⟩)
      | ok size =>
        by_cases hsize : size ≤ max
        · refine .inr (.inr (.inr ⟨⟨path, relative, size, .csharp⟩, ?_, ?_⟩))
          · simp [hext, hsize]
          · simp only [hext, hsize, if_true, parseFile]
            cases disk.read path with
            | error message => exact .inr ⟨_, rfl, rfl⟩
            | ok content =>
              dsimp only
              cases content.syntaxTree with
              | none => exact .inr ⟨_, rfl, rfl⟩
              | some top => exact .inl ⟨_, rfl, rfl⟩
        · refine .inr (.inr (.inl ⟨⟨path, size, max⟩, ?_, ?_⟩))
          · simp [hext, hsize]
          · simp [hext, not_le.mp hsize]
    · exact .inl (by simp [hext])

theorem parsed_cons_ok {d : Discovery} {f : DiscoveredFile} {tree : SourceTree}
    (h : parseFile disk f = .ok tree) :
    parsed disk { d with files := f :: d.files } =
      ⟨tree :: (parsed disk d).data, (parsed disk d).errors⟩ := by
  rw [parsed, List.map_cons, h]
  rfl

theorem parsed_cons_error {d : Discovery} {f : DiscoveredFile} {e : PipelineError}
    (h : parseFile disk f = .error e) :
    parsed disk { d with files := f :: d.files } =
      ⟨(parsed disk d).data, e :: (parsed disk d).errors⟩ := by
  rw [parsed, List.map_cons, h]
  rfl

/-- All errors that come out of a discovery. -/
def foundErrors (disk : Disk) (d : Discovery) : List PipelineError :=
  scanErrors d ++ (parsed disk d).errors

/-- An entry adds its tree to the trees and its error to the errors. -/
theorem see_accounts (disk : Disk) (max : Nat) (root : String) (d : Discovery)
    (entry : WalkEntry) :
    (parsed disk (d.see max root entry)).data =
        (entry.fate disk max root).tree?.toList ++ (parsed disk d).data ∧
      (foundErrors disk (d.see max root entry)).Perm
        ((entry.fate disk max root).error?.toList ++ foundErrors disk d) := by
  rcases see_cases disk max root d entry with ⟨hfate, hsee⟩ | ⟨e, hfate, hsee⟩ | ⟨f, hfate, hsee⟩ |
    ⟨f, hsee, ⟨tree, hparse, hfate⟩ | ⟨e, hparse, hfate⟩⟩
  · rw [hfate, hsee]
    exact ⟨rfl, .refl _⟩
  · rw [hsee]
    rcases hfate with hfate | hfate
    · rw [hfate]
      exact ⟨rfl, .refl _⟩
    · rw [hfate]
      exact ⟨rfl, .refl _⟩
  · rw [hfate, hsee]
    refine ⟨rfl, ?_⟩
    simp only [foundErrors, scanErrors, List.map_cons, List.append_assoc, List.cons_append]
    exact List.perm_middle
  · rw [hfate, foundErrors, hsee, parsed_cons_ok hparse]
    exact ⟨rfl, .refl _⟩
  · rw [hfate, foundErrors, hsee, parsed_cons_error hparse]
    exact ⟨rfl, List.perm_middle⟩

private theorem see_cancelled (max : Nat) (root : String) (d : Discovery) (entry : WalkEntry) :
    (d.see max root entry).cancelled = d.cancelled := by
  unfold Discovery.see
  repeat' split
  all_goals rfl

variable {σ : Type} {signal : Signal σ}

/-- A scan that was not cancelled has seen every entry. -/
theorem collect_accounts (disk : Disk) (entries : List WalkEntry) (s : σ)
    (hdone : (Discovery.collect max root signal s entries).1.cancelled = false) :
    (parsed disk (Discovery.collect max root signal s entries).1).data =
        (entries.map (·.fate disk max root)).filterMap Fate.tree? ∧
      (foundErrors disk (Discovery.collect max root signal s entries).1).Perm
        ((entries.map (·.fate disk max root)).filterMap Fate.error?) := by
  induction entries generalizing s with
  | nil => exact ⟨rfl, .refl _⟩
  | cons entry rest ih =>
    rw [Discovery.collect] at hdone ⊢
    split at hdone
    · cases hdone
    · rename_i s' hpoll
      rw [see_cancelled] at hdone
      obtain ⟨htrees, herrors⟩ := ih s' hdone
      obtain ⟨hadded, hmore⟩ := see_accounts disk max root
        (Discovery.collect max root signal s' rest).1 entry
      simp only [List.filterMap_eq_flatMap_toList, List.map_cons, List.flatMap_cons]
        at htrees herrors ⊢
      rw [← htrees]
      exact ⟨hadded, hmore.trans (herrors.append_left _)⟩

theorem perm_sorted (d : Discovery) : d.sorted.files.Perm d.files := List.mergeSort_perm _ _

theorem trees_sorted (disk : Disk) (d : Discovery) :
    (parsed disk d.sorted).data.Perm (parsed disk d).data :=
  ((perm_sorted d).map _).filterMap _

theorem foundErrors_sorted (disk : Disk) (d : Discovery) :
    (foundErrors disk d.sorted).Perm (foundErrors disk d) :=
  List.Perm.append_left _ (((perm_sorted d).map _).filterMap _)

/-- When the signal still says no after all files were taken up, none of them was left out. -/
theorem parseFiles_eq (hlasting : signal.Lasting) (machine : Machine) (disk : Disk) (d : Discovery)
    (s : σ) (hend : (signal.poll (parseFiles disk signal (machine.order d.files.length) s
      d.files).2).1 = false) :
    (parseFiles disk signal (machine.order d.files.length) s d.files).1 = parsed disk d := by
  have hall : d.files.zipIdx.filter (fun file => (machine.order d.files.length).contains file.2) =
      d.files.zipIdx := by
    refine List.filter_eq_self.mpr fun file hfile => ?_
    rw [List.contains_iff_mem, (machine.order_perm _).mem_iff, List.mem_range]
    exact List.snd_lt_of_mem_zipIdx hfile
  have hmap : d.files.zipIdx.map (fun file => parseFile disk file.1) =
      d.files.map (parseFile disk) := by
    conv_rhs => rw [← List.zipIdx_map_fst 0 d.files, List.map_map]
    rfl
  simp only [parseFiles, hlasting.goAhead_eq _ s hend, hall, hmap, parsed]

/-- An analysis that was not cancelled is one of all files that were found. -/
theorem analyze_eq (hlasting : signal.Lasting) (machine : Machine) (settings : Settings)
    (host : Host) (disk : Disk) (found : Discovery) (s : σ)
    (hdone : (analyze machine settings host disk found signal s).1.data.cancelled = false) :
    found.cancelled = false ∧ ∃ report s₁ s₂,
      host.run (Compilation.ofTrees (parsed disk found).data
        settings.analysis.effectiveSemanticModel) signal s₁ = (report, s₂) ∧
      analyze machine settings host disk found signal s =
        (⟨report, foundErrors disk found ++ report.failures.map fun f => .detection f.toError⟩,
          s₂) := by
  cases hfound : found.cancelled with
  | true =>
    rw [analyze, hfound] at hdone
    cases hdone
  | false =>
    simp only [analyze, hfound, Bool.false_eq_true, if_false] at hdone ⊢
    cases hstop : (signal.poll (parseFiles disk signal (machine.order found.files.length) s
        found.files).2).1 with
    | true =>
      rw [hstop] at hdone
      cases hdone
    | false =>
      rw [parseFiles_eq hlasting machine disk found s hstop]
      exact ⟨trivial, _, _, _, rfl, rfl⟩

end Pipeline

namespace Scan

/-- A configured pattern that is a glob and not nested too deeply. -/
def accepts (pattern : String) : Bool :=
  (overrideRule pattern).toOption.any fun rule => !rule.glob.isTooDeep

theorem accepts_iff {pattern : String} :
    accepts pattern = true ↔
      ∃ rule, overrideRule pattern = .ok rule ∧ rule.glob.isTooDeep = false := by
  unfold accepts
  cases overrideRule pattern <;> simp [Except.toOption]

theorem accepts_defaultIgnores : ∀ pattern ∈ defaultIgnores, accepts pattern = true := by
  decide +kernel

/-- Reading patterns one by one gives shallow rules exactly when each of them is accepted. -/
theorem exists_rules_iff (patterns : List String) :
    (∃ rules, patterns.mapM overrideRule = .ok rules ∧ rules.any (·.glob.isTooDeep) = false) ↔
      ∀ pattern ∈ patterns, accepts pattern = true := by
  induction patterns with
  | nil => exact ⟨fun _ => by simp, fun _ => ⟨[], rfl, rfl⟩⟩
  | cons pattern rest ih =>
    rw [List.forall_mem_cons, ← ih, accepts_iff]
    simp only [List.mapM_cons, bind_eq_ok_iff, pure, Except.pure, Except.ok.injEq]
    constructor
    · rintro ⟨-, ⟨rule, hrule, rules, hrules, rfl⟩, hshallow⟩
      simp only [List.any_cons, Bool.or_eq_false_iff] at hshallow
      exact ⟨⟨rule, hrule, hshallow.1⟩, rules, hrules, hshallow.2⟩
    · rintro ⟨⟨rule, hrule, hfirst⟩, rules, hrules, hothers⟩
      refine ⟨rule :: rules, ⟨rule, hrule, rules, hrules, rfl⟩, ?_⟩
      rw [List.any_cons, hfirst, hothers, Bool.or_false]

theorem exists_overrideRules_iff (s : ScanSettings) :
    (∃ rules, overrideRules s = .ok rules) ↔
      ∀ pattern ∈ s.extraIgnore, accepts pattern = true := by
  have hall : (∀ pattern ∈ defaultIgnores ++ s.extraIgnore, accepts pattern = true) ↔
      ∀ pattern ∈ s.extraIgnore, accepts pattern = true := by
    rw [List.forall_mem_append, and_iff_right accepts_defaultIgnores]
  rw [← hall, ← exists_rules_iff]
  simp only [overrideRules, bind_eq_ok_iff]
  constructor
  · rintro ⟨out, rules, hrules, hout⟩
    split_ifs at hout with hdeep
    exact ⟨rules, hrules, by simpa using hdeep⟩
  · rintro ⟨rules, hrules, hshallow⟩
    exact ⟨rules, rules, hrules, by simp [hshallow]⟩

end Scan

/-- A pool of threads is asked for and cannot be started. -/
def Machine.Refuses (m : Machine) (s : AnalysisSettings) : Prop :=
  s.effectiveParallel = true ∧ 0 < s.effectiveThreads ∧
    ∃ message, m.startThreads s.effectiveThreads = .error message

theorem Machine.setUp_eq_ok_iff {m : Machine} {s : AnalysisSettings} :
    m.setUp s = .ok () ↔ ¬ m.Refuses s := by
  unfold setUp Refuses
  cases s.effectiveParallel with
  | false => simp
  | true =>
    by_cases hthreads : 0 < s.effectiveThreads
    · simp only [Bool.true_and, hthreads, decide_true, if_true, mapError_eq_ok_iff]
      cases m.startThreads s.effectiveThreads <;> simp
    · simp [hthreads]

namespace Pipeline

variable {σ : Type} {signal : Signal σ} {disk : Disk} {root : String} {settings : Settings}
  {machine : Machine} {s : σ}

theorem scan_eq_ok_iff {scan : ScanSettings} {out : Discovery × σ} :
    disk.scan scan root signal s = .ok out ↔ disk.isThere root = true ∧
      ∃ rules, Scan.overrideRules scan = .ok rules ∧
        out = ((Discovery.collect scan.effectiveMaxFileSize root signal s
            (disk.walk scan rules root)).1.sorted,
          (Discovery.collect scan.effectiveMaxFileSize root signal s
            (disk.walk scan rules root)).2) := by
  unfold Disk.scan
  cases disk.isThere root with
  | false => simp
  | true => simp [bind_eq_ok_iff, eq_comm (a := out)]

theorem runOn_eq_ok_iff {out : Collected Report × σ} :
    runOn machine settings disk root signal s = .ok out ↔
      settings.validate = .ok () ∧ machine.setUp settings.analysis = .ok () ∧
        ∃ host found s₁, Host.ofSettings settings = .ok host ∧
          disk.scan settings.scan root signal s = .ok (found, s₁) ∧
          out = analyze machine settings host disk found signal s₁ := by
  simp only [runOn, bind_eq_ok_iff, mapError_eq_ok_iff, Except.ok.injEq, Prod.exists]
  constructor
  · rintro ⟨⟨⟩, hvalid, host, hhost, ⟨⟩, hpool, found, s₁, hscan, rfl⟩
    exact ⟨hvalid, hpool, host, found, s₁, hhost, hscan, rfl⟩
  · rintro ⟨hvalid, hpool, host, found, s₁, hhost, hscan, rfl⟩
    exact ⟨(), hvalid, host, hhost, (), hpool, found, s₁, hscan, rfl⟩

theorem exists_runOn_iff :
    (∃ out, runOn machine settings disk root signal s = .ok out) ↔
      settings.validate = .ok () ∧ disk.isThere root = true ∧
        (∀ pattern ∈ settings.scan.extraIgnore, Scan.accepts pattern = true) ∧
        ¬ machine.Refuses settings.analysis := by
  simp only [runOn_eq_ok_iff, scan_eq_ok_iff, Machine.setUp_eq_ok_iff,
    ← Scan.exists_overrideRules_iff]
  constructor
  · rintro ⟨out, hvalid, hpool, host, found, s₁, -, ⟨hroot, rules, hrules, -⟩, -⟩
    exact ⟨hvalid, hroot, ⟨rules, hrules⟩, hpool⟩
  · rintro ⟨hvalid, hroot, ⟨rules, hrules⟩, hpool⟩
    -- Valid settings always give a host.
    obtain ⟨host, hhost, -⟩ := (Settings.validate_eq_ok_iff.mp hvalid).follows
    exact ⟨_, hvalid, hpool, host, _, _, hhost, ⟨hroot, rules, hrules, rfl⟩, rfl⟩

/-- The result of a run against the fates of the entries that were walked. -/
structure Accounted (fates : List Fate) (trees : List SourceTree) (result : Collected Report) :
    Prop where
  trees : trees.Perm (fates.filterMap Fate.tree?)
  errors : result.errors.Perm
    (fates.filterMap Fate.error? ++ result.data.failures.map fun f => .detection f.toError)
  filesAnalyzed : result.data.filesAnalyzed = fates.countP Fate.isAnalyzed
  errorCount : result.errorCount = fates.countP Fate.isUnseen + fates.countP Fate.isOversized +
    fates.countP Fate.isUnusable + result.data.failures.length

theorem accounted_of_perm {fates : List Fate} {trees : List SourceTree}
    {errors : List PipelineError} {report : Report}
    (htrees : trees.Perm (fates.filterMap Fate.tree?))
    (herrors : errors.Perm (fates.filterMap Fate.error?))
    (hfiles : report.filesAnalyzed = trees.length) :
    Accounted fates trees
      ⟨report, errors ++ report.failures.map fun f => .detection f.toError⟩ where
  trees := htrees
  errors := herrors.append_right _
  filesAnalyzed := by rw [hfiles, htrees.length_eq, Fate.length_filterMap_tree?]
  errorCount := by
    rw [Collected.errorCount, List.length_append, List.length_map, herrors.length_eq,
      Fate.length_filterMap_error?]

theorem runOn_eq_error_iff :
    (∃ e, runOn machine settings disk root signal s = .error e) ↔
      settings.validate ≠ .ok () ∨ disk.isThere root = false ∨
        (∃ pattern ∈ settings.scan.extraIgnore, Scan.accepts pattern = false) ∨
        machine.Refuses settings.analysis := by
  have hfails : (∃ e, runOn machine settings disk root signal s = .error e) ↔
      ¬ ∃ out, runOn machine settings disk root signal s = .ok out := by
    cases runOn machine settings disk root signal s <;> simp
  rw [hfails, exists_runOn_iff]
  simp only [not_and_or, not_forall, not_not, Bool.not_eq_true, exists_prop]

/-- An analysis that was not cancelled accounts for every entry of the walk. -/
theorem analyze_accounts (hlasting : signal.Lasting) {host : Host} {max : Nat}
    {entries : List WalkEntry} {found : Discovery} {s₁ s' : σ} {result : Collected Report}
    (hfound : found = (Discovery.collect max root signal s entries).1.sorted)
    (hout : analyze machine settings host disk found signal s₁ = (result, s'))
    (hdone : result.data.cancelled = false) :
    ∃ trees s₂,
      host.run (Compilation.ofTrees trees settings.analysis.effectiveSemanticModel) signal s₂ =
        (result.data, s') ∧
      Accounted (entries.map (·.fate disk max root)) trees result := by
  have hcancelled : (analyze machine settings host disk found signal s₁).1.data.cancelled = false :=
    hout.symm ▸ hdone
  obtain ⟨hseen, report, s₂, s₃, hreport, hanalyze⟩ :=
    analyze_eq hlasting machine settings host disk found s₁ hcancelled
  obtain ⟨rfl, rfl⟩ := Prod.mk.inj (hout.symm.trans hanalyze)
  subst hfound
  obtain ⟨htrees, herrors⟩ := collect_accounts disk entries s hseen
  have hfiles := congrArg (fun out => out.1.filesAnalyzed) hreport
  exact ⟨_, s₂, hreport, accounted_of_perm ((trees_sorted disk _).trans (.of_eq htrees))
    ((foundErrors_sorted disk _).trans herrors) hfiles.symm⟩

/-- A run fails exactly when its settings are not valid, its root is missing, a configured pattern
is refused or threads cannot be started. When it does not fail and was not cancelled, its report is
about the trees of all usable source files, and there is one error for every other one. -/
theorem runOn_accounts (machine : Machine) (settings : Settings) (disk : Disk) (root : String)
    (signal : Signal σ) (hlasting : signal.Lasting) (s : σ) :
    ((∃ e, runOn machine settings disk root signal s = .error e) ↔
      settings.validate ≠ .ok () ∨ disk.isThere root = false ∨
        (∃ pattern ∈ settings.scan.extraIgnore, Scan.accepts pattern = false) ∨
        machine.Refuses settings.analysis) ∧
    ∀ result s', runOn machine settings disk root signal s = .ok (result, s') →
      result.data.cancelled = false →
      ∃ rules host trees s₁, Scan.overrideRules settings.scan = .ok rules ∧
        Host.ofSettings settings = .ok host ∧
        host.run (Compilation.ofTrees trees settings.analysis.effectiveSemanticModel) signal s₁ =
          (result.data, s') ∧
        Accounted ((disk.walk settings.scan rules root).map
          (·.fate disk settings.scan.effectiveMaxFileSize root)) trees result := by
  refine ⟨runOn_eq_error_iff, ?_⟩
  intro result s' hrun hdone
  obtain ⟨-, -, host, found, s₁, hhost, hscan, hout⟩ := runOn_eq_ok_iff.mp hrun
  obtain ⟨-, rules, hrules, hfound⟩ := scan_eq_ok_iff.mp hscan
  obtain ⟨trees, s₂, hreport, haccounted⟩ :=
    analyze_accounts hlasting (Prod.mk.inj hfound).1 hout.symm hdone
  exact ⟨rules, host, trees, s₂, hrules, hhost, hreport, haccounted⟩

/-- A signal that says yes after a number of questions, and stays with it. -/
def countdown : Signal Nat where
  poll
    | 0 => (true, 0)
    | n + 1 => (false, n)
  request _ := 0

/-- A machine that takes up the last file first. -/
def backwards : Machine where
  startThreads _ := .ok ()
  order count := (List.range count).reverse
  order_perm _ := List.reverse_perm _

/-- What an empty file is parsed to. -/
def blankRoot : Node := ⟨"compilation_unit", 0, 0, none, true, false, false, []⟩

def blankTree (relative : String) : SourceTree :=
  Lowering.sourceTree (SourceText.ofBytes relative .empty) blankRoot

def mixedEntries : List WalkEntry :=
  [.other, .failure "broken link", .file "/w/A.cs" "A.cs" (.ok 3),
    .file "/w/Big.cs" "Big.cs" (.ok 11), .file "/w/notes.md" "notes.md" (.ok 3),
    .file "/w/C.cs" "C.cs" (.ok 0), .file "/w/D.cs" "D.cs" (.ok 10)]

/-- Three source files of which one cannot be read, one that is too large, and a broken link. -/
def mixedDisk : Disk where
  isThere _ := true
  walk _ _ _ := mixedEntries
  read path := if path = "/w/C.cs" then .error "gone" else .ok ⟨.empty, some blankRoot⟩

/-- Files of at most ten bytes, two threads, and one more pattern that is left out. -/
def smallFiles (ignored : String) : Settings where
  scan := ⟨some 10, [ignored], none, none⟩
  analysis := ⟨some true, some 2, none⟩
  patterns := .unset
  output := .unset

/-- Files without declarations leave nothing to do, so that a signal is asked only once. -/
theorem run_blankTrees (host : Host) (relatives : List String) (semantic : Bool) (n : Nat) :
    let report := (host.run (.ofTrees (relatives.map blankTree) semantic) countdown (n + 1)).1
    report.cancelled = false ∧ report.failures = [] := by
  have hblank : ∀ relative, (blankTree relative).types = [] := by
    intro relative
    rw [blankTree, Lowering.sourceTree, Lowering.types, blankRoot, Lowering.typesIn]
  have hitems : workItems (.ofTrees (relatives.map blankTree) semantic) host.subscribed = [] := by
    simp [workItems, Compilation.ofTrees, hblank]
  simp [Host.run, hitems, Host.pass, countdown]

private theorem run_mixedDisk {out : Collected Report × Nat}
    (hrun : runOn backwards (smallFiles "*.g.cs") mixedDisk "/w" countdown 20 = .ok out) :
    out.1.data.cancelled = false ∧ out.1.data.failures = [] := by
  obtain ⟨-, -, host, found, s₁, -, hscan, rfl⟩ := runOn_eq_ok_iff.mp hrun
  obtain ⟨-, rules, -, hfound⟩ := scan_eq_ok_iff.mp hscan
  -- The walk meets the files in the order of their paths, and so they stay in that order.
  have hsorted : (Discovery.collect 10 "/w" countdown 20 mixedEntries).1.files.Pairwise
      fun a b => decide (a.relative ≤ b.relative) = true := by
    decide +kernel
  rw [Discovery.sorted, List.mergeSort_of_pairwise (by exact hsorted)] at hfound
  cases hfound
  exact run_blankTrees host ["A.cs", "D.cs"] true 8

theorem runOn_accounts_mixed :
    (∃ result s', runOn backwards (smallFiles "*.g.cs") mixedDisk "/w" countdown 20 =
        .ok (result, s') ∧ result.data.cancelled = false ∧ result.data.filesAnalyzed = 2 ∧
        result.errorCount = 3) ∧
      ∃ e, runOn backwards (smallFiles "[") mixedDisk "/w" countdown 20 = .error e := by
  have hlasting : countdown.Lasting := by
    intro s hs
    cases s with
    | zero => rfl
    | succ n => cases hs
  constructor
  · obtain ⟨⟨result, s'⟩, hrun⟩ : ∃ out, runOn backwards (smallFiles "*.g.cs") mixedDisk "/w"
        countdown 20 = .ok out :=
      exists_runOn_iff.mpr ⟨by decide +kernel, rfl, by decide +kernel, fun hpool => by
        obtain ⟨-, -, message, hrefused⟩ := hpool
        cases hrefused⟩
    obtain ⟨hdone, hfailures⟩ := run_mixedDisk hrun
    obtain ⟨rules, host, trees, s₁, -, -, -, haccounted⟩ :=
      (runOn_accounts backwards (smallFiles "*.g.cs") mixedDisk "/w" countdown hlasting 20).2
        result s' hrun hdone
    refine ⟨result, s', hrun, hdone, haccounted.filesAnalyzed, ?_⟩
    rw [haccounted.errorCount, hfailures]
    rfl
  · refine (runOn_accounts backwards (smallFiles "[") mixedDisk "/w" countdown hlasting 20).1.mpr ?_
    exact .inr (.inr (.inl ⟨"[", List.mem_singleton_self _, by decide +kernel⟩))

end Pipeline

end PatternFinder
