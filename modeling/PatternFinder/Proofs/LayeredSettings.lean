import PatternFinder.Config.Load
import PatternFinder.Proofs.KeyedEntries

/-! Settings from their four sources: each setting is that of the strongest source that gives one,
and a user file that cannot be read is like one that is absent. -/
namespace PatternFinder

/-- The first value that is given; the strongest source comes first. -/
def firstGiven {α : Type} (sources : List (Option α)) : Option α := sources.findSome? id

/-- The first list with something in it; the strongest source comes first. -/
def firstFilled {α : Type} (sources : List (List α)) : List α :=
  (sources.find? fun source => !source.isEmpty).getD []

@[simp] theorem firstGiven_nil {α : Type} : firstGiven ([] : List (Option α)) = none := rfl

@[simp] theorem firstGiven_cons {α : Type} (source : Option α) (rest : List (Option α)) :
    firstGiven (source :: rest) = source.or (firstGiven rest) := by
  cases source <;> rfl

@[simp] theorem firstFilled_nil {α : Type} : firstFilled ([] : List (List α)) = [] := rfl

@[simp] theorem firstFilled_cons (source : List String) (rest : List (List String)) :
    firstFilled (source :: rest) = Settings.strongerList (firstFilled rest) source := by
  cases source <;> rfl

@[simp] theorem Settings.strongerList_nil (names : List String) :
    strongerList [] names = names := by
  cases names <;> rfl

/-- The same files but for one. -/
def FileStore.without (files : FileStore) (path : String) : FileStore :=
  fun other => if other = path then none else files other

namespace Settings

/-- A file that is there and can be read gives these settings. -/
def GivenBy (files : FileStore) (path : String) (s : Settings) : Prop :=
  ∃ bytes text, files path = some (.ok bytes) ∧ String.fromUTF8? bytes = some text ∧
    ofText? text = some s

/-- Something is there that cannot be read: its bytes are refused, or they are no text. -/
inductive Unreadable (files : FileStore) (path : String) : Prop
  | refused {reason : String} (hfile : files path = some (.error reason)) : Unreadable files path
  | noText {bytes : ByteArray} (hfile : files path = some (.ok bytes))
      (htext : String.fromUTF8? bytes = none) : Unreadable files path

/-- What the user's file gives. -/
inductive UserGives (files : FileStore) (env : Environment) : Settings → Prop
  | file {path : String} {s : Settings} (hpath : userPath? env = some path)
      (hfile : GivenBy files path s) : UserGives files env s
  | absent (hfile : (userPath? env).bind files = none) : UserGives files env unset
  | unreadable {path : String} (hpath : userPath? env = some path)
      (hfile : Unreadable files path) : UserGives files env unset

/-- What the project's file gives. -/
inductive ProjectGives (files : FileStore) (root : String) : Settings → Prop
  | file {s : Settings} (hfile : GivenBy files (projectPath root) s) : ProjectGives files root s
  | absent (hfile : files (projectPath root) = none) : ProjectGives files root unset

/-- Every setting is taken from the command line, the environment, the project's file and the user's
file, in this order and as far as the source can give it. Severity overrides are taken key by key,
and an empty list of patterns counts on the command line only. -/
structure ResolvedFrom (s : Settings) (cli : Option CliOverrides) (env : Environment)
    (project user : Settings) : Prop where
  maxFileSize : s.scan.maxFileSize = firstGiven [cli.bind (·.maxFileSize),
    (env.lookup "INSPECTOR_SCAN_MAX_FILE_SIZE").bind (Text.readNat? UInt64.size),
    project.scan.maxFileSize, user.scan.maxFileSize]
  extraIgnore : s.scan.extraIgnore = firstFilled [project.scan.extraIgnore, user.scan.extraIgnore]
  followSymlinks : s.scan.followSymlinks =
    firstGiven [project.scan.followSymlinks, user.scan.followSymlinks]
  includeHidden : s.scan.includeHidden =
    firstGiven [project.scan.includeHidden, user.scan.includeHidden]
  parallel : s.analysis.parallel = firstGiven [cli.bind (·.parallel),
    (env.lookup "INSPECTOR_ANALYSIS_PARALLEL").bind readBool?,
    project.analysis.parallel, user.analysis.parallel]
  threads : s.analysis.threads = firstGiven [cli.bind (·.threads),
    (env.lookup "INSPECTOR_ANALYSIS_THREADS").bind (Text.readNat? UInt64.size),
    project.analysis.threads, user.analysis.threads]
  semanticModel : s.analysis.semanticModel =
    firstGiven [project.analysis.semanticModel, user.analysis.semanticModel]
  enabled : s.patterns.enabled = (cli.bind (·.enabled)).getD (firstFilled
    [((env.lookup "INSPECTOR_PATTERNS_ENABLED").map readNames).getD [],
      project.patterns.enabled, user.patterns.enabled])
  minSeverity : s.patterns.minSeverity =
    firstGiven [project.patterns.minSeverity, user.patterns.minSeverity]
  overrides : ∀ key, s.patterns.severityOverrides.lookup key =
    firstGiven [project.patterns.severityOverrides.lookup key,
      user.patterns.severityOverrides.lookup key]
  keys : KeysIncrease s.patterns.severityOverrides
  format : s.output.format = firstGiven [cli.bind (·.format),
    env.lookup "INSPECTOR_OUTPUT_FORMAT", project.output.format, user.output.format]
  includePartial : s.output.includePartial =
    firstGiven [project.output.includePartial, user.output.includePartial]
  color : s.output.color = firstGiven [project.output.color, user.output.color]

variable {files : FileStore} {root : String} {env : Environment} {cli : Option CliOverrides}
  {s t user project : Settings}

/-- The sources leave nothing open. -/
theorem ResolvedFrom.unique (hs : s.ResolvedFrom cli env project user)
    (ht : t.ResolvedFrom cli env project user) : s = t := by
  have hoverrides := hs.keys.eq_of_lookup ht.keys fun key =>
    (hs.overrides key).trans (ht.overrides key).symm
  ext1
  · exact ScanSettings.ext (hs.maxFileSize.trans ht.maxFileSize.symm)
      (hs.extraIgnore.trans ht.extraIgnore.symm) (hs.followSymlinks.trans ht.followSymlinks.symm)
      (hs.includeHidden.trans ht.includeHidden.symm)
  · exact AnalysisSettings.ext (hs.parallel.trans ht.parallel.symm)
      (hs.threads.trans ht.threads.symm) (hs.semanticModel.trans ht.semanticModel.symm)
  · exact PatternSettings.ext (hs.enabled.trans ht.enabled.symm)
      (hs.minSeverity.trans ht.minSeverity.symm) hoverrides
  · exact OutputSettings.ext (hs.format.trans ht.format.symm)
      (hs.includePartial.trans ht.includePartial.symm) (hs.color.trans ht.color.symm)

private theorem unset_merge (huser : KeysIncrease user.patterns.severityOverrides) :
    unset.merge user = user := by
  simp only [merge, unset, ScanSettings.unset, AnalysisSettings.unset, PatternSettings.unset,
    OutputSettings.unset, Option.or_none, huser.overlay_nil, strongerList_nil]

theorem resolvedFrom_layered (huser : KeysIncrease user.patterns.severityOverrides)
    (hproject : KeysIncrease project.patterns.severityOverrides) :
    (layered user project env cli).ResolvedFrom cli env project user := by
  have hlookup := hproject.lookup_overlay user.patterns.severityOverrides
  have hkeys := huser.overlay project.patterns.severityOverrides
  unfold layered
  rw [unset_merge huser]
  cases cli with
  | none =>
    constructor <;> simp [applyEnvironment, merge, hlookup, hkeys]
  | some overrides =>
    constructor <;> simp [applyCli, applyEnvironment, merge, hlookup, hkeys]

theorem parse_eq_ok_iff {path text : String} : parse path text = .ok s ↔ ofText? text = some s := by
  unfold parse
  cases ofText? text <;> simp

theorem givenBy_iff {path : String} {content : Except String ByteArray}
    (hfile : files path = some content) : GivenBy files path s ↔ ofFile path content = .ok s := by
  unfold GivenBy ofFile
  cases content with
  | error reason => simp [hfile, storedText?, Except.toOption]
  | ok bytes =>
    cases htext : String.fromUTF8? bytes with
    | none => simp [hfile, storedText?, Except.toOption, htext]
    | some text => simp [hfile, storedText?, Except.toOption, htext, parse_eq_ok_iff]

theorem unreadable_iff {path : String} {content : Except String ByteArray}
    (hfile : files path = some content) : Unreadable files path ↔ storedText? content = none := by
  constructor
  · rintro (hrefused | ⟨hbytes, htext⟩)
    · cases hfile.symm.trans hrefused
      rfl
    · cases hfile.symm.trans hbytes
      exact htext
  · intro htext
    cases content with
    | error reason => exact .refused hfile
    | ok bytes => exact .noText hfile htext

theorem projectLayer_eq_ok_iff : projectLayer files root = .ok s ↔ ProjectGives files root s := by
  unfold projectLayer
  cases hfile : files (projectPath root) with
  | none =>
    constructor
    · rintro ⟨⟩
      exact .absent hfile
    · rintro (⟨bytes, text, hbytes, -⟩ | _)
      · cases hfile.symm.trans hbytes
      · rfl
  | some content =>
    dsimp only
    rw [← givenBy_iff hfile]
    constructor
    · exact .file
    · rintro (hgiven | habsent)
      · exact hgiven
      · cases hfile.symm.trans habsent

/-- A user file without a text is passed over. -/
theorem userLayer_of_file {path : String} {content : Except String ByteArray}
    (hpath : userPath? env = some path) (hfile : files path = some content) :
    userLayer files env = (storedText? content).elim (.ok unset) (parse path) := by
  simp only [userLayer, hpath, Option.bind_some, hfile, Option.map_some, ofFile]
  cases storedText? content with
  | none => rfl
  | some text =>
    dsimp only [Option.elim_some]
    unfold parse
    cases ofText? text <;> rfl

theorem userLayer_of_unreadable {path : String} (hpath : userPath? env = some path)
    (h : Unreadable files path) : userLayer files env = .ok unset := by
  obtain ⟨content, hfile⟩ : ∃ content, files path = some content := by
    cases h with
    | refused hfile => exact ⟨_, hfile⟩
    | noText hfile => exact ⟨_, hfile⟩
  rw [userLayer_of_file hpath hfile, (unreadable_iff hfile).mp h, Option.elim_none]

theorem userLayer_of_absent (hfile : (userPath? env).bind files = none) :
    userLayer files env = .ok unset := by
  have hnothing : ((userPath? env).bind fun path => (files path).map (path, ·)) = none := by
    cases hpath : userPath? env with
    | none => rfl
    | some path =>
      rw [hpath, Option.bind_some] at hfile
      rw [Option.bind_some, hfile, Option.map_none]
  unfold userLayer
  rw [hnothing]

theorem userLayer_eq_ok_iff : userLayer files env = .ok s ↔ UserGives files env s := by
  constructor
  · intro h
    cases hfound : (userPath? env).bind files with
    | none =>
      cases (userLayer_of_absent hfound).symm.trans h
      exact .absent hfound
    | some content =>
      obtain ⟨path, hpath, hfile⟩ := Option.bind_eq_some_iff.mp hfound
      rw [userLayer_of_file hpath hfile] at h
      cases htext : storedText? content with
      | none =>
        rw [htext] at h
        cases h
        exact .unreadable hpath ((unreadable_iff hfile).mpr htext)
      | some text =>
        rw [htext] at h
        have hs : ofFile path content = .ok s := by rwa [ofFile, htext]
        exact .file hpath ((givenBy_iff hfile).mpr hs)
  · rintro (⟨hpath, bytes, text, hfile, htext, hs⟩ | hfound | ⟨hpath, hfile⟩)
    · have htext : storedText? (.ok bytes) = some text := htext
      rw [userLayer_of_file hpath hfile, htext]
      exact parse_eq_ok_iff.mpr hs
    · exact userLayer_of_absent hfound
    · exact userLayer_of_unreadable hpath hfile

theorem GivenBy.keysIncrease {path : String} (h : GivenBy files path s) :
    KeysIncrease s.patterns.severityOverrides := by
  obtain ⟨bytes, text, -, -, hs⟩ := h
  exact keysIncrease_of_ofText? hs

theorem UserGives.keysIncrease (h : UserGives files env s) :
    KeysIncrease s.patterns.severityOverrides := by
  cases h with
  | file _ hfile => exact hfile.keysIncrease
  | absent | unreadable => exact List.Pairwise.nil

theorem ProjectGives.keysIncrease (h : ProjectGives files root s) :
    KeysIncrease s.patterns.severityOverrides := by
  cases h with
  | file hfile => exact hfile.keysIncrease
  | absent => exact List.Pairwise.nil

/-- Loading succeeds with exactly those settings that the sources resolve to and that are valid. -/
theorem load_eq_ok_iff : load files root env cli = .ok s ↔ s.validate = .ok () ∧
    ∃ user project, UserGives files env user ∧ ProjectGives files root project ∧
      s.ResolvedFrom cli env project user := by
  unfold load
  simp only [bind_eq_ok_iff, userLayer_eq_ok_iff, projectLayer_eq_ok_iff, Except.ok.injEq]
  constructor
  · rintro ⟨user, huser, project, hproject, ⟨⟩, hvalid, rfl⟩
    exact ⟨hvalid, user, project, huser, hproject,
      resolvedFrom_layered huser.keysIncrease hproject.keysIncrease⟩
  · rintro ⟨hvalid, user, project, huser, hproject, hs⟩
    have heq := hs.unique (resolvedFrom_layered huser.keysIncrease hproject.keysIncrease)
    exact ⟨user, huser, project, hproject, (), heq ▸ hvalid, heq.symm⟩

theorem exists_toList_entryPath (directory name : String) :
    ∃ lead, (entryPath directory name).toList = lead ++ name.toList := by
  unfold entryPath
  split_ifs
  · exact ⟨directory.toList, String.toList_append⟩
  · exact ⟨(directory ++ "/").toList, String.toList_append⟩

/-- The two files never share a place. -/
theorem projectPath_ne_userPath {path : String} (hpath : userPath? env = some path) :
    projectPath root ≠ path := by
  obtain ⟨home, -, rfl⟩ := Option.map_eq_some_iff.mp hpath
  obtain ⟨lead, hlead⟩ := exists_toList_entryPath root "inspector.toml"
  obtain ⟨lead', hlead'⟩ := exists_toList_entryPath (entryPath home ".inspector") "config.toml"
  intro heq
  -- The names differ in the letter before the extension.
  have hend := congrArg (fun text : String => text.toList.reverse.take 6) heq
  simp only [projectPath, hlead, hlead', List.reverse_append] at hend
  rw [List.take_append_of_le_length (by decide), List.take_append_of_le_length (by decide)] at hend
  exact absurd hend (by decide)

/-- A user file that cannot be read is like one that is absent. -/
theorem load_of_unreadable {path : String} (hpath : userPath? env = some path)
    (h : Unreadable files path) :
    load files root env cli = load (files.without path) root env cli := by
  have habsent : userLayer (files.without path) env = .ok unset :=
    userLayer_of_absent (by rw [hpath, Option.bind_some, FileStore.without, if_pos rfl])
  have hproject : projectLayer (files.without path) root = projectLayer files root := by
    unfold projectLayer
    rw [FileStore.without, if_neg (projectPath_ne_userPath hpath)]
  unfold load
  rw [userLayer_of_unreadable hpath h, habsent, hproject]

/-- Loading gives the settings that the sources resolve to if these are valid, and nothing else. A
user file that cannot be read changes nothing. -/
theorem load_resolves (files : FileStore) (root : String) (env : Environment)
    (cli : Option CliOverrides) :
    (∀ s, load files root env cli = .ok s ↔ s.validate = .ok () ∧
      ∃ user project, UserGives files env user ∧ ProjectGives files root project ∧
        s.ResolvedFrom cli env project user) ∧
    ∀ path, userPath? env = some path → Unreadable files path →
      load files root env cli = load (files.without path) root env cli :=
  ⟨fun _ => load_eq_ok_iff, fun _ => load_of_unreadable⟩

/-- A user file that is closed to the reader, and a project file with two numbers. -/
def storedFiles : FileStore
  | "/home/me/.inspector/config.toml" => some (.error "permission denied")
  | "/work/inspector.toml" =>
    some (.ok "[analysis]\nthreads = 4\n[scan]\nmax_file_size = 7\n".toUTF8)
  | _ => none

/-- One variable that cannot be read as a number, one that can, and a list of names. -/
def storedEnvironment : Environment :=
  [("HOME", "/home/me"), ("INSPECTOR_ANALYSIS_THREADS", "many"),
    ("INSPECTOR_SCAN_MAX_FILE_SIZE", "+9"), ("INSPECTOR_PATTERNS_ENABLED", "decorator, ,")]

theorem load_resolves_unreadable :
    ∃ s, load storedFiles "/work" storedEnvironment
        (some ⟨none, none, none, some [], none⟩) = .ok s ∧
      load (storedFiles.without "/home/me/.inspector/config.toml") "/work" storedEnvironment
        (some ⟨none, none, none, some [], none⟩) = .ok s ∧
      s.validate = .ok () ∧
      s.analysis.threads = some 4 ∧ s.scan.maxFileSize = some 9 ∧ s.patterns.enabled = [] := by
  obtain ⟨hresolves, hunreadable⟩ := load_resolves storedFiles "/work" storedEnvironment
    (some ⟨none, none, none, some [], none⟩)
  have hload : load storedFiles "/work" storedEnvironment (some ⟨none, none, none, some [], none⟩) =
      .ok ⟨⟨some 9, [], none, none⟩, ⟨none, some 4, none⟩, ⟨[], none, []⟩, ⟨none, none, none⟩⟩ := by
    decide +kernel
  refine ⟨_, hload, ?_, ((hresolves _).mp hload).1, rfl, rfl, rfl⟩
  rw [← hunreadable "/home/me/.inspector/config.toml" (by decide) (.refused rfl)]
  exact hload

end Settings

end PatternFinder
