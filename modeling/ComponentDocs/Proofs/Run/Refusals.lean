import ComponentDocs.Proofs.Run.Outcome
import ComponentDocs.Proofs.Run.SpeltPaths

namespace ComponentDocs

def Failure.isConfigProblem : Failure → Bool
  | .noBaseFolder _ => true
  | .unreadable _ => true
  | .notAnObject _ => true
  | .badPatternList _ => true
  | .badSettings => true
  | _ => false

theorem Failure.message_of_isConfigProblem (failure : Failure) (wording : Wording)
    (problem : failure.isConfigProblem = true) : (failure.message? wording).isSome = true := by
  cases failure
  all_goals first | rfl | cases problem

def Json.NamesPath (value : Json) : Prop := value.isGiven = true → ∃ path, value = .text path

theorem Json.texts?_ne_nil {value : Json} {found : List LooseText} (given : value.isGiven = true)
    (listed : value.texts? = some found) : found ≠ [] := by
  cases value with
  | array items =>
    cases items with
    | nil => cases given
    | cons first rest =>
      rw [Json.texts?, List.mapM_cons] at listed
      obtain ⟨text, -, listed⟩ := Option.bind_eq_some_iff.mp listed
      obtain ⟨texts, -, listed⟩ := Option.bind_eq_some_iff.mp listed
      cases listed
      exact List.cons_ne_nil _ _
  | _ => cases listed

namespace Config

/-- A path is stated by a value that names none: that of the base folder, or, if the base folder is there, that of the
documentation. -/
inductive MisstatesPath (disk : Disk) (home : RawText) (entries : Bindings LooseText Json) : Prop
  | base (wrong : ¬ (Json.key "baseFolder" entries).NamesPath)
  | docs {path : RawText} (based : pathAt entries "baseFolder" = .ok path)
      (there : disk.isFolder (Path.normalize (Path.join home path)) = true)
      (wrong : ¬ (Json.key "docsFolder" entries).NamesPath)

/-- What makes loading a configuration fail without a problem that a message tells: the working folder is needed but was
removed, or a path is misstated. -/
inductive Derails (disk : Disk) (folder : Option RawText) : Failure → Prop
  | lost (removed : disk.working.lost ≠ 0) (relative : Path.isAbsolute (folder.getD []) = false) :
      Derails disk folder (.disk .missing)
  | path {home : RawText} {manifest : Option Manifest} {entries : Bindings LooseText Json}
      (named : Config.home disk folder = .ok home) (there : disk.isFolder home = true)
      (described : loadManifest disk home = .ok manifest) (stated : statedEntries disk home manifest = .ok entries)
      (wrong : MisstatesPath disk home entries) : Derails disk folder .notAPath

variable {disk : Disk} {folder : Option RawText} {home : RawText} {entries : Bindings LooseText Json}
  {manifest : Option Manifest} {failure : Failure}

theorem refused_of_readEntries {path : RawText} (failed : readEntries disk path = .error failure) :
    failure.isConfigProblem = true := by
  rw [readEntries] at failed
  split at failed
  · cases failed
    rfl
  · split at failed
    · cases failed
      rfl
    · cases failed
    · cases failed
      rfl

theorem refused_of_loadManifest (failed : loadManifest disk home = .error failure) :
    failure.isConfigProblem = true := by
  rw [loadManifest] at failed
  split at failed
  · rcases error_of_bind failed with unread | ⟨entries, -, failed⟩
    · exact refused_of_readEntries unread
    · cases failed
  · cases failed

theorem refused_of_statedEntries (failed : statedEntries disk home manifest = .error failure) :
    failure.isConfigProblem = true := by
  rw [statedEntries] at failed
  split at failed
  · exact refused_of_readEntries failed
  · split at failed
    · cases failed
    · cases failed
    · cases failed
    · cases failed
      rfl

theorem refused_of_patternList {key : String} {default : List RawText}
    (failed : patternList entries key default = .error failure) : failure.isConfigProblem = true := by
  rw [patternList] at failed
  split at failed
  · split at failed
    · cases failed
    · cases failed
      rfl
  · cases failed

theorem ne_nil_of_patternList {key : String} {default patterns : List RawText} (nonempty : default ≠ [])
    (found : patternList entries key default = .ok patterns) : patterns ≠ [] := by
  rw [patternList] at found
  split at found
  · rename_i given
    split at found
    · rename_i texts listed
      cases found
      rw [ne_eq, List.map_eq_nil_iff]
      rintro rfl
      exact Json.texts?_ne_nil given listed rfl
    · cases found
  · cases found
    exact nonempty

theorem pathAt_of_namesPath {key : String} (names : (Json.key key entries).NamesPath) :
    ∃ path, pathAt entries key = .ok path := by
  rw [pathAt, Json.orEmpty]
  by_cases given : (Json.key key entries).isGiven = true
  · obtain ⟨path, text⟩ := names given
    rw [if_pos given, text]
    exact ⟨_, rfl⟩
  · rw [if_neg given]
    exact ⟨_, rfl⟩

theorem pathAt_of_not_namesPath {key : String} (wrong : ¬ (Json.key key entries).NamesPath) :
    pathAt entries key = .error .notAPath := by
  rw [Json.NamesPath, Classical.not_imp] at wrong
  obtain ⟨given, noText⟩ := wrong
  rw [pathAt, Json.orEmpty, if_pos given]
  cases value : Json.key key entries with
  | text path => exact absurd ⟨path, value⟩ noText
  | _ => rfl

theorem wrong_of_pathAt {key : String} (failed : pathAt entries key = .error failure) :
    failure = .notAPath ∧ ¬ (Json.key key entries).NamesPath := by
  have wrong : ¬ (Json.key key entries).NamesPath := by
    intro names
    obtain ⟨path, found⟩ := pathAt_of_namesPath names
    cases found.symm.trans failed
  rw [pathAt_of_not_namesPath wrong] at failed
  exact ⟨(Except.error.inj failed).symm, wrong⟩

theorem isAbsolute_workingPath {path : RawText} (found : disk.workingPath = .ok path) : Path.isAbsolute path = true := by
  rw [Disk.workingPath] at found
  split at found
  · cases found
    exact (Store.spells_pathOf _).isAbsolute
  · cases found

theorem isAbsolute_home (named : Config.home disk folder = .ok home) : Path.isAbsolute home = true := by
  rw [Config.home] at named
  have computed := ok_of_mapError named
  split at computed
  · exact isAbsolute_workingPath computed
  · obtain ⟨names, spells⟩ := Disk.spells_absolute computed
    exact spells.isAbsolute

theorem home_of_lost (removed : disk.working.lost ≠ 0) (relative : Path.isAbsolute (folder.getD []) = false) :
    Config.home disk folder = .error (.disk .missing) := by
  have gone : disk.workingPath = .error .missing := by rw [Disk.workingPath, if_neg removed]
  rw [Config.home, Disk.absolute, relative, gone]
  split <;> rfl

theorem derails_of_home (failed : Config.home disk folder = .error failure) : Derails disk folder failure := by
  by_cases removed : disk.working.lost = 0
  · have working : disk.workingPath = .ok (Store.pathOf disk.working.location) := if_pos removed
    rw [Config.home, Disk.absolute, working] at failed
    split at failed
    · cases failed
    · split at failed
      · cases failed
      · cases failed
  · cases relative : Path.isAbsolute (folder.getD []) with
    | false =>
      rw [home_of_lost removed relative] at failed
      cases failed
      exact .lost removed relative
    | true =>
      have named : folder.getD [] ≠ [] := by
        intro empty
        rw [empty] at relative
        cases relative
      rw [Config.home, if_neg named, disk.absolute_of_isAbsolute relative] at failed
      cases failed

theorem absolute_join (disk : Disk) {folder : RawText} (rooted : Path.isAbsolute folder = true) (path : RawText) :
    onDisk (disk.absolute (Path.join folder path)) = pure (Path.normalize (Path.join folder path)) := by
  rw [disk.absolute_of_isAbsolute (Path.isAbsolute_join_of_isAbsolute path rooted)]
  rfl

def completed (home : RawText) (entries : Bindings LooseText Json) (manifest : Option Manifest) (base docs : RawText) :
    Except Failure Config := do
  let includes ← patternList entries "includes" defaultIncludes
  let excludes ← patternList entries "excludes" defaultExcludes
  let title := Json.key "title" entries
  return {
    baseFolder := base
    includes := includes
    excludes := excludes
    docsFolder := if docs = [] then [] else Path.normalize (Path.join base docs)
    title := if title.isGiven then title else .raw (Path.name base)
    libraryPath := (Json.key "libraryPath" entries).orEmpty
    libraryUrl := (Json.key "libraryUrl" entries).orEmpty
    manifest := manifest
    configFolder := home }

theorem build_eq (entries : Bindings LooseText Json) (manifest : Option Manifest)
    (rooted : Path.isAbsolute home = true) :
    build disk home entries manifest = pathAt entries "baseFolder" >>= fun path =>
      let base := Path.normalize (Path.join home path)
      if disk.isFolder base then pathAt entries "docsFolder" >>= completed home entries manifest base
      else .error (.noBaseFolder base) := by
  rw [build]
  apply bind_congr
  intro path
  have base : Path.isAbsolute (Path.normalize (Path.join home path)) = true := by
    obtain ⟨names, spells⟩ := Path.spells_normalize (Path.isAbsolute_join_of_isAbsolute path rooted)
    exact spells.isAbsolute
  rw [absolute_join disk rooted path, pure_bind]
  dsimp only
  split
  · apply bind_congr
    intro docs
    rw [absolute_join disk base docs, pure_bind, pure_bind, completed]
    split <;> rfl
  · rfl

theorem refused_of_completed {base docs : RawText}
    (failed : completed home entries manifest base docs = .error failure) : failure.isConfigProblem = true := by
  rcases error_of_bind failed with listed | ⟨includes, -, failed⟩
  · exact refused_of_patternList listed
  · rcases error_of_bind failed with listed | ⟨excludes, -, failed⟩
    · exact refused_of_patternList listed
    · cases failed

theorem build_eq_error_iff (rooted : Path.isAbsolute home = true) (other : failure.isConfigProblem = false) :
    build disk home entries manifest = .error failure ↔ failure = .notAPath ∧ MisstatesPath disk home entries := by
  rw [build_eq entries manifest rooted]
  constructor
  · intro failed
    rcases error_of_bind failed with notAPath | ⟨path, based, failed⟩
    · obtain ⟨rfl, wrong⟩ := wrong_of_pathAt notAPath
      exact ⟨rfl, .base wrong⟩
    · dsimp only at failed
      split at failed
      · rename_i there
        rcases error_of_bind failed with notAPath | ⟨docs, -, failed⟩
        · obtain ⟨rfl, wrong⟩ := wrong_of_pathAt notAPath
          exact ⟨rfl, .docs based there wrong⟩
        · cases (refused_of_completed failed).symm.trans other
      · cases failed
        cases other
  · rintro ⟨rfl, wrong | ⟨based, there, wrong⟩⟩
    · rw [pathAt_of_not_namesPath wrong]
      rfl
    · rw [based]
      dsimp only [bind, Except.bind]
      rw [if_pos there, pathAt_of_not_namesPath wrong]

/-- What holds of a configuration that was built. -/
structure Sound (disk : Disk) (config : Config) : Prop where
  baseThere : disk.isFolder config.baseFolder = true
  includes : config.includes ≠ []
  excludes : config.excludes ≠ []

theorem sound_of_build (rooted : Path.isAbsolute home = true) {config : Config}
    (built : build disk home entries manifest = .ok config) : config.Sound disk := by
  rw [build_eq entries manifest rooted] at built
  obtain ⟨path, -, built⟩ := ok_of_bind built
  dsimp only at built
  split at built
  · rename_i there
    obtain ⟨docs, -, built⟩ := ok_of_bind built
    obtain ⟨includes, included, built⟩ := ok_of_bind built
    obtain ⟨excludes, excluded, built⟩ := ok_of_bind built
    cases built
    exact ⟨there, ne_nil_of_patternList (by decide) included, ne_nil_of_patternList (by decide) excluded⟩
  · cases built

theorem sound_of_loaded {config : Config} (found : loaded disk folder = .ok config) : config.Sound disk := by
  obtain ⟨home, manifest, entries, named, -, -, -, built⟩ := stages_of_loaded found
  exact sound_of_build (isAbsolute_home named) built

theorem loaded_eq_error_iff (other : failure.isConfigProblem = false) :
    loaded disk folder = .error failure ↔ Derails disk folder failure := by
  rw [loaded]
  constructor
  · intro failed
    rcases error_of_bind failed with unnamed | ⟨home, named, failed⟩
    · exact derails_of_home unnamed
    · dsimp only at failed
      split at failed
      · rename_i there
        rcases error_of_bind failed with unread | ⟨manifest, described, failed⟩
        · cases (refused_of_loadManifest unread).symm.trans other
        · rcases error_of_bind failed with unstated | ⟨entries, stated, failed⟩
          · cases (refused_of_statedEntries unstated).symm.trans other
          · obtain ⟨rfl, wrong⟩ := (build_eq_error_iff (isAbsolute_home named) other).mp failed
            exact .path named there described stated wrong
      · cases failed
        cases other
  · intro derails
    cases derails with
    | lost removed relative =>
      rw [home_of_lost removed relative]
      rfl
    | @path home manifest entries named there described stated wrong =>
      have failed : build disk home entries manifest = .error .notAPath :=
        (build_eq_error_iff (isAbsolute_home named) rfl).mpr ⟨rfl, wrong⟩
      rw [named]
      change (if disk.isFolder home = true then loadManifest disk home >>= _ else _) = _
      rw [if_pos there, described]
      change (statedEntries disk home manifest >>= _) = _
      rw [stated]
      exact failed

end Config

/-- Loading a configuration gives a sound one or tells what is wrong with it, but for two ways of failing without a word
about it. Objects nested too deeply to be read at all are left out here. -/
theorem config_refused_or_derailed (disk : Disk) (folder : Option RawText) :
    (∀ config, (Config.load disk folder).result.1 = .ok config → config.Sound disk) ∧
      (∀ failure, failure.isConfigProblem = false →
        ((Config.load disk folder).result.1 = .error failure ↔ Config.Derails disk folder failure)) ∧
      ∀ failure, (Config.load disk folder).result.1 = .error failure →
        Config.Derails disk folder failure ∨ ∀ wording, (failure.message? wording).isSome = true := by
  rw [(Config.load_gives disk folder).result]
  refine ⟨fun config found => Config.sound_of_loaded found, fun failure other => Config.loaded_eq_error_iff other, ?_⟩
  intro failure failed
  cases problem : failure.isConfigProblem with
  | false => exact .inl ((Config.loaded_eq_error_iff problem).mp failed)
  | true => exact .inr fun wording => failure.message_of_isConfigProblem wording problem

def configuredDisk (text : String) : Disk where
  store := ⟨[(.of "lib", .folder), (.of "lib/redefine.config.json", .file (Utf8.encode text.toList))]⟩
  working := .root

def patternsDisk : Disk := configuredDisk "\x7b\"includes\": [\"*.tsx\"]\x7d"

def numberedDisk : Disk := configuredDisk "\x7b\"baseFolder\": 1\x7d"

theorem numbered_base_derails :
    (Config.load numberedDisk (some "/lib")).result.1 = .error .notAPath ∧
      Failure.isConfigProblem .notAPath = false := by
  have failed : (Config.load numberedDisk (some "/lib")).result.1.map (fun _ => ()) = .error .notAPath := by
    decide +kernel
  exact ⟨error_of_map failed, rfl⟩

theorem stated_patterns_sound :
    ∃ config, (Config.load patternsDisk (some "/lib")).result.1 = .ok config ∧
      config.includes = (["*.tsx"] : List RawText) ∧ config.Sound patternsDisk ∧
      Config.Derails numberedDisk (some "/lib") .notAPath := by
  have listed : (Config.load patternsDisk (some "/lib")).result.1.map Config.includes = .ok ["*.tsx"] := by
    decide +kernel
  have failed : (Config.load numberedDisk (some "/lib")).result.1.map (fun _ => ()) = .error .notAPath := by
    decide +kernel
  obtain ⟨config, loaded, includes⟩ := ok_of_map listed
  refine ⟨config, loaded, includes, ?_, ?_⟩
  · exact (config_refused_or_derailed patternsDisk (some "/lib")).1 config loaded
  · exact ((config_refused_or_derailed numberedDisk (some "/lib")).2.1 .notAPath rfl).mp (error_of_map failed)

end ComponentDocs
