import ComponentDocs.Proofs.Run.ParsedFiles
import ComponentDocs.Publication

/-! What a run comes to. Its stages, without the notices in between, are computations that may fail and do nothing
else. -/

namespace ComponentDocs

open Reporting (Gives Runs)

def tableComponents (table : Bindings RawText (SourceFile Kind)) : Except Failure (List Component) := do
  let found ← table.mapM fun (path, file) =>
    (file.components tsxCatalog (Path.nameAndFolder path).2).mapError Failure.malformed
  return found.flatten

namespace Config

def home (disk : Disk) (folder : Option RawText) : Except Failure RawText :=
  onDisk (if folder.getD [] = [] then disk.workingPath else disk.absolute (folder.getD []))

def statedEntries (disk : Disk) (folder : RawText) (manifest : Option Manifest) :
    Except Failure (Bindings LooseText Json) :=
  let path := Path.join folder "redefine.config.json"
  if disk.isFile path then readEntries disk path
  else
    match manifest.map Manifest.settings with
    | none => .ok []
    | some .null => .ok []
    | some (.object entries) => .ok entries
    | some _ => .error .badSettings

def loaded (disk : Disk) (folder : Option RawText) : Except Failure Config := do
  let home ← home disk folder
  unless disk.isFolder home do throw (.noBaseFolder home)
  let manifest ← loadManifest disk home
  let entries ← statedEntries disk home manifest
  build disk home entries manifest

def listing (frontend : Frontend) (disk : Disk) (config : Config) : Except Failure (List Component) := do
  let paths ← config.scan frontend disk
  let table := paths.foldl (frontend.afterFile disk) []
  let components ← tableComponents table
  return Component.relativeTo config.baseFolder (Component.sortByName components)

def outputPath (output : Option RawText) (config : Config) : Except Failure RawText :=
  if output.getD [] = [] then config.outputFolder.map (Path.join · "components.json") else .ok (output.getD [])

structure Built (disk : Disk) (home : RawText) (entries : Bindings LooseText Json) (manifest : Option Manifest)
    (config : Config) : Prop where
  base : ∃ path, disk.absolute (Path.join home path) = .ok config.baseFolder
  baseThere : disk.isFolder config.baseFolder = true
  docs : config.docsFolder = [] ∨
    ∃ path, disk.absolute (Path.join config.baseFolder path) = .ok config.docsFolder
  title : config.title = Json.key "title" entries ∨ config.title = .raw (Path.name config.baseFolder)
  libraryPath : config.libraryPath = (Json.key "libraryPath" entries).orEmpty
  libraryUrl : config.libraryUrl = (Json.key "libraryUrl" entries).orEmpty
  manifest : config.manifest = manifest
  configFolder : config.configFolder = home

theorem built_of_build {disk : Disk} {home : RawText} {entries : Bindings LooseText Json} {manifest : Option Manifest}
    {config : Config} (built : build disk home entries manifest = .ok config) :
    Built disk home entries manifest config := by
  rw [build] at built
  obtain ⟨path, -, built⟩ := ok_of_bind built
  obtain ⟨base, based, built⟩ := ok_of_bind built
  dsimp only at built
  split at built
  · rename_i baseThere
    obtain ⟨docsPath, -, built⟩ := ok_of_bind built
    split at built
    all_goals
      obtain ⟨docsFolder, placed, built⟩ := ok_of_bind built
      obtain ⟨includes, -, built⟩ := ok_of_bind built
      obtain ⟨excludes, -, built⟩ := ok_of_bind built
      cases built
      refine ⟨⟨path, ok_of_mapError based⟩, baseThere, ?_, ite_eq_or_eq _ _ _, rfl, rfl, rfl, rfl⟩
    · exact .inl (Except.ok.inj placed).symm
    · exact .inr ⟨docsPath, ok_of_mapError placed⟩
  · cases built

theorem entriesFor_gives (disk : Disk) (folder : RawText) (manifest : Option Manifest) :
    (entriesFor disk folder manifest).Gives (statedEntries disk folder manifest) := by
  rw [entriesFor, statedEntries]
  split
  · exact (Gives.report _).andThen (.lift _)
  · rcases manifest.map Manifest.settings with _ | settings
    · exact .pure []
    · cases settings
      case null => exact .pure []
      case object entries => exact (Gives.report _).andThen (.pure entries)
      all_goals exact (Gives.report _).andThen (.lift (.error .badSettings))

theorem load_gives (disk : Disk) (folder : Option RawText) : (load disk folder).Gives (loaded disk folder) := by
  apply (Gives.lift (home disk folder)).bind
  intro home
  dsimp only
  split
  · apply (Gives.lift (loadManifest disk home)).bind
    intro manifest
    apply (entriesFor_gives disk home manifest).bind
    intro entries
    exact .lift _
  · exact .lift (.error _)

theorem load_runs_iff {disk : Disk} {folder : Option RawText} {config : Config} {before after : List Notice} :
    (load disk folder).Runs before config after ↔
      ∃ home manifest entries, Config.home disk folder = .ok home ∧ disk.isFolder home = true ∧
        loadManifest disk home = .ok manifest ∧ (entriesFor disk home manifest).Runs before entries after ∧
        build disk home entries manifest = .ok config := by
  constructor
  · intro ran
    obtain ⟨home, _, lifted, ran⟩ := Runs.bind_iff.mp ran
    obtain ⟨named, rfl⟩ := Runs.lift_iff.mp lifted
    dsimp only at ran
    split at ran
    · rename_i there
      obtain ⟨manifest, _, lifted, ran⟩ := Runs.bind_iff.mp ran
      obtain ⟨read, rfl⟩ := Runs.lift_iff.mp lifted
      obtain ⟨entries, _, stated, ran⟩ := Runs.bind_iff.mp ran
      obtain ⟨built, rfl⟩ := Runs.lift_iff.mp ran
      exact ⟨home, manifest, entries, named, there, read, stated, built⟩
    · cases ran
  · rintro ⟨home, manifest, entries, named, there, read, stated, built⟩
    refine Runs.bind_iff.mpr ⟨home, _, Runs.lift_iff.mpr ⟨named, rfl⟩, ?_⟩
    dsimp only
    rw [if_pos there]
    refine Runs.bind_iff.mpr ⟨manifest, _, Runs.lift_iff.mpr ⟨read, rfl⟩, ?_⟩
    exact Runs.bind_iff.mpr ⟨entries, _, stated, Runs.lift_iff.mpr ⟨built, rfl⟩⟩

theorem stages_of_loaded {disk : Disk} {folder : Option RawText} {config : Config}
    (found : loaded disk folder = .ok config) :
    ∃ home manifest entries, Config.home disk folder = .ok home ∧ disk.isFolder home = true ∧
      loadManifest disk home = .ok manifest ∧ statedEntries disk home manifest = .ok entries ∧
      build disk home entries manifest = .ok config := by
  obtain ⟨home, named, found⟩ := ok_of_bind found
  dsimp only at found
  split at found
  · rename_i there
    obtain ⟨manifest, read, found⟩ := ok_of_bind found
    obtain ⟨entries, stated, built⟩ := ok_of_bind found
    exact ⟨home, manifest, entries, named, there, read, stated, built⟩
  · cases found

end Config

theorem componentsOfFiles_gives (table : Bindings RawText (SourceFile Kind)) :
    (componentsOfFiles tsxCatalog table).Gives (tableComponents table) := by
  apply Gives.bind (Gives.mapM fun entry => (Gives.report _).andThen (.lift _))
  intro found
  exact (Gives.report _).andThen ((Gives.report _).andThen (.pure found.flatten))

namespace Publication

variable {frontend : Frontend} {disk : Disk} {folder output : Option RawText} {publication : Publication}
  {before after : List Notice}

/-- What a preparation goes through, and the notices it has reported by then. -/
structure Stages (frontend : Frontend) (disk : Disk) (folder output : Option RawText) (publication : Publication)
    (before after : List Notice) where
  config : Config
  scanned : List RawText
  table : Bindings RawText (SourceFile Kind)
  components : List Component
  documented : List Component
  configured : List Notice
  parsed : List Notice
  loads : (Config.load disk folder).Runs before config configured
  scans : config.scan frontend disk = .ok scanned
  parses : (frontend.parseFiles disk scanned).Runs
    (configured ++ [.sourcesFound scanned.length config.baseFolder]) table parsed
  extracts : (componentsOfFiles tsxCatalog table).Runs parsed components after
  attaches : attachDocs disk config.docsFolder
    (Component.relativeTo config.baseFolder (Component.sortByName components)) = .ok documented
  composes : config.payload disk documented = .ok publication.document
  placed : config.outputPath output = .ok publication.path

theorem prepare_runs_iff : (prepare frontend disk folder output).Runs before publication after ↔
    Nonempty (Stages frontend disk folder output publication before after) := by
  have ends : ∀ (config : Config) (document : Json) (notices : List Notice),
      (do
        let path ← if output.getD [] = [] then (do return Path.join (← config.outputFolder) "components.json")
          else pure (output.getD [])
        return ⟨path, document⟩ : Reporting Publication).Runs notices publication after ↔
      document = publication.document ∧ config.outputPath output = .ok publication.path ∧ notices = after := by
    intro config document notices
    obtain ⟨path, found⟩ := publication
    rw [Config.outputPath]
    split
    · cases config.outputFolder with
      | error failure => exact ⟨nofun, fun both => nomatch both.2.1⟩
      | ok folder =>
        constructor
        · rintro ⟨⟩
          exact ⟨rfl, rfl, rfl⟩
        · rintro ⟨rfl, ⟨⟩, rfl⟩
          rfl
    · constructor
      · rintro ⟨⟩
        exact ⟨rfl, rfl, rfl⟩
      · rintro ⟨rfl, ⟨⟩, rfl⟩
        rfl
  constructor
  · intro ran
    obtain ⟨config, configured, loads, ran⟩ := Runs.bind_iff.mp ran
    obtain ⟨scanned, _, lifted, ran⟩ := Runs.bind_iff.mp ran
    obtain ⟨scans, rfl⟩ := Runs.lift_iff.mp lifted
    obtain ⟨_, _, reported, ran⟩ := Runs.bind_iff.mp ran
    obtain rfl := Runs.report_iff.mp reported
    obtain ⟨table, parsed, parses, ran⟩ := Runs.bind_iff.mp ran
    obtain ⟨components, _, extracts, ran⟩ := Runs.bind_iff.mp ran
    obtain ⟨documented, _, lifted, ran⟩ := Runs.bind_iff.mp ran
    obtain ⟨attaches, rfl⟩ := Runs.lift_iff.mp lifted
    obtain ⟨document, _, lifted, ran⟩ := Runs.bind_iff.mp ran
    obtain ⟨composes, rfl⟩ := Runs.lift_iff.mp lifted
    obtain ⟨rfl, placed, rfl⟩ := (ends config document _).mp ran
    exact ⟨⟨config, scanned, table, components, documented, configured, parsed, loads, scans, parses, extracts,
      attaches, composes, placed⟩⟩
  · rintro ⟨stages⟩
    refine Runs.bind_iff.mpr ⟨stages.config, _, stages.loads, ?_⟩
    refine Runs.bind_iff.mpr ⟨_, _, Runs.lift_iff.mpr ⟨stages.scans, rfl⟩, ?_⟩
    refine Runs.bind_iff.mpr ⟨(), _, Runs.report_iff.mpr rfl, ?_⟩
    refine Runs.bind_iff.mpr ⟨_, _, stages.parses, ?_⟩
    refine Runs.bind_iff.mpr ⟨_, _, stages.extracts, ?_⟩
    refine Runs.bind_iff.mpr ⟨_, _, Runs.lift_iff.mpr ⟨stages.attaches, rfl⟩, ?_⟩
    refine Runs.bind_iff.mpr ⟨_, _, Runs.lift_iff.mpr ⟨stages.composes, rfl⟩, ?_⟩
    exact (ends stages.config _ _).mpr ⟨rfl, stages.placed, rfl⟩

theorem Stages.loaded (stages : Stages frontend disk folder output publication before after) :
    Config.loaded disk folder = .ok stages.config := (Config.load_gives disk folder).eq_ok stages.loads

theorem Stages.load_result (stages : Stages frontend disk folder output publication before after) :
    (Config.load disk folder).result.1 = .ok stages.config :=
  (Config.load_gives disk folder).result.trans stages.loaded

end Publication

theorem Config.listing_of_runs {frontend : Frontend} {disk : Disk} {config : Config} {scanned : List RawText}
    {table : Bindings RawText (SourceFile Kind)} {components : List Component} {first second third fourth : List Notice}
    (scans : config.scan frontend disk = .ok scanned) (parses : (frontend.parseFiles disk scanned).Runs first table second)
    (extracts : (componentsOfFiles tsxCatalog table).Runs third components fourth) :
    config.listing frontend disk =
      .ok (Component.relativeTo config.baseFolder (Component.sortByName components)) := by
  have found := Except.ok.inj ((frontend.parseFiles_gives disk scanned).eq_ok parses)
  have extracted := (componentsOfFiles_gives table).eq_ok extracts
  rw [Config.listing, scans]
  dsimp only [bind, Except.bind]
  rw [found, extracted]
  rfl

theorem publish_of_runs {frontend : Frontend} {disk : Disk} {folder output : Option RawText} {publication : Publication}
    {notices : List Notice} (ran : (Publication.prepare frontend disk folder output).Runs [] publication notices)
    (printed : notices.all frontend.prints = true) :
    (publish frontend disk folder output).1.1 = ((publication.save disk).2 >>= fun _ =>
        if frontend.prints (.written publication.path) then .ok publication.path else .error .unencodable) ∧
      (publish frontend disk folder output).2 = (publication.save disk).1 := by
  rw [publish, Reporting.printed_eq_ok_iff.mpr ⟨ran, printed⟩]
  dsimp only
  rcases publication.save disk with ⟨store, failure | _⟩
  · exact ⟨rfl, rfl⟩
  · dsimp only [bind, Except.bind]
    split <;> exact ⟨rfl, rfl⟩

/-- A run fails before anything is saved, or prepares a publication and prints all notices about it. -/
theorem publish_cases (frontend : Frontend) (disk : Disk) (folder output : Option RawText) :
    (∃ failure, (publish frontend disk folder output).1.1 = .error failure ∧
        (publish frontend disk folder output).2 = disk.store) ∨
      ∃ publication notices, (Publication.prepare frontend disk folder output).Runs [] publication notices ∧
        notices.all frontend.prints = true := by
  rw [publish]
  rcases prepared : (Publication.prepare frontend disk folder output).printed frontend.prints with
    ⟨failure | publication, notices⟩
  · exact .inl ⟨failure, rfl, rfl⟩
  · exact .inr ⟨publication, notices, Reporting.printed_eq_ok_iff.mp prepared⟩

end ComponentDocs
