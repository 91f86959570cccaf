import ComponentDocs.Command.Run
import ComponentDocs.Proofs.Json.Proper
import ComponentDocs.Proofs.Run.Outcome
import ComponentDocs.Proofs.Run.Saving
import ComponentDocs.Proofs.Run.SumOfFiles

/-! A run touches no file but its output, and none at all if it fails, unless the document has something in it that
cannot be encoded or the last notice cannot be printed. -/

namespace ComponentDocs

open Reporting (Runs)

def Disk.readsProper (disk : Disk) (path : RawText) : Bool :=
  match Config.readEntries disk path with
  | .ok entries => Json.entriesProper entries
  | .error _ => true

theorem Disk.entriesProper_of_readEntries {disk : Disk} {path : RawText} {entries : Bindings LooseText Json}
    (proper : disk.readsProper path = true) (read : Config.readEntries disk path = .ok entries) :
    Json.entriesProper entries = true := by
  rw [Disk.readsProper, read] at proper
  exact proper

namespace Config

structure IsProper (config : Config) : Prop where
  title : config.title.isProper = true
  libraryPath : config.libraryPath.isProper = true
  libraryUrl : config.libraryUrl.isProper = true
  manifest : ∀ manifest ∈ config.manifest, manifest.IsProper

variable {disk : Disk} {home : RawText}

theorem isProper_of_loadManifest {manifest : Option Manifest}
    (proper : disk.readsProper (Path.join home "package.json") = true)
    (loaded : loadManifest disk home = .ok manifest) : ∀ found ∈ manifest, found.IsProper := by
  rw [loadManifest] at loaded
  split at loaded
  · obtain ⟨entries, read, loaded⟩ := ok_of_bind loaded
    cases loaded
    rintro _ ⟨⟩
    exact Manifest.isProper_ofEntries (Disk.entriesProper_of_readEntries proper read)
  · cases loaded
    rintro _ ⟨⟩

theorem entriesProper_of_statedEntries {manifest : Option Manifest} {entries : Bindings LooseText Json}
    (proper : disk.readsProper (Path.join home "redefine.config.json") = true)
    (properManifest : ∀ found ∈ manifest, found.IsProper)
    (stated : statedEntries disk home manifest = .ok entries) : Json.entriesProper entries = true := by
  rw [statedEntries] at stated
  split at stated
  · exact Disk.entriesProper_of_readEntries proper stated
  · cases manifest with
    | none =>
      cases stated
      rfl
    | some manifest =>
      have settings := (properManifest manifest rfl).settings
      dsimp only [Option.map_some] at stated
      generalize manifest.settings = given at stated settings
      cases given
      case null =>
        cases stated
        rfl
      case object found =>
        cases stated
        exact settings
      all_goals cases stated

theorem isProper_of_build {config : Config} {entries : Bindings LooseText Json} {manifest : Option Manifest}
    (proper : Json.entriesProper entries = true) (properManifest : ∀ found ∈ manifest, found.IsProper)
    (title : config.title.isProper = true) (built : build disk home entries manifest = .ok config) :
    config.IsProper := by
  have parts := built_of_build built
  refine ⟨title, ?_, ?_, ?_⟩
  · rw [parts.libraryPath]
    exact Json.isProper_field proper _
  · rw [parts.libraryUrl]
    exact Json.isProper_field proper _
  · rw [parts.manifest]
    exact properManifest

theorem IsProper.payload {config : Config} (proper : config.IsProper) {components : List Component} {document : Json}
    (encodable : ∀ component ∈ components, component.sourcePath.isProper = true)
    (composed : config.payload disk components = .ok document) : document.isProper = true := by
  have properManifest : (config.manifest.getD .empty).IsProper := by
    cases given : config.manifest with
    | none => exact Manifest.isProper_empty
    | some manifest => exact proper.manifest manifest given
  have properComponents : (componentsToJson components).isProper = true := by
    rw [isProper_componentsToJson]
    exact List.all_eq_true.mpr encodable
  rw [Config.payload] at composed
  obtain ⟨docs, -, composed⟩ := ok_of_bind composed
  cases composed
  simp [Json.isProper, Json.entriesProper, proper.title, proper.libraryPath, proper.libraryUrl, properManifest.version,
    properManifest.description, properManifest.homePage, properManifest.author, properManifest.license,
    properComponents]

/-- Nothing on the disk or in the notices keeps a run with a configuration from being completed: the title and the paths
of the sources can be encoded, and the path of the output can be printed. -/
structure Encodable (frontend : Frontend) (disk : Disk) (output : Option RawText) (config : Config) : Prop where
  title : config.title.isProper = true
  sources : ∀ listed, config.listing frontend disk = .ok listed →
    ∀ component ∈ listed, component.sourcePath.isProper = true
  told : ∀ path, config.outputPath output = .ok path → frontend.prints (.written path) = true

end Config

namespace Command

/-- The path that a command writes to if it comes to that. -/
def outputPath? (disk : Disk) : Command → Option RawText
  | .publish folder output => ((Config.load disk folder).result.1 >>= Config.outputPath output).toOption
  | _ => none

def jsonInputs (disk : Disk) : Command → List RawText
  | .publish folder _ =>
    match Config.home disk folder with
    | .ok home => [Path.join home "package.json", Path.join home "redefine.config.json"]
    | .error _ => []
  | _ => []

def Encodable (frontend : Frontend) (disk : Disk) : Command → Prop
  | .publish folder output =>
    ∀ config, (Config.load disk folder).result.1 = .ok config → config.Encodable frontend disk output
  | _ => True

end Command

variable {frontend : Frontend} {disk : Disk} {folder output : Option RawText} {publication : Publication}

namespace Publication.Stages

variable {before after : List Notice} (stages : Stages frontend disk folder output publication before after)

include stages

theorem outputPath? : (Command.publish folder output).outputPath? disk = some publication.path := by
  rw [Command.outputPath?, stages.load_result]
  exact congrArg Except.toOption stages.placed

theorem isWritable
    (inputs : ∀ path ∈ (Command.publish folder output).jsonInputs disk, disk.readsProper path = true)
    (encodable : stages.config.Encodable frontend disk output) : publication.document.isWritable = true := by
  obtain ⟨home, manifest, entries, named, -, read, stated, built⟩ := Config.stages_of_loaded stages.loaded
  rw [Command.jsonInputs, named] at inputs
  have properManifest := Config.isProper_of_loadManifest (inputs _ (by simp)) read
  have properEntries := Config.entriesProper_of_statedEntries (inputs _ (by simp)) properManifest stated
  have properConfig := Config.isProper_of_build properEntries properManifest encodable.title built
  have listing := Config.listing_of_runs stages.scans stages.parses stages.extracts
  rw [Json.isWritable_eq_isProper]
  refine properConfig.payload ?_ stages.composes
  intro component member
  obtain ⟨listed, present, docs, rfl⟩ := exists_left_of_forall₂ (docs_of_attachDocs stages.attaches) member
  exact encodable.sources _ listing listed present

end Publication.Stages

theorem Publication.save_keeps (disk : Disk) (publication : Publication) {location : Location}
    (elsewhere : ({ disk with store := (publication.save disk).1 } : Disk).locate publication.path ≠
      .ok ⟨location, 0⟩) : disk.store.KeepsAt (publication.save disk).1 location := by
  rcases publication.save_cases disk with ⟨failure, made, saved, grows⟩ | ⟨made, place, reaches, saved⟩
  · rw [saved]
    exact grows.keeps location
  · rw [saved] at elsewhere ⊢
    have apart : place.location ≠ location := by
      rintro rfl
      apply elsewhere
      rw [Disk.locate, reaches.fits]
      dsimp only
      rw [reaches.follow_put, ← reaches.not_lost]
    rw [Store.KeepsAt, reaches.get?_put, if_neg apart]
    exact reaches.grows.keeps location

theorem Publication.grows_of_save_error {failure : Failure} (writable : publication.document.isWritable = true)
    (failed : (publication.save disk).2 = .error failure) : disk.store.Grows (publication.save disk).1 := by
  rcases publication.save_cases disk with ⟨failure, made, saved, grows⟩ | ⟨made, place, reaches, saved⟩
  · rw [saved]
    exact grows
  · rw [saved, if_pos writable] at failed
    cases failed

theorem publish_keeps (frontend : Frontend) (disk : Disk) (folder output : Option RawText) {location : Location}
    (elsewhere : ∀ path ∈ (Command.publish folder output).outputPath? disk,
      ({ disk with store := (publish frontend disk folder output).2 } : Disk).locate path ≠ .ok ⟨location, 0⟩) :
    disk.store.KeepsAt (publish frontend disk folder output).2 location := by
  rcases publish_cases frontend disk folder output with ⟨failure, -, same⟩ | ⟨publication, notices, ran, printed⟩
  · rw [same]
    exact .inl rfl
  · obtain ⟨stages⟩ := Publication.prepare_runs_iff.mp ran
    rw [(publish_of_runs ran printed).2] at elsewhere ⊢
    exact publication.save_keeps disk (elsewhere _ stages.outputPath?)

theorem failed_publish_grows {failure : Failure}
    (inputs : ∀ path ∈ (Command.publish folder output).jsonInputs disk, disk.readsProper path = true)
    (encodable : (Command.publish folder output).Encodable frontend disk)
    (failed : (publish frontend disk folder output).1.1 = .error failure) :
    disk.store.Grows (publish frontend disk folder output).2 := by
  rcases publish_cases frontend disk folder output with ⟨_, -, same⟩ | ⟨publication, notices, ran, printed⟩
  · rw [same]
    exact .refl _
  · obtain ⟨stages⟩ := Publication.prepare_runs_iff.mp ran
    have encodes := encodable stages.config stages.load_result
    obtain ⟨result, saved⟩ := publish_of_runs ran printed
    rw [result] at failed
    rw [saved]
    cases outcome : (publication.save disk).2 with
    | error problem => exact Publication.grows_of_save_error (stages.isWritable inputs encodes) outcome
    | ok _ =>
      rw [outcome] at failed
      dsimp only [bind, Except.bind] at failed
      rw [if_pos (encodes.told publication.path stages.placed)] at failed
      cases failed

/-- A run touches no file but the one that its output path leads to. Where no JSON file has a lone surrogate and what is
published can be encoded, a run that ends with status 1 touches none. -/
theorem run_touches_only_output (frontend : Frontend) (disk : Disk) (edition : CommandLine.Edition)
    (words : List RawText) :
    (∀ location, (∀ path ∈ (Command.ofWords edition words).outputPath? disk,
        ({ disk with store := ((Command.ofWords edition words).run frontend disk).2 } : Disk).locate path ≠
          .ok ⟨location, 0⟩) →
      disk.store.KeepsAt ((Command.ofWords edition words).run frontend disk).2 location) ∧
    ((∀ path ∈ (Command.ofWords edition words).jsonInputs disk, disk.readsProper path = true) →
      (Command.ofWords edition words).Encodable frontend disk →
      ((Command.ofWords edition words).run frontend disk).1.code = 1 →
      ∀ location, disk.store.KeepsAt ((Command.ofWords edition words).run frontend disk).2 location) := by
  generalize Command.ofWords edition words = command
  cases command with
  | help => exact ⟨fun _ _ => .inl rfl, fun _ _ _ _ => .inl rfl⟩
  | misuse => exact ⟨fun _ _ => .inl rfl, fun _ _ _ _ => .inl rfl⟩
  | list path => exact ⟨fun _ _ => .inl rfl, fun _ _ _ _ => .inl rfl⟩
  | publish folder output =>
    rw [Command.run]
    cases startFolder disk folder with
    | error failure => exact ⟨fun _ _ => .inl rfl, fun _ _ _ _ => .inl rfl⟩
    | ok start =>
      dsimp only
      split
      · constructor
        · intro location elsewhere
          exact publish_keeps frontend disk folder output elsewhere
        · intro inputs encodable failed location
          dsimp only at failed ⊢
          cases result : (publish frontend disk folder output).1.1 with
          | ok path =>
            rw [result] at failed
            cases failed
          | error failure => exact (failed_publish_grows inputs encodable result).keeps location
      · exact ⟨fun _ _ => .inl rfl, fun _ _ _ _ => .inl rfl⟩

def slashWords : List RawText := ["extract", "lib", "--output", "lib/new/out.json/"]

theorem library_encodable (output : Option RawText) : libraryConfig.Encodable libraryFrontend libraryDisk output := by
  have listing : libraryConfig.listing libraryFrontend libraryDisk = .ok [libraryComponent "", libraryComponent ""] := by
    simp only [Config.listing, Config.scan, sortPaths_eq, Component.sortByName_eq]
    decide +kernel
  refine ⟨rfl, ?_, fun _ _ => rfl⟩
  intro listed found
  cases found.symm.trans listing
  decide

theorem library_touches_only_output :
    ((Command.ofWords .late slashWords).run libraryFrontend libraryDisk).1.code = 1 ∧
      ((Command.ofWords .late slashWords).run libraryFrontend libraryDisk).2.get? (.of "lib/new") =
        some .folder ∧
      (∀ location, libraryDisk.store.KeepsAt
        ((Command.ofWords .late slashWords).run libraryFrontend libraryDisk).2 location) ∧
      ((Command.ofWords .late ["extract", "lib"]).run libraryFrontend libraryDisk).1.code = 0 ∧
      libraryDisk.store.KeepsAt ((Command.ofWords .late ["extract", "lib"]).run libraryFrontend libraryDisk).2
        (.of "lib/a.tsx") := by
  have slash : Command.ofWords .late slashWords = .publish (some "lib") (some "lib/new/out.json/") := by decide +kernel
  have plain : Command.ofWords .late ["extract", "lib"] = .publish (some "lib") none := by decide +kernel
  have failed : ((Command.ofWords .late slashWords).run libraryFrontend libraryDisk).1.code = 1 ∧
      ((Command.ofWords .late slashWords).run libraryFrontend libraryDisk).2.get? (.of "lib/new") =
        some .folder := by
    rw [slash]
    simp only [Command.run, publish, Publication.prepare, Config.scan, sortPaths_eq, Component.sortByName_eq]
    decide +kernel
  have inputs : ∀ path ∈ (Command.ofWords .late slashWords).jsonInputs libraryDisk,
      libraryDisk.readsProper path = true := by
    rw [slash]
    decide +kernel
  have encodable : (Command.ofWords .late slashWords).Encodable libraryFrontend libraryDisk := by
    rw [slash]
    intro config loaded
    cases loaded.symm.trans libraryDisk_loaded
    exact library_encodable _
  have finished : ((Command.ofWords .late ["extract", "lib"]).run libraryFrontend libraryDisk).1.code = 0 ∧
      ∀ path ∈ (Command.ofWords .late ["extract", "lib"]).outputPath? libraryDisk,
        ({ libraryDisk with
          store := ((Command.ofWords .late ["extract", "lib"]).run libraryFrontend libraryDisk).2 } : Disk).locate path ≠
          .ok ⟨.of "lib/a.tsx", 0⟩ := by
    rw [plain]
    simp only [Command.run, publish, Publication.prepare, Config.scan, sortPaths_eq, Component.sortByName_eq]
    decide +kernel
  have untouched := (run_touches_only_output libraryFrontend libraryDisk .late slashWords).2 inputs encodable failed.1
  have kept := (run_touches_only_output libraryFrontend libraryDisk .late ["extract", "lib"]).1 _ finished.2
  exact ⟨failed.1, failed.2, untouched, finished.1, kept⟩

def stray : RawText := [.surrogate 0xDCFF]

/-- A folder with such a name, where a file has been published before; a library with a source in such a folder; and a
library without any source. -/
def strayDisk : Disk where
  store := ⟨[(.of stray, .folder), (.of (stray ++ "/components.json"), .file (Utf8.encode "old".toList)),
    (.of "lib", .folder), (.of ("lib/" ++ stray), .folder), (.of ("lib/" ++ stray ++ "/A.tsx"), .file functionSource),
    (.of "bare", .folder)]⟩
  working := .root

def strictFrontend : Frontend :=
  { libraryFrontend with prints := fun notice => (notice.text ⟨"0.00", "", "", "", ""⟩).isProper }

/-- The run ends with status 1, its JSON files have no lone surrogate, and yet a file is not as it was. -/
def Command.FailsHalfWay (frontend : Frontend) (disk : Disk) (command : Command) (location : Location) : Prop :=
  (∀ path ∈ command.jsonInputs disk, disk.readsProper path = true) ∧ (command.run frontend disk).1.code = 1 ∧
    ¬ disk.store.KeepsAt (command.run frontend disk).2 location

/-- A title or a source path that cannot be encoded ends a run while the file is written, and an output path that cannot
be printed ends it afterwards. -/
theorem failed_run_leaves_output :
    (Command.ofWords .late ["extract", stray]).FailsHalfWay libraryFrontend strayDisk
        (.of (stray ++ "/components.json")) ∧
      (Command.ofWords .late ["extract", "lib"]).FailsHalfWay libraryFrontend strayDisk (.of "lib/components.json") ∧
      (Command.ofWords .late ["extract", "bare", "--output", stray ++ ".json"]).FailsHalfWay strictFrontend strayDisk
        (.of (stray ++ ".json")) := by
  have titled : Command.ofWords .late ["extract", stray] = .publish (some stray) none := by decide +kernel
  have nested : Command.ofWords .late ["extract", "lib"] = .publish (some "lib") none := by decide +kernel
  have named : Command.ofWords .late ["extract", "bare", "--output", stray ++ ".json"] =
      .publish (some "bare") (some (stray ++ ".json")) := by decide +kernel
  rw [titled, nested, named]
  simp only [Command.FailsHalfWay, Store.KeepsAt, Command.run, publish, Publication.prepare, Config.scan, sortPaths_eq,
    Component.sortByName_eq]
  decide +kernel

end ComponentDocs
