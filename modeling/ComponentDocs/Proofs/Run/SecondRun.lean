import ComponentDocs.Proofs.Run.Rereading

namespace ComponentDocs

open ComponentDocs.Path (Spells)
open Reporting (Runs)

/-- The places that a run with a configuration reads. -/
inductive Config.Reads (frontend : Frontend) (disk : Disk) (config : Config) : Place → Prop where
  | settings {name : RawText} {place : Place} (known : name = "package.json" ∨ name = "redefine.config.json")
      (leads : disk.follow (Path.join config.configFolder name) = .ok place) : Reads frontend disk config place
  | ignored {place : Place} (leads : disk.follow (Path.join config.baseFolder ".gitignore") = .ok place) :
      Reads frontend disk config place
  | source {scanned : List RawText} {path : RawText} {location : Location}
      (scans : config.scan frontend disk = .ok scanned) (member : path ∈ scanned)
      (spelt : (Disk.spelt path).mapM Name.ofText = .ok location) : Reads frontend disk config ⟨location, 0⟩
  | libraryDocs {place : Place} (given : config.docsFolder ≠ [])
      (leads : disk.follow (Path.join config.docsFolder "index.md") = .ok place) : Reads frontend disk config place
  | componentDocs {listed : List Component} {component : Component} {place : Place} (given : config.docsFolder ≠ [])
      (lists : config.listing frontend disk = .ok listed) (member : component ∈ listed)
      (leads : disk.follow (component.docsPath config.docsFolder) = .ok place) : Reads frontend disk config place

theorem Config.spells_home {disk : Disk} {folder : Option RawText} {home : RawText}
    (named : Config.home disk folder = .ok home) : ∃ segments, Spells home segments := by
  have found := ok_of_mapError named
  split at found
  · rw [Disk.workingPath] at found
    split at found
    · cases found
      exact ⟨_, Store.spells_pathOf _⟩
    · cases found
  · exact Disk.spells_absolute found

def Config.picks (included excluded ignored : RawText → Bool) (path : RawText) : Bool :=
  included path && !(excluded path || ignored path)

theorem Config.scan_eq {frontend : Frontend} {disk : Disk} {config : Config} {segments : List RawText}
    (spells : Spells config.baseFolder segments) :
    config.scan frontend disk = do
      let included ← frontend.matcher config.includes
      let excluded ← frontend.matcher config.excludes
      let ignored ← ignoredBy frontend disk config.baseFolder
      let chosen := (relativePaths disk config.baseFolder).filter (Config.picks included excluded ignored)
      return (chosen.map fun path => Path.normalize (Path.join config.baseFolder path)).mergeSort fun a b =>
        decide (a ≤ b) := by
  have each : ∀ path, onDisk (disk.absolute (Path.join config.baseFolder path)) =
      .ok (Path.normalize (Path.join config.baseFolder path)) := by
    intro path
    rw [disk.absolute_of_isAbsolute (Path.isAbsolute_join_of_isAbsolute path spells.isAbsolute)]
    rfl
  rw [Config.scan]
  simp only [mapM_eq_ok_map fun path _ => each path]
  rfl

theorem Store.mem_of_find? {location : Location} {entry : Entry} {entries : List (Location × Entry)}
    (found : Store.find? location entries = some entry) : (location, entry) ∈ entries := by
  induction entries with
  | nil => cases found
  | cons first rest ih =>
    obtain ⟨place, content⟩ := first
    rw [Store.find?] at found
    split at found
    · rename_i same
      cases found
      rw [same]
      exact List.mem_cons_self
    · exact List.mem_cons_of_mem _ (ih found)

theorem Store.get?_ne_none_of_mem {store : Store} {location : Location} {entry : Entry}
    (listed : (location, entry) ∈ store.entries) : store.get? location ≠ none := by
  rw [Store.get?]
  split
  · simp
  · exact fun missing => Store.not_listed_of_find? missing _ listed rfl

theorem Store.mem_filesBelow_of_get? {store : Store} {base rest : Location} {bytes : Utf8.Bytes}
    (nonempty : rest ≠ []) (found : store.get? (base ++ rest) = some (.file bytes)) :
    (rest, bytes) ∈ store.filesBelow base := by
  rw [Store.get?, if_neg (by simp [nonempty])] at found
  refine List.mem_filterMap.mpr ⟨_, Store.mem_of_find? found, ?_⟩
  have inside : (base.isPrefixOf (base ++ rest) && base ++ rest != base) = true := by
    simp [nonempty]
  simp [inside]

section Base

variable {frontend : Frontend} {disk : Disk} {base : RawText} {segments : List RawText} {location : Location}

theorem Disk.FolderAt.relativePaths (folder : disk.FolderAt base segments location) :
    relativePaths disk base =
      (disk.store.filesBelow location).map fun file => Text.joinWith slash (file.1.map Name.text) := by
  rw [ComponentDocs.relativePaths, if_pos folder.there, folder.found.1]

theorem Config.spells_of_scan {config : Config} (folder : disk.FolderAt config.baseFolder segments location)
    {scanned : List RawText} {path : RawText} (scans : config.scan frontend disk = .ok scanned)
    (member : path ∈ scanned) : ∃ segments names, Spells path segments ∧ segments.mapM Name.ofText = .ok names ∧
      disk.store.get? names ≠ none := by
  rw [Config.scan_eq folder.spells] at scans
  obtain ⟨included, -, scans⟩ := ok_of_bind scans
  obtain ⟨excluded, -, scans⟩ := ok_of_bind scans
  obtain ⟨ignored, -, scans⟩ := ok_of_bind scans
  cases scans
  obtain ⟨relative, chosen, rfl⟩ := List.mem_map.mp (List.mem_mergeSort.mp member)
  have listed := (List.mem_filter.mp chosen).1
  rw [folder.relativePaths] at listed
  obtain ⟨file, below, rfl⟩ := List.mem_map.mp listed
  obtain ⟨nonempty, there⟩ := Store.mem_filesBelow below
  obtain ⟨spells, spelt⟩ := folder.join_names nonempty
  rw [spells.normalize]
  exact ⟨_, _, spells, spelt, Store.get?_ne_none_of_mem there⟩

end Base

theorem Frontend.parseFiles_congr {frontend : Frontend} {disk other : Disk} {paths : List RawText}
    (each : ∀ path ∈ paths, frontend.parseFile disk path = frontend.parseFile other path) :
    frontend.parseFiles disk paths = frontend.parseFiles other paths := by
  have folded : ∀ table, paths.foldlM (frontend.addParsed disk) table = paths.foldlM (frontend.addParsed other) table := by
    induction paths with
    | nil => exact fun table => rfl
    | cons first rest ih =>
      have later := ih fun path member => each path (List.mem_cons_of_mem _ member)
      intro table
      rw [List.foldlM_cons, List.foldlM_cons, Frontend.addParsed, Frontend.addParsed, each first List.mem_cons_self]
      exact bind_congr later
  rw [Frontend.parseFiles, Frontend.parseFiles, folded]

section Second

variable {frontend : Frontend} {before after : Disk} {target : Location} (sound : before.Sound)
  (written : before.WrittenAt after target)

include written

theorem Disk.WrittenAt.absolute (path : RawText) : after.absolute path = before.absolute path := by
  rw [Disk.absolute, Disk.absolute, Disk.workingPath, Disk.workingPath, written.working]

theorem Disk.WrittenAt.home (folder : Option RawText) : Config.home after folder = Config.home before folder := by
  rw [Config.home, Config.home, Disk.workingPath, Disk.workingPath, written.working, written.absolute]

theorem Disk.WrittenAt.folderAt {path : RawText} {segments : List RawText} {location : Location}
    (folder : before.FolderAt path segments location) : after.FolderAt path segments location :=
  ⟨folder.spells, folder.spelt, written.isFolder folder.there⟩

theorem Disk.WrittenAt.build {home : RawText} {entries : Bindings LooseText Json} {manifest : Option Manifest}
    {config : Config} (built : Config.build before home entries manifest = .ok config) :
    Config.build after home entries manifest = .ok config := by
  rw [Config.build] at built ⊢
  obtain ⟨path, given, built⟩ := ok_of_bind built
  obtain ⟨base, based, built⟩ := ok_of_bind built
  dsimp only at built
  split at built
  · rename_i there
    simp only [written.absolute, given, bind, Except.bind, based, written.isFolder there, if_true]
    exact built
  · cases built

section Base

variable {base : RawText} {segments : List RawText} {location : Location}
  (folder : before.FolderAt base segments location)

include folder

theorem Disk.WrittenAt.ignoredBy (apart : after.follow (Path.join base ".gitignore") ≠ .ok ⟨target, 0⟩)
    (noFolder : after.isFolder (Path.join base ".gitignore") = false) :
    ignoredBy frontend after base = ignoredBy frontend before base := by
  obtain ⟨name, named⟩ : ∃ name, Name.ofText ".gitignore" = .ok name := ⟨_, rfl⟩
  have leads := folder.follow_join (by decide) named
  have leads' := written.follow leads
  have elsewhere : location ++ [name] ≠ target := by
    rintro rfl
    exact apart leads'
  have located : after.locate (Path.join base ".gitignore") = before.locate (Path.join base ".gitignore") := by
    rw [Disk.locate, Disk.locate, leads, leads']
  have found : ∀ place, before.locate (Path.join base ".gitignore") = .ok place →
      place.lookup after.store = place.lookup before.store := by
    intro place computed
    rw [Disk.locate] at computed
    split at computed
    · cases computed
    · rename_i fits
      rw [leads] at computed
      cases computed
      rcases written.elsewhere _ elsewhere with same | ⟨-, made⟩
      · exact same
      · have there := Disk.isFolder_iff.mpr ⟨fits, _, leads', made⟩
        cases there.symm.trans noFolder
  obtain ⟨contains, read⟩ := Disk.reads_congr located found
  rw [ComponentDocs.ignoredBy, ComponentDocs.ignoredBy, Config.readText, Config.readText, contains, read]

theorem Disk.WrittenAt.filter_relativePaths {picks : RawText → Bool}
    (unpicked : ∀ rest : Location, location ++ rest = target →
      picks (Text.joinWith slash (rest.map Name.text)) = false) :
    (relativePaths after base).filter picks = (relativePaths before base).filter picks := by
  let path (file : Location × Utf8.Bytes) : RawText := Text.joinWith slash (file.1.map Name.text)
  have split : ∀ files : List (Location × Utf8.Bytes), files.filter (picks ∘ path) =
      (files.filter fun file => location ++ file.1 ≠ target).filter (picks ∘ path) := by
    intro files
    rw [List.filter_filter]
    apply List.filter_congr
    intro file _
    by_cases here : location ++ file.1 = target
    · simp [here, path, unpicked file.1 here]
    · simp [here]
  rw [folder.relativePaths, (written.folderAt folder).relativePaths, List.filter_map, List.filter_map]
  exact congrArg (List.map path) (by rw [split, written.files, ← split])

theorem Disk.WrittenAt.unpicked {rest : Location} {picks : RawText → Bool}
    (apart : ∀ path ∈ (relativePaths after base).filter picks,
      (Disk.spelt (Path.normalize (Path.join base path))).mapM Name.ofText ≠ .ok target)
    (here : location ++ rest = target) : picks (Text.joinWith slash (rest.map Name.text)) = false := by
  by_contra picked
  obtain ⟨bytes, file⟩ := written.written
  have nonempty : rest ≠ [] := by
    rintro rfl
    rw [List.append_nil] at here
    rw [← here] at file
    cases file.symm.trans (written.folder folder.found.2.2)
  obtain ⟨spells, spelt⟩ := folder.join_names nonempty
  rw [← here] at file
  have listed : Text.joinWith slash (rest.map Name.text) ∈ relativePaths after base := by
    rw [(written.folderAt folder).relativePaths]
    exact List.mem_map.mpr ⟨_, Store.mem_filesBelow_of_get? nonempty file, rfl⟩
  apply apart _ (List.mem_filter.mpr ⟨listed, Bool.eq_true_of_not_eq_false picked⟩)
  rw [spells.normalize, spells.spelt, spelt, here]

end Base

theorem Disk.WrittenAt.scan {config : Config} {segments : List RawText} {location : Location}
    (folder : before.FolderAt config.baseFolder segments location)
    (ignored : ComponentDocs.ignoredBy frontend after config.baseFolder =
      ComponentDocs.ignoredBy frontend before config.baseFolder)
    (apart : ∀ scanned path, config.scan frontend after = .ok scanned → path ∈ scanned →
      (Disk.spelt path).mapM Name.ofText ≠ .ok target) :
    config.scan frontend after = config.scan frontend before := by
  rw [Config.scan_eq folder.spells, ignored] at apart ⊢
  rw [Config.scan_eq folder.spells]
  revert apart
  cases frontend.matcher config.includes with
  | error failure => exact fun _ => rfl
  | ok included =>
    cases frontend.matcher config.excludes with
    | error failure => exact fun _ => rfl
    | ok excluded =>
      cases ComponentDocs.ignoredBy frontend before config.baseFolder with
      | error failure => exact fun _ => rfl
      | ok ignored =>
        intro apart
        have elsewhere : ∀ path ∈ (relativePaths after config.baseFolder).filter (Config.picks included excluded ignored),
            (Disk.spelt (Path.normalize (Path.join config.baseFolder path))).mapM Name.ofText ≠ .ok target := by
          intro path member
          exact apart _ _ rfl (List.mem_mergeSort.mpr (List.mem_map_of_mem member))
        have same := written.filter_relativePaths folder fun _ => written.unpicked folder elsewhere
        simp only [bind, Except.bind, same]

include sound

theorem Disk.WrittenAt.readsAlike {path : RawText} {segments : List RawText} (spells : Spells path segments)
    (apart : after.follow path ≠ .ok ⟨target, 0⟩) : before.ReadsAlike after path :=
  written.read_iff sound spells.isAbsolute (before.climbsFromOld_of_no_dots after .root spells.no_dots) apart

theorem Disk.WrittenAt.loadManifest {home : RawText} {segments : List RawText} (spells : Spells home segments)
    (apart : after.follow (Path.join home "package.json") ≠ .ok ⟨target, 0⟩) :
    Config.loadManifest after home = Config.loadManifest before home := by
  have alike := written.readsAlike sound (spells.join_segment (by decide)) apart
  rw [Config.loadManifest, Config.loadManifest]
  simp only [alike.isFile]
  split
  · rename_i there
    rw [alike.readEntries there]
  · rfl

theorem Disk.WrittenAt.entriesFor {home : RawText} {segments : List RawText} (spells : Spells home segments)
    (apart : after.follow (Path.join home "redefine.config.json") ≠ .ok ⟨target, 0⟩) (manifest : Option Manifest) :
    Config.entriesFor after home manifest = Config.entriesFor before home manifest := by
  have alike := written.readsAlike sound (spells.join_segment (by decide)) apart
  rw [Config.entriesFor, Config.entriesFor]
  simp only [alike.isFile]
  split
  · rename_i there
    rw [alike.readEntries there]
  · rfl

theorem Disk.WrittenAt.loads {folder : Option RawText} {config : Config} {first last : List Notice}
    (loads : (Config.load before folder).Runs first config last)
    (apart : ∀ name : RawText, name = "package.json" ∨ name = "redefine.config.json" →
      after.follow (Path.join config.configFolder name) ≠ .ok ⟨target, 0⟩) :
    (Config.load after folder).Runs first config last := by
  obtain ⟨home, manifest, entries, named, there, read, stated, built⟩ := Config.load_runs_iff.mp loads
  obtain ⟨segments, spells⟩ := Config.spells_home named
  rw [(Config.built_of_build built).configFolder] at apart
  refine Config.load_runs_iff.mpr ⟨home, manifest, entries, ?_, written.isFolder there, ?_, ?_, written.build built⟩
  · rw [written.home, named]
  · rw [written.loadManifest sound spells (apart _ (.inl rfl)), read]
  · rw [written.entriesFor sound spells (apart _ (.inr rfl))]
    exact stated

theorem Disk.WrittenAt.parseFiles {config : Config} {segments : List RawText} {location : Location}
    (folder : before.FolderAt config.baseFolder segments location) {scanned : List RawText}
    (scans : config.scan frontend before = .ok scanned)
    (apart : ∀ path ∈ scanned, (Disk.spelt path).mapM Name.ofText ≠ .ok target) :
    frontend.parseFiles after scanned = frontend.parseFiles before scanned := by
  apply Frontend.parseFiles_congr
  intro path member
  obtain ⟨segments, names, spells, spelt, present⟩ := Config.spells_of_scan folder scans member
  have elsewhere : names ≠ target := by
    rintro rfl
    apply apart path member
    rw [spells.spelt, spelt]
  have same := written.read_of_present sound spells spelt present elsewhere
  simp only [Frontend.parseFile, Frontend.readSource, same]

theorem Disk.WrittenAt.attachDocs {docsFolder : RawText} {listed : List Component}
    (spells : docsFolder ≠ [] → ∃ segments, Spells docsFolder segments)
    (climbs : docsFolder ≠ [] → ∀ component ∈ listed,
      before.climbsFromOld after .root (Disk.segments (component.docsPath docsFolder)) = true)
    (apart : docsFolder ≠ [] → ∀ component ∈ listed,
      after.follow (component.docsPath docsFolder) ≠ .ok ⟨target, 0⟩) :
    attachDocs after docsFolder listed = attachDocs before docsFolder listed := by
  rw [ComponentDocs.attachDocs, ComponentDocs.attachDocs]
  split
  · rfl
  · rename_i given
    apply mapM_congr
    intro component member
    obtain ⟨segments, spellsDocs⟩ := spells given
    have rooted : Path.isAbsolute (component.docsPath docsFolder) = true :=
      Path.isAbsolute_join_of_isAbsolute _ (Path.isAbsolute_join_of_isAbsolute _ spellsDocs.isAbsolute)
    have alike : before.ReadsAlike after (component.docsPath docsFolder) :=
      written.read_iff sound rooted (climbs given component member) (apart given component member)
    exact (alike.withDocs rfl).symm

theorem Disk.WrittenAt.libraryDocs {docsFolder : RawText}
    (spells : docsFolder ≠ [] → ∃ segments, Spells docsFolder segments)
    (apart : docsFolder ≠ [] → after.follow (Path.join docsFolder "index.md") ≠ .ok ⟨target, 0⟩) :
    libraryDocs after docsFolder = libraryDocs before docsFolder := by
  by_cases given : docsFolder = []
  · rw [ComponentDocs.libraryDocs, ComponentDocs.libraryDocs, if_neg fun both => both.1 given,
      if_neg fun both => both.1 given]
  · obtain ⟨segments, spellsDocs⟩ := spells given
    have alike := written.readsAlike sound (spellsDocs.join_segment (by decide)) (apart given)
    exact (alike.libraryDocs rfl).symm

end Second

end ComponentDocs
