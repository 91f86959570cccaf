import ComponentDocs.Proofs.Run.Outcome
import ComponentDocs.Proofs.Run.SpeltPaths

/-! Reading again after a file was written. What is found at a path is the same as before, unless the path leads to the
new file or climbs out of a new folder. -/

namespace ComponentDocs

open ComponentDocs.Path (Descends Spells)
open Utf8 (Bytes)

def Disk.Sound (disk : Disk) : Prop :=
  ∀ location name, disk.store.get? (location ++ [name]) ≠ none → disk.store.get? location = some .folder

structure Disk.WrittenAt (before after : Disk) (target : Location) : Prop where
  working : after.working = before.working
  elsewhere : ∀ location, location ≠ target → before.store.KeepsAt after.store location
  written : ∃ bytes, after.store.get? target = some (.file bytes)
  free : before.store.get? target ≠ some .folder
  files : ∀ base, (after.store.filesBelow base).filter (fun file => base ++ file.1 ≠ target) =
    (before.store.filesBelow base).filter fun file => base ++ file.1 ≠ target

/-- Whether a walk goes up only from folders that were there before. A walk that ends early goes up no more. -/
def Disk.climbsFromOld (before after : Disk) (place : Place) : List RawText → Bool
  | [] => true
  | segment :: rest =>
    if place.lookup after.store = some .folder then
      (segment != [dot, dot] || (before.store.get? place.location).isSome) &&
        match place.toward segment with
        | .ok next => climbsFromOld before after next rest
        | .error _ => true
    else true

theorem Disk.climbsFromOld_of_no_dots (before after : Disk) (place : Place) {segments : List RawText}
    (straight : [dot, dot] ∉ segments) : before.climbsFromOld after place segments = true := by
  induction segments generalizing place with
  | nil => rfl
  | cons segment rest ih =>
    have notUp : segment ≠ [dot, dot] := fun up => straight (up ▸ List.mem_cons_self)
    rw [Disk.climbsFromOld]
    split
    · rw [bne_iff_ne.mpr notUp, Bool.true_or, Bool.true_and]
      split
      · exact ih _ fun later => straight (List.mem_cons_of_mem _ later)
      · rfl
    · rfl

theorem Disk.climbsFromOld_cons {before after : Disk} {place next : Place} {segment : RawText} {rest : List RawText}
    (climbs : before.climbsFromOld after place (segment :: rest) = true)
    (folder : place.lookup after.store = some .folder) (leads : place.toward segment = .ok next) :
    (segment = [dot, dot] → before.store.get? place.location ≠ none) ∧ before.climbsFromOld after next rest = true := by
  rw [Disk.climbsFromOld, if_pos folder, leads, Bool.and_eq_true, Bool.or_eq_true, bne_iff_ne] at climbs
  refine ⟨?_, climbs.2⟩
  intro up missing
  rw [missing] at climbs
  exact climbs.1.elim (fun notUp => notUp up) Bool.false_ne_true

theorem Place.toward_present {segment : RawText} {place next : Place} (present : place.lost = 0)
    (leads : place.toward segment = .ok next) : next.lost = 0 := by
  rw [Place.toward] at leads
  split at leads
  · cases leads
    exact present
  · split at leads
    · cases leads
      simp [Place.parent, present]
    · rw [Place.child, if_pos present] at leads
      obtain ⟨name, -, rfl⟩ := ok_of_map leads
      rfl

theorem Disk.read_eq_ok_iff {disk : Disk} {path : RawText} {bytes : Bytes} :
    disk.read path = .ok bytes ↔ Store.pathProblem? path = none ∧
      ∃ place, disk.follow path = .ok place ∧ place.lookup disk.store = some (.file bytes) := by
  rw [Disk.read, Disk.locate]
  cases Store.pathProblem? path with
  | some problem => simp [bind, Except.bind]
  | none =>
    cases disk.follow path with
    | error problem => simp [bind, Except.bind]
    | ok place =>
      rcases found : place.lookup disk.store with _ | _ | old <;>
        simp [bind, Except.bind, pure, Except.pure, throw, throwThe, MonadExceptOf.throw, found]

/-- Below a new folder there is nothing old, and a walk that does not climb out of it stays below. -/
theorem Disk.Sound.walk_missing {before after : Disk} (sound : before.Sound) {place last : Place}
    {segments : List RawText} (climbs : before.climbsFromOld after place segments = true)
    (followed : Disk.walk after.store place segments = .ok last)
    (missing : before.store.get? place.location = none) : before.store.get? last.location = none := by
  induction segments generalizing place with
  | nil =>
    cases followed
    exact missing
  | cons segment rest ih =>
    obtain ⟨folder, next, leads, later⟩ := Disk.walk_cons_iff.mp followed
    obtain ⟨upFromOld, climbsLater⟩ := Disk.climbsFromOld_cons climbs folder leads
    refine ih climbsLater later ?_
    by_cases stays : segment = [] ∨ segment = [dot]
    · rw [Place.toward, if_pos stays] at leads
      cases leads
      exact missing
    · by_cases up : segment = [dot, dot]
      · exact absurd missing (upFromOld up)
      · rw [Place.toward, if_neg stays, if_neg up, Place.child] at leads
        split at leads
        · obtain ⟨name, -, rfl⟩ := ok_of_map leads
          by_contra present
          cases missing.symm.trans (sound _ _ present)
        · cases leads

theorem Place.lookup_eq_file_iff {store : Store} {place : Place} {bytes : Bytes} :
    place.lookup store = some (.file bytes) ↔ place.lost = 0 ∧ store.get? place.location = some (.file bytes) := by
  rw [Place.lookup]
  split <;> simp_all

namespace Disk.WrittenAt

variable {before after : Disk} {target : Location} (written : before.WrittenAt after target)

include written

theorem folder {location : Location} (there : before.store.get? location = some .folder) :
    after.store.get? location = some .folder := by
  have apart : location ≠ target := by
    rintro rfl
    exact written.free there
  rcases written.elsewhere location apart with same | ⟨-, made⟩
  · exact same.trans there
  · exact made

theorem file_iff {location : Location} (apart : location ≠ target) (bytes : Bytes) :
    after.store.get? location = some (.file bytes) ↔ before.store.get? location = some (.file bytes) := by
  rcases written.elsewhere location apart with same | ⟨missing, made⟩
  · rw [same]
  · simp [missing, made]

theorem folder_before {location : Location} (there : after.store.get? location = some .folder)
    (present : before.store.get? location ≠ none) : before.store.get? location = some .folder := by
  have apart : location ≠ target := by
    rintro rfl
    obtain ⟨bytes, file⟩ := written.written
    cases there.symm.trans file
  rcases written.elsewhere location apart with same | ⟨missing, -⟩
  · exact same.symm.trans there
  · exact absurd missing present

theorem follow {path : RawText} {place : Place} (followed : before.follow path = .ok place) :
    after.follow path = .ok place := by
  rw [Disk.follow, written.working]
  exact Disk.walk_mono (fun _ => written.folder) followed

theorem isFolder {path : RawText} (there : before.isFolder path = true) : after.isFolder path = true := by
  obtain ⟨fits, place, followed, folder⟩ := Disk.isFolder_iff.mp there
  have folder' := Place.folder_mono (fun _ => written.folder) folder
  exact Disk.isFolder_iff.mpr ⟨fits, place, written.follow followed, folder'⟩

theorem walk_back (sound : before.Sound) {place last : Place} {segments : List RawText} (present : place.lost = 0)
    (climbs : before.climbsFromOld after place segments = true)
    (followed : Disk.walk after.store place segments = .ok last)
    (old : before.store.get? last.location ≠ none) : Disk.walk before.store place segments = .ok last := by
  induction segments generalizing place with
  | nil => exact followed
  | cons segment rest ih =>
    obtain ⟨folder, next, leads, later⟩ := Disk.walk_cons_iff.mp followed
    have oldHere : before.store.get? place.location ≠ none :=
      fun missing => old (sound.walk_missing climbs followed missing)
    have folderHere : place.lookup before.store = some .folder := by
      rw [Place.lookup, if_pos present] at folder ⊢
      exact written.folder_before folder oldHere
    have back := ih (Place.toward_present present leads) (Disk.climbsFromOld_cons climbs folder leads).2 later
    exact Disk.walk_cons_iff.mpr ⟨folderHere, next, leads, back⟩

theorem read_iff (sound : before.Sound) {path : RawText} (rooted : Path.isAbsolute path = true)
    (climbs : before.climbsFromOld after .root (Disk.segments path) = true)
    (apart : after.follow path ≠ .ok ⟨target, 0⟩) (bytes : Bytes) :
    before.read path = .ok bytes ↔ after.read path = .ok bytes := by
  have elsewhere : ∀ place : Place, after.follow path = .ok place → place.lost = 0 → place.location ≠ target := by
    rintro ⟨location, lost⟩ followed rfl rfl
    exact apart followed
  rw [Disk.read_eq_ok_iff, Disk.read_eq_ok_iff]
  apply and_congr_right
  intro fits
  constructor
  · rintro ⟨place, followed, found⟩
    obtain ⟨present, file⟩ := Place.lookup_eq_file_iff.mp found
    have followed' := written.follow followed
    have file' := (written.file_iff (elsewhere place followed' present) bytes).mpr file
    exact ⟨place, followed', Place.lookup_eq_file_iff.mpr ⟨present, file'⟩⟩
  · rintro ⟨place, followed, found⟩
    obtain ⟨present, file⟩ := Place.lookup_eq_file_iff.mp found
    have file' := (written.file_iff (elsewhere place followed present) bytes).mp file
    rw [Disk.follow, if_pos rooted] at followed
    have followed' := written.walk_back sound rfl climbs followed (by simp [file'])
    refine ⟨place, ?_, Place.lookup_eq_file_iff.mpr ⟨present, file'⟩⟩
    rw [Disk.follow, if_pos rooted, followed']

end Disk.WrittenAt

def Disk.ReadsAlike (before after : Disk) (path : RawText) : Prop :=
  ∀ bytes, before.read path = .ok bytes ↔ after.read path = .ok bytes

theorem Disk.isFile_iff {disk : Disk} {path : RawText} :
    disk.isFile path = true ↔ ∃ bytes, disk.read path = .ok bytes := by
  simp only [Disk.read_eq_ok_iff]
  rw [Disk.isFile, Disk.lookup, Disk.locate]
  cases Store.pathProblem? path with
  | some problem => simp
  | none =>
    cases disk.follow path with
    | error problem => simp
    | ok place => rcases found : place.lookup disk.store with _ | _ | bytes <;> simp [found]

namespace Disk.ReadsAlike

variable {before after : Disk} {path : RawText} (alike : before.ReadsAlike after path)

include alike

theorem isFile : before.isFile path = after.isFile path := by
  rw [Bool.eq_iff_iff, Disk.isFile_iff, Disk.isFile_iff]
  exact exists_congr alike

theorem readText (there : after.isFile path = true) : Config.readText before path = Config.readText after path := by
  obtain ⟨bytes, read⟩ := Disk.isFile_iff.mp there
  rw [Config.readText, Config.readText, read, (alike bytes).mpr read]

theorem readEntries (there : after.isFile path = true) :
    Config.readEntries before path = Config.readEntries after path := by
  rw [Config.readEntries, Config.readEntries, alike.readText there]

theorem withDocs {docsFolder : RawText} {component : Component} (same : component.docsPath docsFolder = path) :
    component.withDocs before docsFolder = component.withDocs after docsFolder := by
  rw [Component.withDocs, Component.withDocs, same, alike.isFile]
  split
  · rename_i there
    rw [alike.readText there]
  · rfl

theorem libraryDocs {docsFolder : RawText} (same : Path.join docsFolder "index.md" = path) :
    libraryDocs before docsFolder = libraryDocs after docsFolder := by
  rw [ComponentDocs.libraryDocs, ComponentDocs.libraryDocs, same, alike.isFile]
  split
  · rename_i there
    rw [alike.readText there.2]
  · rfl

end Disk.ReadsAlike

theorem Disk.Sound.folder_above {disk : Disk} (sound : disk.Sound) {base rest : Location} (nonempty : rest ≠ [])
    (present : disk.store.get? (base ++ rest) ≠ none) : disk.store.get? base = some .folder := by
  induction rest using List.reverseRecOn with
  | nil => exact absurd rfl nonempty
  | append_singleton front last ih =>
    rw [← List.append_assoc] at present
    have above := sound _ _ present
    by_cases direct : front = []
    · rwa [direct, List.append_nil] at above
    · exact ih direct (by simp [above])

theorem Disk.Sound.walk_of_present {disk : Disk} (sound : disk.Sound) {segments : List RawText}
    (down : ∀ segment ∈ segments, Descends segment) {base names : Location}
    (spelt : segments.mapM Name.ofText = .ok names) (present : disk.store.get? (base ++ names) ≠ none) :
    Disk.walk disk.store ⟨base, 0⟩ segments = .ok ⟨base ++ names, 0⟩ := by
  induction segments generalizing base names with
  | nil =>
    cases spelt
    simp [Disk.walk]
  | cons first rest ih =>
    rw [List.mapM_cons] at spelt
    obtain ⟨name, named, spelt⟩ := ok_of_bind spelt
    obtain ⟨others, later, spelt⟩ := ok_of_bind spelt
    cases spelt
    have folder : Place.lookup disk.store ⟨base, 0⟩ = some .folder := sound.folder_above (List.cons_ne_nil _ _) present
    have leads := Place.toward_name (down first List.mem_cons_self) named base
    rw [List.append_cons] at present ⊢
    have walked := ih (fun segment member => down segment (List.mem_cons_of_mem _ member)) later present
    exact Disk.walk_cons_iff.mpr ⟨folder, _, leads, walked⟩

theorem Disk.reads_congr {disk other : Disk} {path : RawText} (located : disk.locate path = other.locate path)
    (found : ∀ place, other.locate path = .ok place → place.lookup disk.store = place.lookup other.store) :
    disk.contains path = other.contains path ∧ disk.read path = other.read path := by
  rw [Disk.contains, Disk.contains, Disk.read, Disk.read, located]
  cases here : other.locate path with
  | error problem => cases problem <;> exact ⟨rfl, rfl⟩
  | ok place =>
    simp only [bind, Except.bind, found place here]
    exact ⟨trivial, trivial⟩

theorem Disk.WrittenAt.read_of_present {before after : Disk} {target location : Location}
    (written : before.WrittenAt after target) (sound : before.Sound) {path : RawText} {segments : List RawText}
    (spells : Spells path segments) (spelt : segments.mapM Name.ofText = .ok location)
    (present : before.store.get? location ≠ none) (apart : location ≠ target) : after.read path = before.read path := by
  have leads : before.follow path = .ok ⟨location, 0⟩ := by
    have walked : Disk.walk before.store ⟨[], 0⟩ segments = .ok ⟨[] ++ location, 0⟩ :=
      sound.walk_of_present spells.down spelt present
    rw [before.follow_of_spells spells]
    exact walked
  have located : after.locate path = before.locate path := by
    rw [Disk.locate, Disk.locate, leads, written.follow leads]
  refine (Disk.reads_congr located ?_).2
  intro place computed
  rw [Disk.locate] at computed
  split at computed
  · cases computed
  · rw [leads] at computed
    cases computed
    rcases written.elsewhere location apart with same | ⟨missing, -⟩
    · exact same
    · exact absurd missing present

def Store.below (base : Location) (listed : Location × Entry) : Option (Location × Bytes) :=
  match listed.2 with
  | .file bytes =>
    if base.isPrefixOf listed.1 && listed.1 != base then some (listed.1.drop base.length, bytes) else none
  | .folder => none

namespace Publication.Reaches

variable {disk : Disk} {publication : Publication} {made : Store} {place : Place}
  (reaches : publication.Reaches disk made place)

include reaches

end Publication.Reaches

end ComponentDocs
