import ComponentDocs.Publication

namespace ComponentDocs

namespace Store

/-- The same is at a location as before, or a folder where nothing was. -/
def KeepsAt (before after : Store) (location : Location) : Prop :=
  after.get? location = before.get? location ∨ before.get? location = none ∧ after.get? location = some .folder

/-- Nothing but folders was added. -/
structure Grows (before after : Store) : Prop where
  keeps : ∀ location, before.KeepsAt after location
  files : ∀ location, after.filesBelow location = before.filesBelow location

theorem Grows.refl (store : Store) : store.Grows store := ⟨fun _ => .inl rfl, fun _ => rfl⟩

theorem Grows.trans {first second third : Store} (early : first.Grows second) (late : second.Grows third) :
    first.Grows third := by
  refine ⟨?_, fun location => (late.files location).trans (early.files location)⟩
  intro location
  rcases late.keeps location with same | ⟨missing, made⟩
  · rw [KeepsAt, same]
    exact early.keeps location
  · rcases early.keeps location with same | ⟨-, folder⟩
    · exact .inr ⟨same.symm.trans missing, made⟩
    · cases missing.symm.trans folder

theorem Grows.folder {before after : Store} (grows : before.Grows after) {location : Location}
    (there : before.get? location = some .folder) : after.get? location = some .folder := by
  rcases grows.keeps location with same | ⟨missing, made⟩
  · exact same.trans there
  · exact made

theorem ne_root_of_get? {store : Store} {location : Location} {found : Option Entry}
    (here : store.get? location = found) (notFolder : found ≠ some .folder) : location ≠ [] := by
  rintro rfl
  exact notFolder here.symm

theorem not_listed_of_find? {location : Location} {entries : List (Location × Entry)}
    (missing : find? location entries = none) : ∀ entry ∈ entries, entry.1 ≠ location := by
  induction entries with
  | nil => simp
  | cons first rest ih =>
    obtain ⟨place, content⟩ := first
    rw [find?] at missing
    split at missing
    · cases missing
    · rename_i apart
      exact List.forall_mem_cons.mpr ⟨apart, ih missing⟩

theorem entries_put_of_missing {store : Store} {location : Location} (missing : store.get? location = none)
    (entry : Entry) : (store.put location entry).entries = (location, entry) :: store.entries := by
  have notRoot := ne_root_of_get? missing (by simp)
  rw [get?, if_neg notRoot] at missing
  have apart := not_listed_of_find? missing
  have kept : store.entries.filter (fun other => other.1 ≠ location) = store.entries :=
    List.filter_eq_self.mpr fun other listed => decide_eq_true (apart other listed)
  rw [put, kept]

theorem grows_put_folder {store : Store} {location : Location} (missing : store.get? location = none) :
    store.Grows (store.put location .folder) := by
  constructor
  · intro other
    rw [KeepsAt, get?_put _ _ _ _ (ne_root_of_get? missing (by simp))]
    split
    · rename_i same
      subst same
      exact .inr ⟨missing, rfl⟩
    · exact .inl rfl
  · intro other
    rw [filesBelow, entries_put_of_missing missing]
    rfl

theorem grows_of_makeFolder {last : Bool} {location : Location} {store next : Store}
    (made : makeFolder last store location = .ok next) :
    store.Grows next ∧ next.get? location = some .folder := by
  rw [makeFolder] at made
  split at made
  · rename_i there
    cases made
    exact ⟨.refl store, there⟩
  · cases made
  · rename_i missing
    split at made
    · cases made
    · cases made
      refine ⟨grows_put_folder missing, ?_⟩
      rw [get?_put _ _ _ _ (ne_root_of_get? missing (by simp)), if_pos rfl]

theorem grows_makeFoldersIn (store : Store) (location : Location) (segments : List RawText) :
    store.Grows (store.makeFoldersIn location segments).1 := by
  induction segments generalizing store location with
  | nil => exact .refl store
  | cons segment rest ih =>
    rw [makeFoldersIn]
    cases Name.ofText segment with
    | error problem => exact .refl store
    | ok name =>
      dsimp only
      cases made : makeFolder rest.isEmpty store (location ++ [name]) with
      | error problem => exact .refl store
      | ok next => exact (grows_of_makeFolder made).1.trans (ih next _)

theorem makeFoldersIn_again {store after later : Store} {location : Location} {segments : List RawText}
    (made : store.makeFoldersIn location segments = (after, .ok ()))
    (stay : ∀ other, after.get? other = some .folder → later.get? other = some .folder) :
    later.makeFoldersIn location segments = (later, .ok ()) := by
  induction segments generalizing store location with
  | nil => rfl
  | cons segment rest ih =>
    rw [makeFoldersIn] at made ⊢
    cases named : Name.ofText segment with
    | error problem =>
      rw [named] at made
      cases made
    | ok name =>
      rw [named] at made
      dsimp only at made ⊢
      cases here : makeFolder rest.isEmpty store (location ++ [name]) with
      | error problem =>
        rw [here] at made
        cases made
      | ok next =>
        rw [here] at made
        have grows := grows_makeFoldersIn next (location ++ [name]) rest
        dsimp only at made
        rw [made] at grows
        have there := stay _ (grows.folder (grows_of_makeFolder here).2)
        rw [makeFolder, there]
        exact ih made

end Store

def Place.toward (segment : RawText) (place : Place) : Except FileProblem Place :=
  if segment = [] ∨ segment = [dot] then .ok place
  else if segment = [dot, dot] then .ok place.parent
  else place.child segment

theorem Disk.walk_cons_iff {store : Store} {place target : Place} {segment : RawText} {rest : List RawText} :
    Disk.walk store place (segment :: rest) = .ok target ↔ place.lookup store = some .folder ∧
      ∃ next, place.toward segment = .ok next ∧ Disk.walk store next rest = .ok target := by
  rw [Disk.walk, Place.toward]
  cases place.lookup store with
  | none => simp
  | some entry =>
    cases entry with
    | file bytes => simp
    | folder =>
      by_cases stays : segment = [] ∨ segment = [dot]
      · simp [stays]
      · by_cases climbs : segment = [dot, dot]
        · simp [climbs]
        · cases place.child segment <;> simp [stays, climbs]

theorem Place.folder_mono {store other : Store} {place : Place}
    (folders : ∀ location, store.get? location = some .folder → other.get? location = some .folder)
    (here : place.lookup store = some .folder) : place.lookup other = some .folder := by
  rw [Place.lookup] at here ⊢
  split
  · rename_i present
    rw [if_pos present] at here
    exact folders _ here
  · rfl

theorem Disk.walk_mono {store other : Store} {place target : Place} {segments : List RawText}
    (folders : ∀ location, store.get? location = some .folder → other.get? location = some .folder)
    (followed : Disk.walk store place segments = .ok target) : Disk.walk other place segments = .ok target := by
  induction segments generalizing place with
  | nil => exact followed
  | cons segment rest ih =>
    obtain ⟨here, next, leads, later⟩ := Disk.walk_cons_iff.mp followed
    exact Disk.walk_cons_iff.mpr ⟨Place.folder_mono folders here, next, leads, ih later⟩

theorem Disk.write_eq_ok_iff {disk : Disk} {path : RawText} {bytes : Utf8.Bytes} {after : Store} :
    disk.write path bytes = .ok after ↔ Store.pathProblem? path = none ∧ Disk.endsWithSlash path = false ∧
      ∃ place, disk.follow path = .ok place ∧ place.lookup disk.store ≠ some .folder ∧
        disk.store.put place.location (.file bytes) = after := by
  rw [Disk.write]
  cases Store.pathProblem? path with
  | some problem => simp [bind, Except.bind, throw, throwThe, MonadExceptOf.throw]
  | none =>
    cases Disk.endsWithSlash path with
    | true => simp [bind, Except.bind, throw, throwThe, MonadExceptOf.throw]
    | false =>
      cases disk.follow path with
      | error problem => simp [bind, Except.bind]
      | ok place =>
        rcases found : place.lookup disk.store with _ | _ | old <;>
          simp [bind, Except.bind, pure, Except.pure, throw, throwThe, MonadExceptOf.throw, found]

namespace Publication

/-- The folders for a publication were made, and its path leads to a place where a file can be written. -/
structure Reaches (disk : Disk) (publication : Publication) (made : Store) (place : Place) : Prop where
  above : ∃ path, disk.absolute publication.path = .ok path ∧
    disk.store.makeFolders (Disk.spelt (Path.folder path)) = (made, .ok ())
  fits : Store.pathProblem? publication.path = none
  ends : Disk.endsWithSlash publication.path = false
  followed : ({ disk with store := made } : Disk).follow publication.path = .ok place
  free : place.lookup made ≠ some .folder

def bytes (publication : Publication) : Utf8.Bytes := Utf8.encode publication.document.written

namespace Reaches

variable {disk : Disk} {publication : Publication} {made : Store} {place : Place}
  (reaches : publication.Reaches disk made place)

include reaches

theorem grows : disk.store.Grows made := by
  obtain ⟨path, -, folders⟩ := reaches.above
  have grows := disk.store.grows_makeFoldersIn [] (Disk.spelt (Path.folder path))
  rwa [show disk.store.makeFoldersIn [] _ = _ from folders] at grows

theorem not_lost : place.lost = 0 := by
  by_cases present : place.lost = 0
  · exact present
  · exact absurd (if_neg present) reaches.free

theorem free_location : made.get? place.location ≠ some .folder := by
  have free := reaches.free
  rw [Place.lookup, if_pos reaches.not_lost] at free
  exact free

theorem get?_put (entry : Entry) (location : Location) : (made.put place.location entry).get? location =
    if place.location = location then some entry else made.get? location := by
  apply Store.get?_put
  exact Store.ne_root_of_get? rfl reaches.free_location

theorem folder_put (bytes : Utf8.Bytes) {location : Location} (there : made.get? location = some .folder) :
    (made.put place.location (.file bytes)).get? location = some .folder := by
  rw [reaches.get?_put, if_neg, there]
  rintro rfl
  exact reaches.free_location there

theorem follow_put (bytes : Utf8.Bytes) :
    ({ disk with store := made.put place.location (.file bytes) } : Disk).follow publication.path = .ok place :=
  Disk.walk_mono (fun _ => reaches.folder_put bytes) reaches.followed

end Reaches

/-- Saving makes folders only, or writes the publication to the place that its path leads to. A file that is written is
written to the end unless the document has a text that cannot be written. -/
theorem save_cases (disk : Disk) (publication : Publication) :
    (∃ failure made, publication.save disk = (made, .error failure) ∧ disk.store.Grows made) ∨
      ∃ made place, publication.Reaches disk made place ∧
        publication.save disk = (made.put place.location (.file publication.bytes),
          if publication.document.isWritable then .ok () else .error .unencodable) := by
  rw [save]
  cases absolute : disk.absolute publication.path with
  | error problem => exact .inl ⟨_, _, rfl, .refl _⟩
  | ok path =>
    dsimp only
    have grows := disk.store.grows_makeFoldersIn [] (Disk.spelt (Path.folder path))
    rw [← Store.makeFolders] at grows
    generalize folders : disk.store.makeFolders _ = result at grows ⊢
    obtain ⟨made, problem | _⟩ := result
    · exact .inl ⟨_, _, rfl, grows⟩
    · dsimp only
      rw [Disk.writeDocument]
      generalize written : ({ disk with store := made } : Disk).write publication.path _ = result
      cases result with
      | error problem => exact .inl ⟨_, _, rfl, grows⟩
      | ok after =>
        obtain ⟨fits, ends, place, followed, free, rfl⟩ := Disk.write_eq_ok_iff.mp written
        exact .inr ⟨made, place, ⟨⟨path, absolute, folders⟩, fits, ends, followed, free⟩, rfl⟩

end Publication

end ComponentDocs
