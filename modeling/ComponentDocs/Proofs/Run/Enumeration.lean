import ComponentDocs.Proofs.Agreement
import ComponentDocs.Store.Disk

namespace ComponentDocs

open Utf8 (Bytes)

def Store.Alike (store other : Store) : Prop := ∀ location, store.get? location = other.get? location

structure Disk.Alike (disk other : Disk) : Prop where
  working : disk.working = other.working
  found : disk.store.Alike other.store

/-- The same is found everywhere, and listed in some other order. -/
structure Disk.Reenumerates (disk other : Disk) : Prop extends disk.Alike other where
  listed : disk.store.entries.Perm other.store.entries

theorem Store.find?_eq_some_iff {entries : List (Location × Entry)} (distinct : (entries.map (·.1)).Nodup)
    (location : Location) (entry : Entry) :
    Store.find? location entries = some entry ↔ (location, entry) ∈ entries := by
  induction entries with
  | nil => simp [Store.find?]
  | cons first rest ih =>
    obtain ⟨place, content⟩ := first
    obtain ⟨fresh, restDistinct⟩ := List.nodup_cons.mp distinct
    rw [Store.find?, List.mem_cons, Prod.mk.injEq]
    by_cases here : place = location
    · subst here
      have noOther : (place, entry) ∉ rest := fun member => fresh (List.mem_map.mpr ⟨_, member, rfl⟩)
      simp [noOther, eq_comm]
    · have apart : location ≠ place := Ne.symm here
      simp [here, apart, ih restDistinct]

theorem Disk.reenumerates_of_perm {disk other : Disk} (distinct : (disk.store.entries.map (·.1)).Nodup)
    (working : disk.working = other.working) (listed : disk.store.entries.Perm other.store.entries) :
    disk.Reenumerates other := by
  have distinct' : (other.store.entries.map (·.1)).Nodup := (listed.map _).nodup_iff.mp distinct
  have found : disk.store.Alike other.store := by
    intro location
    rw [Store.get?, Store.get?]
    split
    · rfl
    · ext entry
      rw [Store.find?_eq_some_iff distinct, Store.find?_eq_some_iff distinct', listed.mem_iff]
  exact ⟨⟨working, found⟩, listed⟩

theorem Place.lookup_congr {store other : Store} (found : store.Alike other)
    (place : Place) : place.lookup store = place.lookup other := by
  rw [Place.lookup, Place.lookup, found]

theorem Disk.walk_congr {store other : Store} (found : store.Alike other)
    (place : Place) (segments : List RawText) : Disk.walk store place segments = Disk.walk other place segments := by
  induction segments generalizing place with
  | nil => rfl
  | cons segment rest ih => simp only [Disk.walk, Place.lookup_congr found, ih]

namespace Disk.Alike

variable {disk other : Disk} (alike : disk.Alike other)

include alike

theorem follow : disk.follow = other.follow := by
  funext path
  rw [Disk.follow, Disk.follow, alike.working, Disk.walk_congr alike.found]

theorem locate : disk.locate = other.locate := by
  funext path
  rw [Disk.locate, Disk.locate, alike.follow]

theorem lookup : disk.lookup = other.lookup := by
  funext path
  simp only [Disk.lookup, alike.locate, Place.lookup_congr alike.found]

theorem isFile : disk.isFile = other.isFile := by
  funext path
  rw [Disk.isFile, Disk.isFile, alike.lookup]

theorem isFolder : disk.isFolder = other.isFolder := by
  funext path
  rw [Disk.isFolder, Disk.isFolder, alike.lookup]

theorem contains : disk.contains = other.contains := by
  funext path
  simp only [Disk.contains, alike.locate, Place.lookup_congr alike.found]

theorem read : disk.read = other.read := by
  funext path
  simp only [Disk.read, alike.locate, Place.lookup_congr alike.found]

theorem workingPath : disk.workingPath = other.workingPath := by
  rw [Disk.workingPath, Disk.workingPath, alike.working]

theorem absolute : disk.absolute = other.absolute := by
  funext path
  rw [Disk.absolute, Disk.absolute, alike.workingPath]

end Disk.Alike

theorem Store.Alike.put {store other : Store} (found : store.Alike other) (target : Location) (entry : Entry) :
    (store.put target entry).Alike (other.put target entry) := by
  intro location
  by_cases root : location = []
  · simp [Store.get?, root]
  · have before := found location
    simp only [Store.get?, root, if_false] at before
    by_cases here : target = location
    · simp [Store.get?, Store.put, Store.find?, root, here]
    · simp only [Store.get?, Store.put, Store.find?, root, here, if_false]
      rw [Store.find?_filter_ne target location here, Store.find?_filter_ne target location here, before]

theorem Store.Alike.makeFolder {store other : Store} (found : store.Alike other) (last : Bool) (location : Location) :
    Agree Store.Alike (Store.makeFolder last store location) (Store.makeFolder last other location) := by
  rw [Store.makeFolder, Store.makeFolder, ← found location]
  rcases store.get? location with _ | _ | bytes
  · cases Store.pathProblem? (Store.pathOf location) with
    | some problem => exact .error problem
    | none => exact .ok (found.put location .folder)
  · exact .ok found
  · exact .error _

theorem Store.Alike.makeFoldersIn {store other : Store} (found : store.Alike other) (location : Location)
    (segments : List RawText) :
    (store.makeFoldersIn location segments).1.Alike (other.makeFoldersIn location segments).1 ∧
      (store.makeFoldersIn location segments).2 = (other.makeFoldersIn location segments).2 := by
  induction segments generalizing store other location with
  | nil => exact ⟨found, rfl⟩
  | cons segment rest ih =>
    rw [Store.makeFoldersIn, Store.makeFoldersIn]
    cases Name.ofText segment with
    | error problem => exact ⟨found, rfl⟩
    | ok name =>
      dsimp only
      have step := found.makeFolder rest.isEmpty (location ++ [name])
      revert step
      generalize Store.makeFolder _ store _ = here, Store.makeFolder _ other _ = there
      rintro (later | problem)
      · exact ih later (location ++ [name])
      · exact ⟨found, rfl⟩

theorem Disk.Alike.write {disk other : Disk} (alike : disk.Alike other) (path : RawText) (bytes : Bytes) :
    Agree Store.Alike (disk.write path bytes) (other.write path bytes) := by
  have sameProblem : disk.folderProblem path = other.folderProblem path := by
    rw [Disk.folderProblem, Disk.folderProblem, alike.follow]
  rw [Disk.write, Disk.write, sameProblem, alike.follow]
  cases Store.pathProblem? path with
  | some problem => exact .error problem
  | none =>
    dsimp only
    by_cases slash : Disk.endsWithSlash path
    · rw [if_pos slash, if_pos slash]
      exact .error _
    rw [if_neg slash, if_neg slash]
    refine (Agree.refl (other.follow path)).bind ?_
    rintro place _ rfl
    rw [Place.lookup_congr alike.found]
    rcases place.lookup other.store with _ | _ | old
    · exact .ok (alike.found.put place.location _)
    · exact .error _
    · exact .ok (alike.found.put place.location _)

end ComponentDocs
