import ComponentDocs.Path
import ComponentDocs.Store.Name

namespace ComponentDocs

open Utf8 (Bytes)

abbrev Location := List Name

inductive Entry where
  | folder
  | file (bytes : Bytes)
deriving DecidableEq, Repr

/-- What there is at each location, in no particular order. The root is always there. -/
structure Store where
  entries : List (Location × Entry)

namespace Store

def empty : Store := ⟨[]⟩

def find? (location : Location) : List (Location × Entry) → Option Entry
  | [] => none
  | (other, entry) :: rest => if other = location then some entry else find? location rest

def get? (store : Store) (location : Location) : Option Entry :=
  if location = [] then some .folder else find? location store.entries

def isFolder (store : Store) (location : Location) : Bool := store.get? location == some .folder

def put (store : Store) (location : Location) (entry : Entry) : Store :=
  ⟨(location, entry) :: store.entries.filter fun other => other.1 ≠ location⟩

theorem find?_filter_ne (location other : Location) (differs : location ≠ other) (entries : List (Location × Entry)) :
    find? other (entries.filter fun entry => entry.1 ≠ location) = find? other entries := by
  induction entries with
  | nil => rfl
  | cons entry rest ih =>
    obtain ⟨place, content⟩ := entry
    by_cases here : place = location
    · subst here
      simpa [find?, differs] using ih
    · by_cases wanted : place = other
      · subst wanted
        simp [find?, here]
      · simpa [find?, here, wanted] using ih

theorem get?_put (store : Store) (location other : Location) (entry : Entry) (notRoot : location ≠ []) :
    (store.put location entry).get? other = if location = other then some entry else store.get? other := by
  by_cases same : location = other
  · subst same
    simp [get?, put, find?, notRoot]
  · by_cases root : other = []
    · simp [get?, root, notRoot]
    · simp only [get?, put, root, same, if_false, find?]
      exact find?_filter_ne location other same store.entries

def remove (store : Store) (location : Location) : Store :=
  ⟨store.entries.filter fun other => !location.isPrefixOf other.1⟩

def pathOf (location : Location) : RawText := Path.ofNames (location.map Name.text)

def maxPath : Nat := 4096

def pathProblem? (path : RawText) : Option FileProblem :=
  match path.bytes? with
  | none => some .unencodable
  | some bytes =>
    if 0 ∈ bytes then some .nullName
    else if bytes = [] then some .missing
    else if maxPath ≤ bytes.length then some .nameTooLong
    else none

def makeFolder (last : Bool) (store : Store) (location : Location) : Except FileProblem Store :=
  match store.get? location with
  | some .folder => .ok store
  | some (.file _) => .error (if last then .alreadyThere else .notAFolder)
  | none =>
    match pathProblem? (pathOf location) with
    | some problem => .error problem
    | none => .ok (store.put location .folder)

/-- Makes folders, each in the one before. Those made before one that cannot be made stay. -/
def makeFoldersIn (store : Store) (location : Location) : List RawText → Store × Except FileProblem Unit
  | [] => (store, .ok ())
  | segment :: rest =>
    match Name.ofText segment with
    | .error problem => (store, .error problem)
    | .ok name =>
      match makeFolder rest.isEmpty store (location ++ [name]) with
      | .error problem => (store, .error problem)
      | .ok next => makeFoldersIn next (location ++ [name]) rest

def makeFolders (store : Store) (segments : List RawText) : Store × Except FileProblem Unit :=
  store.makeFoldersIn [] segments

def filesBelow (store : Store) (location : Location) : List (Location × Bytes) :=
  store.entries.filterMap fun (other, entry) =>
    match entry with
    | .file bytes =>
      if location.isPrefixOf other && other != location then some (other.drop location.length, bytes) else none
    | .folder => none

end Store

end ComponentDocs
