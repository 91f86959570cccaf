import ComponentDocs.Store.Basic

/-! A store with a working folder, in which paths have a meaning. -/

namespace ComponentDocs

open Utf8 (Bytes)

/-- A place that a path leads to. Its last `lost` names are those of folders that were removed while they were in use. -/
structure Place where
  location : Location
  lost : Nat
deriving DecidableEq, Repr

structure Disk where
  store : Store
  working : Place

namespace Place

def root : Place := ⟨[], 0⟩

def parent (place : Place) : Place := ⟨place.location.dropLast, place.lost - 1⟩

/-- A removed folder stays a folder for those who use it. -/
def lookup (store : Store) (place : Place) : Option Entry :=
  if place.lost = 0 then store.get? place.location else some .folder

def child (segment : RawText) (place : Place) : Except FileProblem Place :=
  if place.lost = 0 then (Name.ofText segment).map fun name => ⟨place.location ++ [name], 0⟩
  else .error .missing

def afterRemoval (removed : Location) (place : Place) : Place :=
  if removed.isPrefixOf (place.location.take (place.location.length - place.lost)) then
    ⟨place.location, place.location.length - removed.length + 1⟩
  else place

end Place

namespace Disk

def segments (path : RawText) : List RawText := Text.splitAt slash path

/-- Follows segments from a place. Every step starts from a folder that is there, so a detour through a missing folder
leads nowhere even if it leads back. -/
def walk (store : Store) (place : Place) : List RawText → Except FileProblem Place
  | [] => .ok place
  | segment :: rest =>
    match place.lookup store with
    | none => .error .missing
    | some (.file _) => .error .notAFolder
    | some .folder =>
      if segment = [] ∨ segment = [dot] then walk store place rest
      else if segment = [dot, dot] then walk store place.parent rest
      else
        match place.child segment with
        | .error problem => .error problem
        | .ok next => walk store next rest

def follow (disk : Disk) (path : RawText) : Except FileProblem Place :=
  walk disk.store (if Path.isAbsolute path then .root else disk.working) (segments path)

def locate (disk : Disk) (path : RawText) : Except FileProblem Place :=
  match Store.pathProblem? path with
  | some problem => .error problem
  | none => disk.follow path

def lookup (disk : Disk) (path : RawText) : Option Entry :=
  match disk.locate path with
  | .ok place => place.lookup disk.store
  | .error _ => none

def isFile (disk : Disk) (path : RawText) : Bool :=
  match disk.lookup path with
  | some (.file _) => true
  | _ => false

def isFolder (disk : Disk) (path : RawText) : Bool := disk.lookup path == some .folder

def contains (disk : Disk) (path : RawText) : Except FileProblem Bool :=
  match disk.locate path with
  | .ok place => .ok (place.lookup disk.store).isSome
  | .error .nameTooLong => .error .nameTooLong
  | .error _ => .ok false

def read (disk : Disk) (path : RawText) : Except FileProblem Bytes := do
  match (← disk.locate path).lookup disk.store with
  | some (.file bytes) => return bytes
  | some .folder => throw .isFolder
  | none => throw .missing

def endsWithSlash (path : RawText) : Bool := path.getLast? == some slash

def folderProblem (disk : Disk) (path : RawText) : FileProblem :=
  match disk.follow (Path.splitLast (Path.dropSlashes path)).1 with
  | .error problem => problem
  | .ok _ => .isFolder

def write (disk : Disk) (path : RawText) (bytes : Bytes) : Except FileProblem Store := do
  if let some problem := Store.pathProblem? path then throw problem
  if endsWithSlash path then throw (disk.folderProblem path)
  let place ← disk.follow path
  match place.lookup disk.store with
  | some .folder => throw .isFolder
  | _ => return disk.store.put place.location (.file bytes)

def remove (disk : Disk) (path : RawText) : Except FileProblem Disk := do
  let place ← disk.locate path
  match place.lookup disk.store with
  | none => throw .missing
  | some _ => return ⟨disk.store.remove place.location, disk.working.afterRemoval place.location⟩

def enter (disk : Disk) (path : RawText) : Except FileProblem Disk := do
  let place ← disk.locate path
  match place.lookup disk.store with
  | some .folder => return { disk with working := place }
  | some (.file _) => throw .notAFolder
  | none => throw .missing

def spelt (path : RawText) : List RawText := (segments path).filter (· != [])

/-- The working folder has no path if it was removed. -/
def workingPath (disk : Disk) : Except FileProblem RawText :=
  if disk.working.lost = 0 then .ok (Store.pathOf disk.working.location) else .error .missing

def absolute (disk : Disk) (path : RawText) : Except FileProblem RawText := do
  if Path.isAbsolute path then return Path.normalize path
  return Path.absolute (← disk.workingPath) path

end Disk

/-- The location that a path spells. What names nothing is left out. -/
def Location.of (path : RawText) : Location :=
  (Disk.spelt path).filterMap fun segment => (Name.ofText segment).toOption

end ComponentDocs
