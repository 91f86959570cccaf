import ComponentDocs.Command.Run
import ComponentDocs.Glob.Pattern
import ComponentDocs.Json.Reader
import ComponentDocs.Text.Encoding
import ComponentDocs.Tree.Listing

/-! The program. It takes a copy of the folders that a command looks at, carries the command out on the copy, and then
writes down what changed. The concrete tree of a source is expected beside it, in a JSON file whose name has
`.tree.json` added; a source without one counts as empty. -/

namespace ComponentDocs.Main

open Utf8 (Bytes)

def bytesOf? (path : String) : IO (Option Bytes) := do
  try return some (← IO.FS.readBinFile path).toList
  catch _ => return none

def putFile (store : Store) (path : RawText) (bytes : Bytes) : Store :=
  match (Disk.spelt path).mapM Name.ofText with
  | .ok location => store.put location (.file bytes)
  | .error _ => store

partial def gather (store : Store) (path : RawText) : IO Store := do
  let mut result := (store.makeFolders (Disk.spelt path)).1
  for entry in ← (← IO.FS.realPath path.shown).readDir do
    let below := Path.join path entry.fileName
    if ← entry.path.isDir then result ← gather result below
    else if let some bytes ← bytesOf? (RawText.shown below) then result := putFile result below bytes
  return result

def gatherIfThere (store : Store) (path : RawText) : IO Store := do
  try gather store path
  catch _ => return store

def foldersOf (working : RawText) : Command → List RawText
  | .publish (some folder) _ => [Path.absolute working folder]
  | .list path => [Path.folder (Path.absolute working path)]
  | _ => []

def treeBeside? (store : Store) (location : Location) (bytes : Bytes) : Option (Bytes × Tree) := do
  let last ← location.getLast?
  let beside ← Name.ofBytes? (last.bytes ++ Utf8.encode ".tree.json".toList)
  match store.get? (location.dropLast ++ [beside]) with
  | some (.file listing) =>
    let tree ← Tree.ofJson? (← Json.read? (← Utf8.decode? listing))
    return (Utf8.encode (Utf8.decodeLossy bytes), tree)
  | _ => none

def trees (store : Store) : List (Bytes × Tree) :=
  (store.filesBelow []).filterMap fun (location, bytes) => treeBeside? store location bytes

def frontend (store : Store) : Frontend :=
  let known := trees store
  { detect := fun _ => some "utf-8"
    decode := Encoding.decodeNamed
    compile := Glob.compile
    parse := fun source =>
      ((known.find? fun entry => entry.1 == source).map (·.2)).getD ⟨.node "program", none, 0, source.length, []⟩
    prints := fun _ => true }

def apply (before after : Store) : IO Unit := do
  for (location, entry) in after.entries.reverse do
    unless before.get? location == some entry do
      let path := (Store.pathOf location).shown
      match entry with
      | .folder => IO.FS.createDirAll path
      | .file bytes => IO.FS.writeBinFile path ⟨bytes.toArray⟩

def usage : String :=
  "usage: extract [--output FILE] [FOLDER]   write the components of a library to a JSON file\n" ++
    "       print_file FILE                   print the components of a file"

def seconds (milliseconds : Nat) : String :=
  let hundredths := milliseconds / 10
  toString (hundredths / 100) ++ "." ++ toString (hundredths / 10 % 10) ++ toString (hundredths % 10)

/-- Reads the disk, carries the command out, and writes down and prints what came of it. -/
def runWords (words : List String) : IO UInt32 := do
  let started ← IO.monoMsNow
  let working : RawText := (← IO.currentDir).toString
  let command := Command.ofWords .late (words.map fun (word : String) => (word : RawText))
  let store ← (working :: foldersOf working command).foldlM gatherIfThere .empty
  let (outcome, after) := command.run (frontend store) ⟨store, ⟨.of working, 0⟩⟩
  apply store after
  let wording : Wording :=
    { elapsed := seconds ((← IO.monoMsNow) - started), trace := "The file could not be understood.",
      reason := "it is not JSON", other := "the run could not be finished", usage := usage }
  (outcome.output wording).forM fun line => IO.println line.shown
  (outcome.errors wording).forM fun line => IO.eprintln line.shown
  return UInt32.ofNat outcome.code

end ComponentDocs.Main

def main (words : List String) : IO UInt32 := ComponentDocs.Main.runWords words
