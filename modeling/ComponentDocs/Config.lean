import ComponentDocs.Json.Reader
import ComponentDocs.Notice
import ComponentDocs.Package.Manifest
import ComponentDocs.Store.Disk

namespace ComponentDocs

structure Config where
  baseFolder : RawText
  includes : List RawText
  excludes : List RawText
  docsFolder : RawText
  title : Json
  libraryPath : Json
  libraryUrl : Json
  manifest : Option Manifest
  configFolder : RawText

namespace Config

def defaultIncludes : List RawText := ["*.ts", "*.tsx", "*.js", "*.jsx"]

def defaultExcludes : List RawText := ["node_modules/", "*.d.ts"]

def plain (baseFolder : RawText) : Config :=
  ⟨baseFolder, defaultIncludes, defaultExcludes, [], .text "", .text "", .text "", none, []⟩

def readText (disk : Disk) (path : RawText) : Except Failure (List Char) := do
  let bytes ← onDisk (disk.read path)
  match Utf8.decode? bytes with
  | some text => return Text.unifyBreaks text
  | none => throw .undecodable

def readEntries (disk : Disk) (path : RawText) : Except Failure (Bindings LooseText Json) :=
  match readText disk path with
  | .error _ => .error (.unreadable path)
  | .ok text =>
    match Json.read? text with
    | none => .error (.unreadable path)
    | some (.object entries) => .ok entries
    | some _ => .error (.notAnObject path)

def loadManifest (disk : Disk) (folder : RawText) : Except Failure (Option Manifest) := do
  let path := Path.join folder "package.json"
  if disk.isFile path then return some (Manifest.ofEntries (← readEntries disk path)) else return none

def patternList (entries : Bindings LooseText Json) (key : String) (default : List RawText) :
    Except Failure (List RawText) :=
  let value := Json.key key entries
  if value.isGiven then
    match value.texts? with
    | some patterns => .ok (patterns.map LooseText.points)
    | none => .error (.badPatternList key)
  else .ok default

/-- A value that is used as a path; what does not count as given is the empty path. -/
def pathAt (entries : Bindings LooseText Json) (key : String) : Except Failure RawText :=
  match (Json.key key entries).orEmpty.text? with
  | some path => .ok path.points
  | none => .error .notAPath

def build (disk : Disk) (folder : RawText) (entries : Bindings LooseText Json) (manifest : Option Manifest) :
    Except Failure Config := do
  let baseFolder ← onDisk (disk.absolute (Path.join folder (← pathAt entries "baseFolder")))
  unless disk.isFolder baseFolder do throw (.noBaseFolder baseFolder)
  let docs ← pathAt entries "docsFolder"
  let docsFolder ← if docs = [] then pure [] else onDisk (disk.absolute (Path.join baseFolder docs))
  let includes ← patternList entries "includes" defaultIncludes
  let excludes ← patternList entries "excludes" defaultExcludes
  let title := Json.key "title" entries
  return {
    baseFolder := baseFolder
    includes := includes
    excludes := excludes
    docsFolder := docsFolder
    title := if title.isGiven then title else .raw (Path.name baseFolder)
    libraryPath := (Json.key "libraryPath" entries).orEmpty
    libraryUrl := (Json.key "libraryUrl" entries).orEmpty
    manifest := manifest
    configFolder := folder }

/-- The entries that configure a folder: those of its configuration file, else those in its manifest, else none. -/
def entriesFor (disk : Disk) (folder : RawText) (manifest : Option Manifest) : Reporting (Bindings LooseText Json) := do
  let path := Path.join folder "redefine.config.json"
  if disk.isFile path then
    report .configuredByFile
    readEntries disk path
  else
    match manifest.map Manifest.settings with
    | none => return []
    | some .null => return []
    | some settings =>
      report .configuredByPackage
      match settings with
      | .object entries => return entries
      | _ => throw .badSettings

def load (disk : Disk) (folder : Option RawText) : Reporting Config := do
  let named := folder.getD []
  let configFolder ← onDisk (if named = [] then disk.workingPath else disk.absolute named)
  unless disk.isFolder configFolder do throw (.noBaseFolder configFolder)
  let manifest ← loadManifest disk configFolder
  let entries ← entriesFor disk configFolder manifest
  build disk configFolder entries manifest

end Config

end ComponentDocs
