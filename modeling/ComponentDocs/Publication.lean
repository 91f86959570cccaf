import ComponentDocs.Component.Listing
import ComponentDocs.Docs
import ComponentDocs.Json.Printer
import ComponentDocs.Scan
import ComponentDocs.Sources

namespace ComponentDocs

namespace Config

def payload (disk : Disk) (config : Config) (components : List Component) : Except Failure Json := do
  let manifest := config.manifest.getD .empty
  let docs ← libraryDocs disk config.docsFolder
  return .object
    [("title", config.title), ("description", manifest.description), ("libDocs", .text docs),
      ("version", manifest.version), ("homePage", manifest.homePage), ("author", manifest.author.toJson),
      ("license", manifest.license), ("libraryPath", config.libraryPath), ("libraryUrl", config.libraryUrl),
      ("components", componentsToJson components)]

def outputFolder (config : Config) : Except Failure RawText :=
  let root := if config.configFolder = [] then config.baseFolder else config.configFolder
  match config.manifest with
  | none => .ok root
  | some manifest =>
    if manifest.mainFile.isGiven then
      match manifest.mainFile.text? with
      | some path => .ok (Path.join root (Path.folder path.points))
      | none => .error .notAPath
    else .ok root

end Config

/-- Writes a document to a file whose folder is there. Of a document that cannot be written as a whole, the file gets the
beginning. -/
def Disk.writeDocument (disk : Disk) (path : RawText) (document : Json) : Store × Except Failure Unit :=
  match disk.write path (Utf8.encode document.written) with
  | .error problem => (disk.store, .error (.disk problem))
  | .ok store => (store, if document.isWritable then .ok () else .error .unencodable)

structure Publication where
  path : RawText
  document : Json

namespace Publication

def prepare (frontend : Frontend) (disk : Disk) (folder output : Option RawText) : Reporting Publication := do
  let config ← Config.load disk folder
  let paths ← config.scan frontend disk
  report (.sourcesFound paths.length config.baseFolder)
  let files ← frontend.parseFiles disk paths
  let components ← componentsOfFiles tsxCatalog files
  let listed := Component.relativeTo config.baseFolder (Component.sortByName components)
  let documented ← attachDocs disk config.docsFolder listed
  let document ← config.payload disk documented
  let named := output.getD []
  let path ← if named = [] then (do return Path.join (← config.outputFolder) "components.json") else pure named
  return ⟨path, document⟩

/-- Makes the folders above a publication and writes it. The store comes back also if this fails half-way. -/
def save (disk : Disk) (publication : Publication) : Store × Except Failure Unit :=
  match disk.absolute publication.path with
  | .error problem => (disk.store, .error (.disk problem))
  | .ok path =>
    match disk.store.makeFolders (Disk.spelt (Path.folder path)) with
    | (store, .error problem) => (store, .error (.disk problem))
    | (store, .ok ()) => ({ disk with store := store } : Disk).writeDocument publication.path publication.document

end Publication

/-- A run that publishes a library: the path of the document or a failure, the notices, and the store afterwards. The
last notice is printed when the document is written already. -/
def publish (frontend : Frontend) (disk : Disk) (folder output : Option RawText) :
    (Except Failure RawText × List Notice) × Store :=
  match (Publication.prepare frontend disk folder output).printed frontend.prints with
  | (.error failure, notices) => ((.error failure, notices), disk.store)
  | (.ok publication, notices) =>
    match publication.save disk with
    | (store, .error failure) => ((.error failure, notices), store)
    | (store, .ok ()) =>
      if frontend.prints (.written publication.path) then
        ((.ok publication.path, notices ++ [.written publication.path]), store)
      else ((.error .unencodable, notices), store)

end ComponentDocs
