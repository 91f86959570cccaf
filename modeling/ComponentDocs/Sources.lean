import ComponentDocs.Component.Extraction
import ComponentDocs.Conversion.Statement
import ComponentDocs.Frontend
import ComponentDocs.Path
import ComponentDocs.Store.Disk

namespace ComponentDocs

namespace Frontend

def readSource (frontend : Frontend) (disk : Disk) (path : RawText) : Except Failure (List Char) := do
  let bytes ← onDisk (disk.read path)
  let name := ((frontend.detect bytes).filter (· != "")).getD "utf-8"
  match frontend.decode name bytes with
  | some text => return text
  | none => throw (.unknownEncoding name)

def parseFile (frontend : Frontend) (disk : Disk) (path : RawText) : Except Failure (SourceFile Kind) := do
  let source := Utf8.encode (← frontend.readSource disk path)
  (Conversion.sourceFile source path (frontend.parse source)).mapError .malformed

/-- Adds a parsed file to a table; a file that cannot be parsed is reported and skipped. -/
def addParsed (frontend : Frontend) (disk : Disk) (table : Bindings RawText (SourceFile Kind)) (path : RawText) :
    Reporting (Bindings RawText (SourceFile Kind)) :=
  match frontend.parseFile disk path with
  | .ok file => return table.put path file
  | .error failure => do
    report (.traced path failure)
    report (.skipped path)
    return table

def parseFiles (frontend : Frontend) (disk : Disk) (paths : List RawText) :
    Reporting (Bindings RawText (SourceFile Kind)) := do
  let table ← paths.foldlM (frontend.addParsed disk) []
  report (.parsed table.length)
  return table

end Frontend

variable {κ : Type} [DecidableEq κ]

def SourceFile.componentsAt (catalog : Catalog κ) (path : RawText) (file : SourceFile κ) :
    Reporting (List Component) := do
  let (name, folder) := Path.nameAndFolder path
  report (.extracting folder name)
  (file.components catalog folder).mapError Failure.malformed

def componentsOfFiles (catalog : Catalog κ) (table : Bindings RawText (SourceFile κ)) : Reporting (List Component) := do
  let found ← table.mapM fun (path, file) => file.componentsAt catalog path
  let components := found.flatten
  report (.extracted components.length)
  report .timed
  return components

def Frontend.processFile (frontend : Frontend) (disk : Disk) (path : RawText) : Reporting (List Component) := do
  let file ← frontend.parseFile disk path
  file.componentsAt tsxCatalog path

end ComponentDocs
