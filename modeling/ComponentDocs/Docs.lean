import ComponentDocs.Component.Basic
import ComponentDocs.Config

namespace ComponentDocs

def Component.docsPath (docsFolder : RawText) (component : Component) : RawText :=
  Path.join (Path.join docsFolder component.sourcePath) (component.name ++ ".md" : String)

def Component.withDocs (disk : Disk) (docsFolder : RawText) (component : Component) : Except Failure Component := do
  let path := component.docsPath docsFolder
  if disk.isFile path then
    return { component with docs := String.ofList (← Config.readText disk path) }
  else return component

/-- The empty folder name stands for no documentation at all. -/
def attachDocs (disk : Disk) (docsFolder : RawText) (components : List Component) : Except Failure (List Component) :=
  if docsFolder = [] then .ok components else components.mapM (Component.withDocs disk docsFolder)

def libraryDocs (disk : Disk) (docsFolder : RawText) : Except Failure String := do
  let path := Path.join docsFolder "index.md"
  if docsFolder ≠ [] ∧ disk.isFile path then return String.ofList (← Config.readText disk path) else return ""

end ComponentDocs
