import ComponentDocs.Command.Words
import ComponentDocs.Publication

namespace ComponentDocs

def listFile (frontend : Frontend) (disk : Disk) (path : RawText) : Reporting Unit := do
  unless disk.isFile path do throw (.noSuchFile path)
  let components ← frontend.processFile disk (← onDisk (disk.absolute path))
  report (.listing (componentsToJson components).render)

def startFolder (disk : Disk) (folder : Option RawText) : Except Failure RawText :=
  let named := folder.getD []
  if named = [] then onDisk disk.workingPath else .ok named

inductive Outcome where
  | helped
  | misused
  | finished (result : Except Failure Unit) (notices : List Notice)

namespace Outcome

def code : Outcome → Nat
  | .helped => 0
  | .misused => 2
  | .finished (.ok ()) _ => 0
  | .finished (.error _) _ => 1

def output (wording : Wording) : Outcome → List RawText
  | .helped => [wording.usage]
  | .misused => []
  | .finished _ notices => Notice.lines wording notices

def errors (wording : Wording) : Outcome → List RawText
  | .helped => []
  | .misused => [wording.usage]
  | .finished (.ok ()) _ => []
  | .finished (.error failure) _ => RawText.lines ("Error: " ++ failure.message wording)

end Outcome

/-- Carries a command out. Only publishing changes the store. -/
def Command.run (frontend : Frontend) (disk : Disk) : Command → Outcome × Store
  | .help => (.helped, disk.store)
  | .misuse => (.misused, disk.store)
  | .list path =>
    let (result, notices) := (listFile frontend disk path).printed frontend.prints
    (.finished result notices, disk.store)
  | .publish folder output =>
    match startFolder disk folder with
    | .error failure => (.finished (.error failure) [], disk.store)
    | .ok start =>
      if frontend.prints (.started start) then
        let ((result, notices), store) := ComponentDocs.publish frontend disk folder output
        (.finished (result.map fun _ => ()) (.started start :: notices), store)
      else (.finished (.error .unencodable) [], disk.store)

end ComponentDocs
