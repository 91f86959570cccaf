import ComponentDocs.Config
import ComponentDocs.Frontend

namespace ComponentDocs

def ignoredBy (frontend : Frontend) (disk : Disk) (folder : RawText) : Except Failure (RawText → Bool) := do
  let path := Path.join folder ".gitignore"
  if ← onDisk (disk.contains path) then
    let text ← Config.readText disk path
    frontend.matcher ((Text.lines text).map (·.map .char))
  else frontend.matcher []

def relativePaths (disk : Disk) (folder : RawText) : List RawText :=
  if disk.isFolder folder then
    match disk.locate folder with
    | .ok place => (disk.store.filesBelow place.location).map fun file => Text.joinWith slash (file.1.map Name.text)
    | .error _ => []
  else []

/-- The files to look at: those that an include pattern selects, and neither an exclude pattern nor the folder's own
list of ignored files. They come as absolute paths in the order of their code points. -/
def Config.scan (frontend : Frontend) (disk : Disk) (config : Config) : Except Failure (List RawText) := do
  let included ← frontend.matcher config.includes
  let excluded ← frontend.matcher config.excludes
  let ignored ← ignoredBy frontend disk config.baseFolder
  let chosen := (relativePaths disk config.baseFolder).filter fun path =>
    included path && !(excluded path || ignored path)
  let paths ← chosen.mapM fun path => onDisk (disk.absolute (Path.join config.baseFolder path))
  return paths.mergeSort fun a b => decide (a ≤ b)

end ComponentDocs
