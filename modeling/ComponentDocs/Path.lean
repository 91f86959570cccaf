import ComponentDocs.Text.Raw

/-! Paths as texts. Nothing here asks whether a path exists. -/

namespace ComponentDocs.Path

open Text (splitAt joinWith)

def join (folder path : RawText) : RawText :=
  if path.head? == some slash then path
  else if folder == [] || folder.getLast? == some slash then folder ++ path
  else folder ++ slash :: path

def splitLast (path : RawText) : RawText × RawText :=
  let name := (path.reverse.takeWhile (· != slash)).reverse
  (path.take (path.length - name.length), name)

def dropSlashes (path : RawText) : RawText := (path.reverse.dropWhile (· == slash)).reverse

/-- The folder of a path: what stands before the last slash, without slashes at its end unless there is nothing else. -/
def folder (path : RawText) : RawText :=
  let head := (splitLast path).1
  if head.all (· == slash) then head else dropSlashes head

def name (path : RawText) : RawText := (splitLast path).2

/-- One segment of a path onto the segments before it, last first. Above the root there is only the root. -/
def push (rooted : Bool) (reversed : List RawText) (segment : RawText) : List RawText :=
  if segment = [] ∨ segment = [dot] then reversed
  else if segment = [dot, dot] then
    match reversed with
    | [] => if rooted then [] else [segment]
    | last :: before => if last = [dot, dot] then segment :: reversed else before
  else segment :: reversed

/-- Exactly two slashes at the beginning are kept as two, any other number as one. -/
def rootOf (path : RawText) : RawText :=
  match path.takeWhile (· == slash) with
  | [] => []
  | [_, _] => [slash, slash]
  | _ => [slash]

def normalize (path : RawText) : RawText :=
  let root := rootOf path
  let segments := ((splitAt slash path).foldl (push (root != [])) []).reverse
  let result := root ++ joinWith slash segments
  if result = [] then [dot] else result

def absolute (working path : RawText) : RawText := normalize (join working path)

def isAbsolute (path : RawText) : Bool := path.head? == some slash

def ofNames (names : List RawText) : RawText := slash :: joinWith slash names

def unify (path : RawText) : RawText := path.map fun point => if point = .char '\\' then slash else point

/-- The name of a file and its folder, split at the last separator. One separator at the end does not count. -/
def nameAndFolder (path : RawText) : RawText × RawText :=
  let unified := unify path
  let trimmed := if unified.getLast? == some slash then unified.dropLast else unified
  let (head, name) := splitLast trimmed
  (name, head.dropLast)

def relativeTo (base path : RawText) : RawText :=
  let stem := dropSlashes (unify base)
  if path = stem then []
  else if (stem ++ [slash]).isPrefixOf path then path.drop (stem.length + 1)
  else path

end ComponentDocs.Path
