import ComponentDocs.Failure

namespace ComponentDocs

inductive Notice where
  | started (folder : RawText)
  | configuredByFile
  | configuredByPackage
  | sourcesFound (count : Nat) (folder : RawText)
  | traced (path : RawText) (failure : Failure)
  | skipped (path : RawText)
  | parsed (count : Nat)
  | extracting (folder name : RawText)
  | extracted (count : Nat)
  | timed
  | written (path : RawText)
  | listing (text : RawText)
deriving DecidableEq, Repr

namespace Notice

def text (wording : Wording) : Notice → RawText
  | .started folder => "Extracting components from: " ++ folder
  | .configuredByFile => "Init using redefine.config.json..."
  | .configuredByPackage => "Init using the redefine key of package.json..."
  | .sourcesFound count folder => "Found " ++ toString count ++ " source files in: " ++ folder
  | .traced _ _ => wording.trace
  | .skipped path => "Unable to process - " ++ path ++ ". Skipping it."
  | .parsed count => "Parsed " ++ toString count ++ " files in " ++ wording.elapsed ++ "s"
  | .extracting folder name => "Extracting components from: " ++ folder ++ "/" ++ name
  | .extracted count => "Total number of components extracted: " ++ toString count
  | .timed => "Total time in extracting components: " ++ wording.elapsed ++ "s"
  | .written path => "Components JSON written to: " ++ path
  | .listing text => text

def lines (wording : Wording) (notices : List Notice) : List RawText :=
  notices.flatMap fun notice => (notice.text wording).lines

end Notice

/-- A computation that reports notices and may fail. What was reported before a failure stays reported. -/
abbrev Reporting := ExceptT Failure (StateM (List Notice))

def report (notice : Notice) : Reporting Unit := modify (· ++ [notice])

namespace Reporting

variable {α : Type}

def result (computation : Reporting α) : Except Failure α × List Notice := computation.run.run []

/-- The computation where only some notices can be printed. It ends at the first one that cannot. -/
def printed (prints : Notice → Bool) (computation : Reporting α) : Except Failure α × List Notice :=
  let (outcome, notices) := computation.result
  if notices.all prints then (outcome, notices) else (.error .unencodable, notices.takeWhile prints)

end Reporting

end ComponentDocs
