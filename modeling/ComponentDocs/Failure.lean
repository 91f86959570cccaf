import ComponentDocs.Store.Name
import ComponentDocs.Syntax.Node

namespace ComponentDocs

inductive Failure where
  | noBaseFolder (path : RawText)
  | unreadable (path : RawText)
  | notAnObject (path : RawText)
  | badPatternList (key : String)
  | badSettings
  | noSuchFile (path : RawText)
  | notAPath
  | disk (problem : FileProblem)
  | undecodable
  | unencodable
  | unknownEncoding (name : String)
  | pattern (kind : String)
  | malformed (problem : Malformed)
deriving DecidableEq, Repr

structure Wording where
  elapsed : String
  trace : String
  reason : String
  other : String
  usage : String

namespace Failure

def message? (wording : Wording) : Failure → Option RawText
  | .noBaseFolder path => some ("Base folder does not exist: " ++ path)
  | .unreadable path => some ("Unable to read " ++ path ++ ": " ++ wording.reason)
  | .notAnObject path => some ("Expected a JSON object in " ++ path)
  | .badPatternList key => some ("'" ++ key ++ "' must be a list of glob patterns" : String)
  | .badSettings => some ("'redefine' in package.json must be a JSON object" : String)
  | .noSuchFile path => some ("File does not exist: " ++ path)
  | .malformed .notAClass => some ("Expected a class declaration" : String)
  | _ => none

def message (wording : Wording) (failure : Failure) : RawText := (failure.message? wording).getD wording.other

end Failure

def onDisk {α : Type} (result : Except FileProblem α) : Except Failure α := result.mapError .disk

end ComponentDocs
