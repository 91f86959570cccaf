import ComponentDocs.Json.Basic

namespace ComponentDocs

open CodePoint (isBlank trim trimStart)

/-- An object may hold values of any type, which are passed on. -/
structure Author where
  name : Json
  email : Json
  url : Json

namespace Author

structure Parts where
  name : List CodePoint
  email : List CodePoint
  url : List CodePoint
deriving DecidableEq, Repr

def upTo? (mark : Char) : List CodePoint → Option (List CodePoint × List CodePoint)
  | [] => none
  | point :: rest =>
    if point = .char mark then some ([], rest)
    else (upTo? mark rest).map fun (inside, after) => (point :: inside, after)

def url? (text : List CodePoint) : Option (List CodePoint) :=
  match trimStart text with
  | [] => some []
  | .char '(' :: rest =>
    match upTo? ')' rest with
    | some (url, after) => if after.all isBlank then some url else none
    | none => none
  | _ => none

def isNamePoint (point : CodePoint) : Bool := point != .char '<' && point != .char '('

/-- The parts of a text that is a shorthand. The name ends before the first mark that opens another part. -/
def parts? (text : List CodePoint) : Option Parts :=
  let name := trim (text.takeWhile isNamePoint)
  match text.dropWhile isNamePoint with
  | .char '<' :: rest =>
    match upTo? '>' rest with
    | some (email, after) => (url? after).map fun url => ⟨name, email, url⟩
    | none => none
  | rest => (url? rest).map fun url => ⟨name, [], url⟩

def partsOf (text : List CodePoint) : Parts := (parts? text).getD ⟨trim text, [], []⟩

def ofParts (parts : Parts) : Author :=
  ⟨.text (.ofPoints parts.name), .text (.ofPoints parts.email), .text (.ofPoints parts.url)⟩

def nobody : Author := ⟨.text "", .text "", .text ""⟩

def ofJson : Json → Author
  | .object entries =>
    ⟨(Json.key "name" entries).orEmpty, (Json.key "email" entries).orEmpty, (Json.key "url" entries).orEmpty⟩
  | .text value => ofParts (partsOf value.points)
  | _ => nobody

def toJson (author : Author) : Json := .object [("name", author.name), ("email", author.email), ("url", author.url)]

end Author

end ComponentDocs
