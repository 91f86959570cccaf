import ComponentDocs.Text.Utf8

/-! Concrete syntax trees of TypeScript sources, as a parser delivers them: every token is a node, and a node knows its
place in the source only by its offsets. -/

namespace ComponentDocs

/-- The kind of a node. Keywords and punctuation are anonymous, so a string literal and the keyword `string` are of
different kinds though they share a name. -/
structure Kind where
  name : String
  named : Bool
deriving DecidableEq, Repr

def Kind.written (kind : Kind) : String := if kind.named then kind.name else ":" ++ kind.name

structure Tree where
  kind : Kind
  field : Option String
  start : Nat
  stop : Nat
  children : List Tree

namespace Tree

open Utf8 (Bytes)

def isComment (tree : Tree) : Bool := tree.kind.name == "comment"

/-- Named nodes that are no comments carry the program; the others are layout. -/
def isContent (tree : Tree) : Bool := tree.kind.named && !tree.isComment

def fills (name : String) (tree : Tree) : Bool := tree.field == some name

def field? (name : String) (nodes : List Tree) : Option Tree := nodes.find? (fills name)

def content? (nodes : List Tree) : Option Tree := nodes.find? isContent

def slice (source : Bytes) (start stop : Nat) : String :=
  String.ofList (Utf8.decodeLossy ((source.drop start).take (stop - start)))

def text (source : Bytes) (tree : Tree) : String := slice source tree.start tree.stop

def isQuote (c : Char) : Bool := c = '\'' || c = '"' || c = '\x60'

def unquote (text : String) : String :=
  match text.toList with
  | first :: second :: rest =>
    let tail := second :: rest
    if isQuote first && tail.getLast? == some first then String.ofList tail.dropLast else text
  | _ => text

def nameText (source : Bytes) (tree : Tree) : String :=
  if tree.kind.name = "string" then unquote (tree.text source) else tree.text source

end Tree

end ComponentDocs
