import ComponentDocs.Text.Blank

/-! Doc comments: the blocks that open with two stars. Their text is what is left without delimiters, the stars that
lead lines, and the tags. -/

namespace ComponentDocs.DocBlock

open Text (lines trim joinWith)

/-- Two stars open a doc comment, unless the second one already closes the comment. -/
def isDocBlock (raw : List Char) : Bool :=
  ['/', '*', '*'].isPrefixOf raw && !(['/', '*', '*', '/'].isPrefixOf raw)

def body (raw : List Char) : List Char :=
  if ['*', '/'].isSuffixOf raw then (raw.take (raw.length - 2)).drop 3 else raw.drop 3

def content (line : List Char) : List Char :=
  match trim line with
  | '*' :: rest => trim rest
  | text => text

def isTag (line : List Char) : Bool := line.head? == some '@'

/-- Everything from the first line with a tag on is left out. -/
def text (raw : List Char) : List Char :=
  trim (joinWith '\n' (((lines (body raw)).map content).takeWhile fun line => !isTag line))

end ComponentDocs.DocBlock
