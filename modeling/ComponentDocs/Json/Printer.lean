import ComponentDocs.Json.Basic

/-! The written form of JSON documents: one item per line, two blanks of indentation per level, non-ASCII characters as
they are. A document is written piece by piece, and a piece with a lone surrogate cannot be written. -/

namespace ComponentDocs.Json

def hexDigit (n : Nat) : Char := Char.ofNat (if n < 10 then '0'.toNat + n else 'a'.toNat + (n - 10))

def escape (c : Char) : List Char :=
  match c with
  | '"' => ['\\', '"']
  | '\\' => ['\\', '\\']
  | '\n' => ['\\', 'n']
  | '\r' => ['\\', 'r']
  | '\t' => ['\\', 't']
  | c =>
    if c.toNat = 8 then ['\\', 'b']
    else if c.toNat = 12 then ['\\', 'f']
    else if c.toNat < 0x20 then ['\\', 'u', '0', '0', hexDigit (c.toNat / 16), hexDigit (c.toNat % 16)]
    else [c]

def escapePoint : CodePoint → RawText
  | .char c => (escape c).map .char
  | .surrogate code => [.surrogate code]

def quote (text : LooseText) : RawText := "\"" ++ text.points.flatMap escapePoint ++ "\""

def newLine (level : Nat) : RawText := .char '\n' :: List.replicate (2 * level) (.char ' ')

mutual

def pieces (level : Nat) : Json → List RawText
  | .null => ["null"]
  | .bool value => [if value then "true" else "false"]
  | .int value => [toString value]
  | .real value => [value.render]
  | .text value => [quote value]
  | .array [] => ["[]"]
  | .array items => itemPieces (level + 1) ("[" ++ newLine (level + 1)) items ++ [newLine level ++ "]"]
  | .object [] => ["\x7b\x7d"]
  | .object entries =>
    entryPieces (level + 1) ("\x7b" ++ newLine (level + 1)) entries ++ [newLine level ++ "\x7d"]

/-- The pieces of items. A text and what leads to it are one piece. -/
def itemPieces (level : Nat) (lead : RawText) : List Json → List RawText
  | [] => []
  | .text value :: rest => (lead ++ quote value) :: itemPieces level ("," ++ newLine level) rest
  | item :: rest => lead :: (pieces level item ++ itemPieces level ("," ++ newLine level) rest)

def entryPieces (level : Nat) (lead : RawText) : List (LooseText × Json) → List RawText
  | [] => []
  | (name, value) :: rest =>
    lead :: quote name :: ": " :: (pieces level value ++ entryPieces level ("," ++ newLine level) rest)

end

def render (document : Json) : RawText := (pieces 0 document).flatten

def isWritable (document : Json) : Bool := (pieces 0 document).all RawText.isProper

/-- What is written of a document: all of it, or what comes before the first piece that cannot be written. -/
def written (document : Json) : List Char :=
  ((pieces 0 document).takeWhile RawText.isProper).flatten.filterMap CodePoint.char?

end ComponentDocs.Json
