import ComponentDocs.Notice
import ComponentDocs.Tree.Basic

namespace ComponentDocs

open Utf8 (Bytes)

/-- A guess at the encoding of some bytes, which may fail; decoders by the names of encodings, which replace what they
cannot decode; a matcher for the lines of a list of patterns, or what is wrong with them; a parser for a text in UTF-8;
and the notices that can be printed. -/
structure Frontend where
  detect : Bytes → Option String
  decode : String → Bytes → Option (List Char)
  compile : List RawText → Except String (RawText → Bool)
  parse : Bytes → Tree
  prints : Notice → Bool

def Frontend.matcher (frontend : Frontend) (lines : List RawText) : Except Failure (RawText → Bool) :=
  (frontend.compile lines).mapError .pattern

end ComponentDocs
