import ComponentDocs.DocBlock
import ComponentDocs.Syntax.Node
import ComponentDocs.Tree.Basic

namespace ComponentDocs.Conversion

open Utf8 (Bytes)

def docComment? (source : Bytes) (tree : Tree) : Option (DocComment Kind) :=
  let raw := (tree.text source).toList
  if DocBlock.isDocBlock raw then some ⟨tree.kind, String.ofList (DocBlock.text raw)⟩ else none

end ComponentDocs.Conversion
