import ComponentDocs.Bindings
import ComponentDocs.Json.Real
import ComponentDocs.Text.Raw

namespace ComponentDocs

inductive Json where
  | null
  | bool (value : Bool)
  | int (value : Int)
  | real (value : Json.Real)
  | text (value : LooseText)
  | array (items : List Json)
  | object (entries : List (LooseText × Json))

namespace Json

/-- Whether a value counts as given: null, false, zero and everything empty do not. -/
def isGiven : Json → Bool
  | .null => false
  | .bool value => value
  | .int value => value != 0
  | .real value => !value.isZero
  | .text value => !value.isEmpty
  | .array items => !items.isEmpty
  | .object entries => !entries.isEmpty

def orEmpty (value : Json) : Json := if value.isGiven then value else .text ""

def key (name : String) (entries : Bindings LooseText Json) : Json := (entries.get? (.proper name)).getD .null

def text? : Json → Option LooseText
  | .text value => some value
  | _ => none

def texts? : Json → Option (List LooseText)
  | .array items => items.mapM text?
  | _ => none

def ofString (value : String) : Json := .text (.proper value)

def raw (text : RawText) : Json := .text (.ofPoints text)

end Json

end ComponentDocs
