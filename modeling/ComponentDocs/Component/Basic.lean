import ComponentDocs.Json.Basic
import ComponentDocs.Syntax.Catalog

namespace ComponentDocs

structure NamedType where
  name : String
  type : String
deriving DecidableEq, Repr

/-- What a prop is listed with by its type: the name of the type, the branches of a union, and the parameters and the
result of a function. -/
structure PropType where
  tag : String
  variants? : Option (List NamedType)
  parameters? : Option (List NamedType)
  result : String
deriving DecidableEq, Repr

namespace PropType

def named (name : String) : PropType := ⟨name, none, none, ""⟩

def enum (variants : List NamedType) : PropType := ⟨"$enum", some variants, none, ""⟩

def function (parameters : List NamedType) (result : String) : PropType := ⟨"$function", none, some parameters, result⟩

def unknown : PropType := named unknownType

end PropType

structure PropDoc where
  name : String
  type : PropType
  required : Bool
  defaultValue : String
  description : String
deriving DecidableEq, Repr

inductive ComponentKind where
  | classBased
  | functionBased
deriving DecidableEq, Repr

structure Component where
  name : String
  sourcePath : RawText
  kind : ComponentKind
  description : String
  props : List PropDoc
  docs : String
deriving DecidableEq, Repr

namespace NamedType

def toJson (entry : NamedType) : Json := .object [("name", .text entry.name), ("type", .text entry.type)]

def listToJson : Option (List NamedType) → Json
  | none => .null
  | some entries => .array (entries.map toJson)

end NamedType

def PropDoc.toJson (prop : PropDoc) : Json :=
  .object
    [("name", .text prop.name), ("type", .text prop.type.tag), ("enumOf", NamedType.listToJson prop.type.variants?),
      ("required", .bool prop.required), ("defaultValue", .text prop.defaultValue),
      ("description", .text prop.description), ("returnType", .text prop.type.result),
      ("params", NamedType.listToJson prop.type.parameters?)]

def ComponentKind.code : ComponentKind → Int
  | .classBased => 0
  | .functionBased => 1

def Component.toJson (component : Component) : Json :=
  .object
    [("name", .text component.name), ("sourcePath", .raw component.sourcePath),
      ("componentType", .int component.kind.code), ("description", .text component.description),
      ("props", .array (component.props.map PropDoc.toJson)), ("docs", .text component.docs)]

def componentsToJson (components : List Component) : Json := .array (components.map Component.toJson)

end ComponentDocs
