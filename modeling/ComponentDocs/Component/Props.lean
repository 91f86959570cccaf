import ComponentDocs.Component.Basic
import ComponentDocs.Syntax.Catalog

namespace ComponentDocs

variable {κ : Type} [DecidableEq κ]

def properName? (name : Option String) : Option String := name.filter (· != "")

/-- A branch of a union: a reference has its name, a literal its text, a primitive its own name twice. -/
def TypeNode.variant (catalog : Catalog κ) (branch : TypeNode κ) : Except Malformed NamedType :=
  match properName? branch.name with
  | some name => .ok ⟨name, ""⟩
  | none =>
    if catalog.isLiteralType branch.kind then do
      return ⟨(branch.literal.map (·.text)).getD "", ← catalog.literalTypeOfExpr branch.literal⟩
    else
      let resolved := catalog.typeName branch.kind
      if resolved ≠ unknownType ∧ !catalog.isFunctionType branch.kind then .ok ⟨resolved, resolved⟩
      else .ok ⟨"", resolved⟩

def TypeNode.variantOf (catalog : Catalog κ) : Option (TypeNode κ) → Except Malformed NamedType
  | none => .error .missingPart
  | some branch => branch.variant catalog

def Parameter.named (catalog : Catalog κ) (parameter : Parameter κ) : NamedType :=
  ⟨(parameter.name.map (·.text)).getD "", catalog.typeNameOf parameter.type⟩

/-- The type of a prop. A reference is taken by its name; then a primitive, a union and a function type are tried, in
this order. -/
def TypeNode.propType (catalog : Catalog κ) (type : TypeNode κ) : Except Malformed PropType :=
  match properName? type.name with
  | some name => .ok (.named name)
  | none =>
    let resolved := catalog.typeName type.kind
    if resolved ≠ unknownType ∧ !catalog.isFunctionType type.kind then .ok (.named resolved)
    else if catalog.isUnion type.kind then do return .enum (← type.branches.mapM (TypeNode.variantOf catalog))
    else if catalog.isFunctionType type.kind then
      .ok (.function (type.parameters.map (Parameter.named catalog)) (catalog.typeNameOf type.result))
    else .ok .unknown

namespace Member

def prop (catalog : Catalog κ) (defaults : Bindings String String) (member : Member κ) : Except Malformed PropDoc := do
  match member.name with
  | none => throw .missingPart
  | some name =>
    let type ←
      match member.type with
      | none => pure .unknown
      | some type => type.propType catalog
    return ⟨name.text, type, !member.optional, (defaults.get? name.text).getD "", docText member.docs⟩

def isProp (member : Member κ) : Bool := member.name.any fun name => name.text != ""

def props (catalog : Catalog κ) (defaults : Bindings String String) (members : List (Member κ)) :
    Except Malformed (List PropDoc) :=
  (members.filter isProp).mapM (prop catalog defaults)

def holdsDefaults (catalog : Catalog κ) (member : Member κ) : Bool :=
  member.name.any (fun name => name.text == "defaultProps") && catalog.hasModifier .staticKeyword member.modifiers

end Member

/-- The text of a default. The keywords are told by their kind; other literals and identifiers carry their text, and
other expressions none. -/
def Property.defaultText (catalog : Catalog κ) (property : Property κ) : String :=
  match property.value with
  | none => ""
  | some value =>
    if catalog.plays [.trueLiteral] value.kind then "true"
    else if catalog.plays [.falseLiteral] value.kind then "false"
    else if catalog.plays [.nullLiteral] value.kind then "null"
    else value.text

def propertyDefaults (catalog : Catalog κ) (properties : List (Property κ)) : Bindings String String :=
  Bindings.ofPairs (properties.filterMap fun property =>
    property.name.map fun name => (name.text, property.defaultText catalog))

def Member.defaults (catalog : Catalog κ) (members : List (Member κ)) : Except Malformed (Bindings String String) :=
  match (members.find? (holdsDefaults catalog)).bind (·.value) with
  | none => .ok []
  | some value =>
    if catalog.isObjectLiteral value.kind then
      match value.form with
      | .object properties => .ok (propertyDefaults catalog properties)
      | _ => .error .missingPart
    else .ok []

end ComponentDocs
