import ComponentDocs.Component.Props
import ComponentDocs.Syntax.Exports
import ComponentDocs.Syntax.Members

namespace ComponentDocs

variable {κ : Type} [DecidableEq κ]

structure BaseClass where
  name : String
  binding : String
deriving DecidableEq, Repr

/-- `React.Component` is `Component` by way of `React`; a plain identifier is reached by itself. -/
def Expr.baseClass (catalog : Catalog κ) (value : Expr κ) : Except Malformed BaseClass :=
  if catalog.isPropertyAccess value.kind then
    match value.form with
    | .access object name =>
      .ok ⟨(name.map (·.text)).getD "",
        ((object.filter fun object => catalog.isIdentifier object.kind).map (·.text)).getD ""⟩
    | _ => .error .missingPart
  else if catalog.isIdentifier value.kind then .ok ⟨value.text, value.text⟩
  else .ok ⟨"", ""⟩

def baseClassOf (catalog : Catalog κ) : Option (Expr κ) → Except Malformed BaseClass
  | none => .ok ⟨"", ""⟩
  | some value => value.baseClass catalog

def BaseClass.isComponent (catalog : Catalog κ) (file : SourceFile κ) (base : BaseClass) : Except Malformed Bool :=
  if (base.name = "Component" ∨ base.name = "PureComponent") ∧ base.binding ≠ "" then do
    return (← file.importPath catalog base.binding).toLower == "react"
  else .ok false

def HeritageEntry.findComponent (catalog : Catalog κ) (file : SourceFile κ) :
    List (HeritageEntry κ) → Except Malformed (Option (HeritageEntry κ))
  | [] => .ok none
  | entry :: rest => do
    if ← (← baseClassOf catalog entry.base).isComponent catalog file then return some entry
    HeritageEntry.findComponent catalog file rest

def heritageEntries (heritage : List (HeritageClause κ)) : List (HeritageEntry κ) := heritage.flatMap (·.entries)

/-- The members of the props type, which is the first type argument: by its name, or as written on the spot. -/
def HeritageEntry.propsMembers (catalog : Catalog κ) (file : SourceFile κ) (entry : HeritageEntry κ) :
    Except Malformed (List (Member κ)) :=
  match entry.arguments with
  | some type :: _ =>
    match properName? type.name with
    | some name => file.membersOf catalog name
    | none => .ok (if catalog.isObjectType type.kind then type.members else [])
  | _ => .ok []

mutual

def Expr.isMarkup (catalog : Catalog κ) : Expr κ → Except Malformed Bool
  | ⟨kind, _, form⟩ =>
    if catalog.isMarkup kind then .ok true
    else if catalog.isParenthesized kind then
      match form with
      | .access inner _ => Expr.isMarkupOf catalog inner
      | .parenthesized inner => Expr.isMarkupOf catalog inner
      | .call inner _ => Expr.isMarkupOf catalog inner
      | .plain => .error .missingPart
      | .object _ => .error .missingPart
    else .ok false

def Expr.isMarkupOf (catalog : Catalog κ) : Option (Expr κ) → Except Malformed Bool
  | none => .ok false
  | some inner => Expr.isMarkup catalog inner

end

namespace Statement

def value (statement : Statement κ) : Except Malformed (Option (Expr κ)) :=
  match statement.form with
  | .exportValue value => .ok value
  | .returning value => .ok value
  | .expression value => .ok value
  | _ => .error .missingPart

def yieldsMarkup (catalog : Catalog κ) (statement : Statement κ) : Except Malformed Bool := do
  if catalog.isReturn statement.kind then Expr.isMarkupOf catalog (← statement.value)
  else if catalog.isExpressionStatement statement.kind then
    match ← statement.value with
    | none => return false
    | some value => if catalog.isParenthesized value.kind then value.isMarkup catalog else return false
  else return false

def anyYieldsMarkup (catalog : Catalog κ) : List (Statement κ) → Except Malformed Bool
  | [] => .ok false
  | first :: rest => do
    if ← first.yieldsMarkup catalog then return true
    anyYieldsMarkup catalog rest

def declaredName (statement : Statement κ) : Except Malformed String :=
  match statement.form with
  | .classOf name _ _ => .ok ((name.map (·.text)).getD "")
  | .function name _ _ => .ok ((name.map (·.text)).getD "")
  | .interface name _ _ => .ok ((name.map (·.text)).getD "")
  | .typeAlias name _ => .ok ((name.map (·.text)).getD "")
  | _ => .error .missingPart

def isExported (catalog : Catalog κ) (file : SourceFile κ) (statement : Statement κ) : Except Malformed Bool := do
  let name ← statement.declaredName
  if catalog.hasModifier .exportKeyword statement.modifiers then return true
  file.exports catalog name

def className (catalog : Catalog κ) (statement : Statement κ) : Except Malformed String :=
  match statement.form with
  | .classOf name _ _ => if catalog.isClass statement.kind then .ok ((name.map (·.text)).getD "") else .error .notAClass
  | _ => .error .missingPart

end Statement

def Member.anyMethod (catalog : Catalog κ) (name : String) (members : List (Member κ)) : Bool :=
  members.any fun member => catalog.isMethod member && member.name.any fun token => token.text == name

def Statement.hasMethod (catalog : Catalog κ) (name : String) (statement : Statement κ) : Except Malformed Bool :=
  if catalog.isClass statement.kind then
    match statement.form with
    | .classOf _ _ members => .ok (Member.anyMethod catalog name members)
    | .interface _ _ members => .ok (Member.anyMethod catalog name members)
    | _ => .error .missingPart
  else .ok false

end ComponentDocs
