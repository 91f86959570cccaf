import ComponentDocs.Syntax.Node
import ComponentDocs.Syntax.Role
import ComponentDocs.Text.Blank

namespace ComponentDocs

def unknownType : String := "$unknown"

namespace Catalog

variable {κ : Type} [DecidableEq κ]

def plays (catalog : Catalog κ) (roles : List Role) (kind : κ) : Bool :=
  roles.any fun role => catalog role == some kind

def isClass (catalog : Catalog κ) : κ → Bool := catalog.plays [.classDeclaration, .abstractClassDeclaration]

def isFunction (catalog : Catalog κ) : κ → Bool := catalog.plays [.functionDeclaration, .generatorDeclaration]

def isInterface (catalog : Catalog κ) : κ → Bool := catalog.plays [.interfaceDeclaration]

def isTypeAlias (catalog : Catalog κ) : κ → Bool := catalog.plays [.typeAlias]

def isImport (catalog : Catalog κ) : κ → Bool := catalog.plays [.importStatement]

def isExport (catalog : Catalog κ) : κ → Bool := catalog.plays [.exportStatement]

def isReturn (catalog : Catalog κ) : κ → Bool := catalog.plays [.returnStatement]

def isExpressionStatement (catalog : Catalog κ) : κ → Bool := catalog.plays [.expressionStatement]

def isHeritageClause (catalog : Catalog κ) : κ → Bool :=
  catalog.plays [.heritage, .extendsClause, .implementsClause, .extendsTypeClause]

def isIdentifier (catalog : Catalog κ) : κ → Bool := catalog.plays [.identifier]

def isPropertyAccess (catalog : Catalog κ) : κ → Bool := catalog.plays [.propertyAccess]

def isParenthesized (catalog : Catalog κ) : κ → Bool := catalog.plays [.parenthesized]

def isCall (catalog : Catalog κ) : κ → Bool := catalog.plays [.call]

def isObjectLiteral (catalog : Catalog κ) : κ → Bool := catalog.plays [.objectLiteral]

def isMarkup (catalog : Catalog κ) : κ → Bool := catalog.plays [.jsxElement, .jsxSelfClosing, .jsxFragment]

def isUnion (catalog : Catalog κ) : κ → Bool := catalog.plays [.unionType]

def isFunctionType (catalog : Catalog κ) : κ → Bool := catalog.plays [.functionType]

def isLiteralType (catalog : Catalog κ) : κ → Bool := catalog.plays [.literalType]

def isObjectType (catalog : Catalog κ) : κ → Bool := catalog.plays [.objectType]

def isTypeReference (catalog : Catalog κ) : κ → Bool := catalog.plays [.typeReference, .genericType, .qualifiedType]

def isExportValue (catalog : Catalog κ) (statement : Statement κ) : Bool :=
  catalog.isExport statement.kind &&
    match statement.form with
    | .exportValue _ => true
    | _ => false

def isExportNames (catalog : Catalog κ) (statement : Statement κ) : Bool :=
  catalog.isExport statement.kind &&
    match statement.form with
    | .exportNames _ _ => true
    | _ => false

def isMethod (catalog : Catalog κ) (member : Member κ) : Bool :=
  catalog.plays [.methodDefinition] member.kind ||
    (catalog.plays [.fieldDefinition] member.kind &&
      member.value.any fun value => catalog.plays [.arrowFunction, .functionExpression] value.kind)

def hasModifier (catalog : Catalog κ) (role : Role) (modifiers : List (Token κ)) : Bool :=
  modifiers.any fun modifier => catalog.plays [role] modifier.kind

/-- The name in a table for a kind. Where roles of the table share a kind, the last of them names it. -/
def nameIn (catalog : Catalog κ) (table : List (Role × String)) (kind : κ) : Option String :=
  (table.reverse.find? fun entry => catalog.plays [entry.1] kind).map (·.2)

def typeTable : List (Role × String) :=
  [(.numberKeyword, "number"), (.stringKeyword, "string"), (.booleanKeyword, "boolean"), (.voidKeyword, "void"),
    (.functionType, "Function"), (.anyKeyword, "any"), (.nullLiteral, "null"), (.undefinedLiteral, "undefined"),
    (.neverKeyword, "never"), (.objectKeyword, "object")]

def literalTable : List (Role × String) :=
  [(.stringLiteral, "string"), (.numericLiteral, "number"), (.trueLiteral, "boolean"), (.falseLiteral, "boolean")]

def typeName (catalog : Catalog κ) (kind : κ) : String := (catalog.nameIn typeTable kind).getD unknownType

def literalTypeName (catalog : Catalog κ) (kind : κ) : String :=
  (catalog.nameIn literalTable kind).getD (catalog.typeName kind)

def typeNameOf (catalog : Catalog κ) (type : Option (TypeNode κ)) : String :=
  (type.map fun type => catalog.typeName type.kind).getD unknownType

/-- The primitive of an expression in the place of a literal. One that has the kind of a literal type has no literal to
look into. -/
def literalTypeOfExpr (catalog : Catalog κ) : Option (Expr κ) → Except Malformed String
  | none => .ok unknownType
  | some value =>
    if catalog.isLiteralType value.kind then .error .missingPart else .ok (catalog.literalTypeName value.kind)

def literalTypeOf (catalog : Catalog κ) (type : TypeNode κ) : String :=
  if catalog.isLiteralType type.kind then
    (type.literal.map fun value => catalog.literalTypeName value.kind).getD unknownType
  else catalog.literalTypeName type.kind

end Catalog

def docText {κ : Type} (docs : List (DocComment κ)) : String := Text.joinLines (docs.map (·.text))

end ComponentDocs
