import ComponentDocs.Text.Raw

/-! The abstract syntax that components are read from. A node has a kind and a form. The kind, of any type `κ`, is what
a catalog is asked about; the form says which parts the node has. Nothing ties the two together, so a reader of parts
has to be ready for a node whose form is not what its kind announces. -/

namespace ComponentDocs

structure Token (κ : Type) where
  kind : κ
  text : String

structure DocComment (κ : Type) where
  kind : κ
  text : String

mutual

/-- Identifiers and literals carry their text, string literals without quotation marks; other expressions carry none. -/
structure Expr (κ : Type) where
  kind : κ
  text : String
  form : ExprForm κ

inductive ExprForm (κ : Type) where
  | plain
  | access (object : Option (Expr κ)) (name : Option (Token κ))
  | parenthesized (inner : Option (Expr κ))
  | call (callee : Option (Expr κ)) (arguments : List (Expr κ))
  | object (properties : List (Property κ))

structure Property (κ : Type) where
  kind : κ
  name : Option (Token κ)
  value : Option (Expr κ)

end

mutual

/-- A type. References have a name, unions branches, literal types a literal, function types parameters and a result,
object types members. -/
structure TypeNode (κ : Type) where
  kind : κ
  name : Option String
  branches : List (Option (TypeNode κ))
  literal : Option (Expr κ)
  parameters : List (Parameter κ)
  result : Option (TypeNode κ)
  members : List (Member κ)
  text : String

structure Parameter (κ : Type) where
  kind : κ
  name : Option (Token κ)
  type : Option (TypeNode κ)
  optional : Bool

structure Member (κ : Type) where
  kind : κ
  name : Option (Token κ)
  type : Option (TypeNode κ)
  optional : Bool
  modifiers : List (Token κ)
  value : Option (Expr κ)
  docs : List (DocComment κ)

end

structure HeritageEntry (κ : Type) where
  kind : κ
  base : Option (Expr κ)
  arguments : List (Option (TypeNode κ))

structure HeritageClause (κ : Type) where
  kind : κ
  entries : List (HeritageEntry κ)

structure ImportClause (κ : Type) where
  kind : κ
  name : Option (Token κ)
  space : Option (Token κ)
  elements : List (Token κ)

mutual

structure Statement (κ : Type) where
  kind : κ
  docs : List (DocComment κ)
  modifiers : List (Token κ)
  form : StatementForm κ

inductive StatementForm (κ : Type) where
  | plain
  | classOf (name : Option (Token κ)) (heritage : List (HeritageClause κ)) (members : List (Member κ))
  | function (name : Option (Token κ)) (parameters : List (Parameter κ)) (body : Option (Block κ))
  | interface (name : Option (Token κ)) (heritage : List (HeritageClause κ)) (members : List (Member κ))
  | typeAlias (name : Option (Token κ)) (type : Option (TypeNode κ))
  | importFrom (clause : Option (ImportClause κ)) (library : String)
  | exportValue (value : Option (Expr κ))
  | exportNames (names : List (Token κ)) (library : String)
  | returning (value : Option (Expr κ))
  | expression (value : Option (Expr κ))

structure Block (κ : Type) where
  kind : κ
  statements : List (Statement κ)

end

structure SourceFile (κ : Type) where
  kind : κ
  statements : List (Statement κ)
  fileName : RawText

inductive Malformed where
  | missingPart
  | notAClass
deriving DecidableEq, Repr

end ComponentDocs
