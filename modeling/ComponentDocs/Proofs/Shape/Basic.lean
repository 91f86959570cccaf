import ComponentDocs.Component.Detection

/-! Syntax in which every node has the form that its kind announces. Readers of parts dispatch on kinds, so this is what
they rely on. -/

namespace ComponentDocs

variable {κ : Type} [DecidableEq κ]

def ExprForm.parts : ExprForm κ → List (Expr κ)
  | .plain => []
  | .access target _ => target.toList
  | .parenthesized inner => inner.toList
  | .call callee arguments => callee.toList ++ arguments
  | .object properties => properties.filterMap (·.value)

/-- An expression has the form that its kind announces. -/
structure Expr.Announced (catalog : Catalog κ) (value : Expr κ) : Prop where
  access : catalog.isPropertyAccess value.kind → ∃ object name, value.form = .access object name
  parenthesized : catalog.isParenthesized value.kind → ∃ inner, value.form = .parenthesized inner
  call : catalog.isCall value.kind → ∃ callee arguments, value.form = .call callee arguments
  object : catalog.isObjectLiteral value.kind → ∃ properties, value.form = .object properties

inductive Expr.Shaped (catalog : Catalog κ) : Expr κ → Prop where
  | node {value : Expr κ} (announced : value.Announced catalog)
      (parts : ∀ part ∈ value.form.parts, part.Shaped catalog) : value.Shaped catalog

def TypeNode.parts (type : TypeNode κ) : List (TypeNode κ) :=
  type.branches.filterMap id ++ type.parameters.filterMap (·.type) ++ type.result.toList ++
    type.members.filterMap (·.type)

/-- A union has no gaps among its branches, and what a literal type holds is a value and no type. -/
structure TypeNode.Announced (catalog : Catalog κ) (type : TypeNode κ) : Prop where
  branches : catalog.isUnion type.kind → none ∉ type.branches
  literal : catalog.isLiteralType type.kind → ∀ value ∈ type.literal, catalog.isLiteralType value.kind = false

inductive TypeNode.Shaped (catalog : Catalog κ) : TypeNode κ → Prop where
  | node {type : TypeNode κ} (announced : type.Announced catalog)
      (parts : ∀ part ∈ type.parts, part.Shaped catalog)
      (values : ∀ member ∈ type.members, ∀ value ∈ member.value, value.Shaped catalog) : type.Shaped catalog

structure Member.Shaped (catalog : Catalog κ) (member : Member κ) : Prop where
  type : ∀ type ∈ member.type, type.Shaped catalog
  value : ∀ value ∈ member.value, value.Shaped catalog

structure HeritageEntry.Shaped (catalog : Catalog κ) (entry : HeritageEntry κ) : Prop where
  base : ∀ base ∈ entry.base, base.Shaped catalog
  arguments : ∀ type, some type ∈ entry.arguments → type.Shaped catalog

namespace StatementForm

def values : StatementForm κ → List (Expr κ)
  | .exportValue value => value.toList
  | .returning value => value.toList
  | .expression value => value.toList
  | _ => []

def entries : StatementForm κ → List (HeritageEntry κ)
  | .classOf _ heritage _ => heritageEntries heritage
  | .interface _ heritage _ => heritageEntries heritage
  | _ => []

def members : StatementForm κ → List (Member κ)
  | .classOf _ _ members => members
  | .interface _ _ members => members
  | _ => []

def types : StatementForm κ → List (TypeNode κ)
  | .function _ parameters _ => parameters.filterMap (·.type)
  | .typeAlias _ type => type.toList
  | _ => []

def body : StatementForm κ → List (Statement κ)
  | .function _ _ (some block) => block.statements
  | _ => []

end StatementForm

/-- A statement has the form that its kind announces. -/
structure Statement.Announced (catalog : Catalog κ) (statement : Statement κ) : Prop where
  classOf : catalog.isClass statement.kind → ∃ name heritage members, statement.form = .classOf name heritage members
  function : catalog.isFunction statement.kind → ∃ name parameters body, statement.form = .function name parameters body
  interface : catalog.isInterface statement.kind →
    ∃ name heritage members, statement.form = .interface name heritage members
  typeAlias : catalog.isTypeAlias statement.kind → ∃ name type, statement.form = .typeAlias name type
  importFrom : catalog.isImport statement.kind → ∃ clause library, statement.form = .importFrom clause library
  returning : catalog.isReturn statement.kind → ∃ value, statement.form = .returning value
  expression : catalog.isExpressionStatement statement.kind → ∃ value, statement.form = .expression value

inductive Statement.Shaped (catalog : Catalog κ) : Statement κ → Prop where
  | node {statement : Statement κ} (announced : statement.Announced catalog)
      (values : ∀ value ∈ statement.form.values, value.Shaped catalog)
      (entries : ∀ entry ∈ statement.form.entries, entry.Shaped catalog)
      (members : ∀ member ∈ statement.form.members, member.Shaped catalog)
      (types : ∀ type ∈ statement.form.types, type.Shaped catalog)
      (body : ∀ inner ∈ statement.form.body, inner.Shaped catalog) : statement.Shaped catalog

def SourceFile.Shaped (catalog : Catalog κ) (file : SourceFile κ) : Prop :=
  ∀ statement ∈ file.statements, statement.Shaped catalog

end ComponentDocs
