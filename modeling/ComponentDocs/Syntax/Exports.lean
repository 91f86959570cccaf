import ComponentDocs.Syntax.Catalog

namespace ComponentDocs

variable {κ : Type} [DecidableEq κ]

mutual

/-- Whether an exported expression hands out a name: it is the name, or a chain of wrapper calls around it, as in
`connect(mapState)(withRouter(Foo))`. Of a call that is not itself called, only the arguments count. -/
def Expr.hands (catalog : Catalog κ) (name : String) : Expr κ → Except Malformed Bool
  | ⟨kind, text, form⟩ =>
    if catalog.isIdentifier kind then .ok (text == name)
    else if catalog.isParenthesized kind then
      match form with
      | .access (some inner) _ => Expr.hands catalog name inner
      | .access none _ => .ok false
      | .parenthesized (some inner) => Expr.hands catalog name inner
      | .parenthesized none => .ok false
      | .call (some inner) _ => Expr.hands catalog name inner
      | .call none _ => .ok false
      | .plain => .error .missingPart
      | .object _ => .error .missingPart
    else if catalog.isCall kind then
      match form with
      | .call callee arguments => do
        if ← Expr.anyHands catalog name arguments then return true
        match callee with
        | some inner => if catalog.isCall inner.kind then Expr.hands catalog name inner else return false
        | none => return false
      | _ => .error .missingPart
    else .ok false

def Expr.anyHands (catalog : Catalog κ) (name : String) : List (Expr κ) → Except Malformed Bool
  | [] => .ok false
  | first :: rest => do
    if ← Expr.hands catalog name first then return true
    Expr.anyHands catalog name rest

end

/-- Whether a statement exports a name. Names passed on from another module are not the file's own. -/
def Statement.exports (catalog : Catalog κ) (name : String) (statement : Statement κ) : Except Malformed Bool :=
  match statement.form with
  | .exportValue value =>
    if catalog.isExport statement.kind then
      match value with
      | some value => value.hands catalog name
      | none => .ok false
    else .ok false
  | .exportNames names library =>
    .ok (catalog.isExport statement.kind && library == "" && names.any fun token => token.text == name)
  | _ => .ok false

namespace Statement

def anyExports (catalog : Catalog κ) (name : String) : List (Statement κ) → Except Malformed Bool
  | [] => .ok false
  | first :: rest => do
    if ← first.exports catalog name then return true
    anyExports catalog name rest

end Statement

def SourceFile.exports (catalog : Catalog κ) (file : SourceFile κ) (name : String) : Except Malformed Bool :=
  if name = "" then .ok false else Statement.anyExports catalog name file.statements

end ComponentDocs
