import ComponentDocs.Bindings
import ComponentDocs.Syntax.Catalog

namespace ComponentDocs

variable {κ : Type} [DecidableEq κ]

def ImportClause.names (clause : ImportClause κ) : List String :=
  (clause.name.toList ++ clause.space.toList ++ clause.elements).map (·.text)

def Statement.imports (catalog : Catalog κ) (statement : Statement κ) : Except Malformed (List (String × String)) :=
  if catalog.isImport statement.kind then
    match statement.form with
    | .importFrom none _ => .ok []
    | .importFrom (some clause) library => .ok (clause.names.map (·, library))
    | _ => .error .missingPart
  else .ok []

namespace SourceFile

/-- A name that is imported twice comes from the later module. -/
def imports (catalog : Catalog κ) (file : SourceFile κ) : Except Malformed (Bindings String String) := do
  let pairs ← file.statements.mapM (Statement.imports catalog)
  return Bindings.ofPairs pairs.flatten

def importPath (catalog : Catalog κ) (file : SourceFile κ) (name : String) : Except Malformed String := do
  return ((← file.imports catalog).get? name).getD ""

end SourceFile

end ComponentDocs
