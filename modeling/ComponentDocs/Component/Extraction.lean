import ComponentDocs.Component.Detection

namespace ComponentDocs

variable {κ : Type} [DecidableEq κ]

namespace Statement

/-- A class is a component if it is exported, has a method `render`, and extends a component class. -/
def classComponent (catalog : Catalog κ) (file : SourceFile κ) (path : RawText) (statement : Statement κ) :
    Except Malformed (Option Component) := do
  if ← statement.isExported catalog file then
    match statement.form with
    | .classOf _ heritage members =>
      if heritage.isEmpty then return none
      if ← statement.hasMethod catalog "render" then
        match ← HeritageEntry.findComponent catalog file (heritageEntries heritage) with
        | none => return none
        | some entry =>
          let defaults ← Member.defaults catalog members
          let propsMembers ← entry.propsMembers catalog file
          let name ← statement.className catalog
          let props ← Member.props catalog defaults propsMembers
          return some ⟨name, path, .classBased, docText statement.docs, props, ""⟩
      else return none
    | _ => throw .missingPart
  else return none

/-- A function is a component if it is exported and a statement of its body yields markup. -/
def functionComponent (catalog : Catalog κ) (file : SourceFile κ) (path : RawText) (statement : Statement κ) :
    Except Malformed (Option Component) := do
  if ← statement.isExported catalog file then
    match statement.form with
    | .function name _ (some body) =>
      if ← anyYieldsMarkup catalog body.statements then
        return some ⟨(name.map (·.text)).getD "", path, .functionBased, docText statement.docs, [], ""⟩
      else return none
    | .function _ _ none => return none
    | _ => throw .missingPart
  else return none

def component (catalog : Catalog κ) (file : SourceFile κ) (path : RawText) (statement : Statement κ) :
    Except Malformed (Option Component) :=
  if catalog.isClass statement.kind then statement.classComponent catalog file path
  else if catalog.isFunction statement.kind then statement.functionComponent catalog file path
  else .ok none

end Statement

def SourceFile.components (catalog : Catalog κ) (file : SourceFile κ) (path : RawText) :
    Except Malformed (List Component) := do
  let found ← file.statements.mapM (Statement.component catalog file path)
  return found.filterMap id

end ComponentDocs
