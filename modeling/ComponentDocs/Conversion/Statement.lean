import ComponentDocs.Conversion.Heritage

namespace ComponentDocs.Conversion

open Utf8 (Bytes)

inductive StatementSort where
  | exporting
  | importing
  | returning
  | expression
  | declaration
deriving DecidableEq, Repr

def StatementSort.of (name : String) : StatementSort :=
  match name with
  | "export_statement" => .exporting
  | "import_statement" => .importing
  | "return_statement" => .returning
  | "expression_statement" => .expression
  | _ => .declaration

inductive DeclarationSort where
  | classOf
  | function
  | interface
  | typeAlias
  | other
deriving DecidableEq, Repr

def DeclarationSort.of (name : String) : DeclarationSort :=
  match name with
  | "class_declaration" => .classOf
  | "abstract_class_declaration" => .classOf
  | "class" => .classOf
  | "function_declaration" => .function
  | "generator_function_declaration" => .function
  | "function_expression" => .function
  | "function" => .function
  | "interface_declaration" => .interface
  | "type_alias_declaration" => .typeAlias
  | _ => .other

def library (source : Bytes) (children : List Tree) : String :=
  ((Tree.field? "source" children).map fun tree => Tree.unquote (tree.text source)).getD ""

def importedName? (source : Bytes) (specifier : Tree) : Option (Token Kind) :=
  ((Tree.field? "alias" specifier.children).or (Tree.field? "name" specifier.children)).map (token source)

def addImports (source : Bytes) (clause : ImportClause Kind) (part : Tree) : ImportClause Kind :=
  if isNamed "identifier" part then { clause with name := some (token source part) }
  else if isNamed "namespace_import" part then
    { clause with space := (Tree.content? part.children).map (token source) }
  else if isNamed "named_imports" part then
    { clause with elements :=
        clause.elements ++ (part.children.filter (isNamed "import_specifier")).filterMap (importedName? source) }
  else clause

def importClause (source : Bytes) (tree : Tree) : ImportClause Kind :=
  tree.children.foldl (addImports source) ⟨tree.kind, none, none, []⟩

def importForm (source : Bytes) (children : List Tree) : StatementForm Kind :=
  .importFrom (((children.filter (isNamed "import_clause")).getLast?).map (importClause source))
    (library source children)

def exportedNames (source : Bytes) (children : List Tree) : List (Token Kind) :=
  (children.filter (isNamed "export_clause")).flatMap fun clause =>
    (clause.children.filter (isNamed "export_specifier")).filterMap fun specifier =>
      tokenField source "name" specifier.children

def isExportModifier (tree : Tree) : Bool := tree.kind.name == "export" || tree.kind.name == "default"

def exportModifiers (children : List Tree) : List (Token Kind) :=
  (children.filter isExportModifier).map fun tree => ⟨tree.kind, tree.kind.name⟩

/-- The kind that an exported expression has as a declaration: a class or function expression with a name is one. -/
def declaredKind? (kind : Kind) (children : List Tree) : Option Kind :=
  if (Tree.field? "name" children).isSome then
    if kind.name = "class" then some (.node "class_declaration")
    else if kind.name = "function_expression" ∨ kind.name = "function" then some (.node "function_declaration")
    else none
  else none

def classForm (source : Bytes) (children : List Tree) : Except Malformed (StatementForm Kind) := do
  let heritage ← classHeritage source children
  let members ← bodyMembers source children
  return .classOf (tokenField source "name" children) heritage members

def interfaceForm (source : Bytes) (children : List Tree) : Except Malformed (StatementForm Kind) := do
  let heritage ← interfaceHeritage source children
  let members ← bodyMembers source children
  return .interface (tokenField source "name" children) heritage members

def typeAliasForm (source : Bytes) (children : List Tree) : Except Malformed (StatementForm Kind) := do
  let type ← typeField source "value" children
  return .typeAlias (tokenField source "name" children) type

/-- A declaration with the body it would have as a function. `kind` is the kind it counts as, which is its own unless
it is an exported expression. -/
def declaration (source : Bytes) (docs : List (DocComment Kind)) (modifiers : List (Token Kind)) (kind own : Kind)
    (children : List Tree) (body : Except Malformed (Option (Block Kind))) : Except Malformed (Statement Kind) :=
  match DeclarationSort.of own.name with
  | .classOf => do return ⟨kind, docs, modifiers, ← classForm source children⟩
  | .function => do
    let parameters ← parametersField source children
    return ⟨kind, docs, modifiers, .function (tokenField source "name" children) parameters (← body)⟩
  | .interface => do return ⟨own, docs, modifiers, ← interfaceForm source children⟩
  | .typeAlias => do return ⟨own, docs, modifiers, ← typeAliasForm source children⟩
  | .other => .ok ⟨own, docs, modifiers, .plain⟩

mutual

/-- The statements among the children of a block or file. `docs` are the doc comments since the last statement: the next
one takes them. -/
def statements (source : Bytes) (docs : List (DocComment Kind)) : List Tree → Except Malformed (List (Statement Kind))
  | [] => .ok []
  | ⟨kind, field, start, stop, children⟩ :: rest => do
    if kind.name = "comment" then
      statements source (docs ++ (docComment? source ⟨kind, field, start, stop, children⟩).toList) rest
    else if kind.named then
      let first ← statement source docs ⟨kind, field, start, stop, children⟩
      return first :: (← statements source [] rest)
    else statements source docs rest

def statement (source : Bytes) (docs : List (DocComment Kind)) : Tree → Except Malformed (Statement Kind)
  | ⟨kind, _, _, _, children⟩ =>
    match StatementSort.of kind.name with
    | .exporting => do
      let modifiers := exportModifiers children
      match ← exportedDeclaration source docs modifiers children with
      | some declared => return declared
      | none =>
        match ← exportedValue source docs modifiers kind children with
        | some value => return value
        | none => return ⟨kind, docs, modifiers, .exportNames (exportedNames source children) (library source children)⟩
    | .importing => .ok ⟨kind, docs, [], importForm source children⟩
    | .returning => .ok ⟨kind, docs, [], .returning (exprContent source children)⟩
    | .expression => .ok ⟨kind, docs, [], .expression (exprContent source children)⟩
    | .declaration => declaration source docs [] kind kind children (functionBody source children)

def exportedDeclaration (source : Bytes) (docs : List (DocComment Kind)) (modifiers : List (Token Kind)) :
    List Tree → Except Malformed (Option (Statement Kind))
  | [] => .ok none
  | ⟨kind, field, _, _, children⟩ :: rest =>
    if field = some "declaration" then
      (declaration source docs modifiers kind kind children (functionBody source children)).map some
    else exportedDeclaration source docs modifiers rest

def exportedValue (source : Bytes) (docs : List (DocComment Kind)) (modifiers : List (Token Kind)) (outer : Kind) :
    List Tree → Except Malformed (Option (Statement Kind))
  | [] => .ok none
  | ⟨kind, field, start, stop, children⟩ :: rest =>
    if field = some "value" then
      match declaredKind? kind children with
      | some declared =>
        (declaration source docs modifiers declared kind children (functionBody source children)).map some
      | none =>
        let value := expr source ⟨kind, field, start, stop, children⟩
        .ok (some ⟨outer, docs, modifiers, .exportValue (some value)⟩)
    else exportedValue source docs modifiers outer rest

def functionBody (source : Bytes) : List Tree → Except Malformed (Option (Block Kind))
  | [] => .ok none
  | ⟨kind, field, _, _, children⟩ :: rest =>
    if field = some "body" then
      if kind.name = "statement_block" then do
        return some ⟨kind, ← statements source [] children⟩
      else .ok none
    else functionBody source rest

end

def sourceFile (source : Bytes) (fileName : RawText) (root : Tree) : Except Malformed (SourceFile Kind) := do
  return ⟨root.kind, ← statements source [] root.children, fileName⟩

end ComponentDocs.Conversion
