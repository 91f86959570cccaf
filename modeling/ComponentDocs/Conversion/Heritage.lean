import ComponentDocs.Conversion.Type

namespace ComponentDocs.Conversion

open Utf8 (Bytes)

inductive BaseSort where
  | typeName
  | qualifiedType
  | qualifiedName
  | other
deriving DecidableEq, Repr

def BaseSort.of (name : String) : BaseSort :=
  match name with
  | "type_identifier" => .typeName
  | "nested_type_identifier" => .qualifiedType
  | "nested_identifier" => .qualifiedName
  | _ => .other

mutual

def base (source : Bytes) : Tree → Expr Kind
  | ⟨kind, field, start, stop, children⟩ =>
    match BaseSort.of kind.name with
    | .typeName => ⟨.node "identifier", Tree.slice source start stop, .plain⟩
    | .qualifiedType =>
      ⟨.node "member_expression", "", .access (baseField source "module" children) (tokenField source "name" children)⟩
    | .qualifiedName =>
      match children.filter Tree.isContent with
      | [_, name] => ⟨.node "member_expression", "", .access (baseContent source children) (some (token source name))⟩
      | _ => expr source ⟨kind, field, start, stop, children⟩
    | .other => expr source ⟨kind, field, start, stop, children⟩

def baseField (source : Bytes) (name : String) : List Tree → Option (Expr Kind)
  | [] => none
  | tree :: rest => if tree.fills name then some (base source tree) else baseField source name rest

def baseContent (source : Bytes) : List Tree → Option (Expr Kind)
  | [] => none
  | tree :: rest => if tree.isContent then some (base source tree) else baseContent source rest

end

def isTypeArguments (tree : Tree) : Bool := tree.kind.named && tree.kind.name == "type_arguments"

def isApplication (tree : Tree) : Bool :=
  tree.kind.name == "instantiation_expression" || tree.kind.name == "generic_type"

def heritageEntry (source : Bytes) (kind : Kind) (tree : Tree) : Except Malformed (HeritageEntry Kind) :=
  if isApplication tree then do
    let name := ((Tree.field? "function" tree.children).or (Tree.field? "name" tree.children)).or
      (Tree.content? tree.children)
    let arguments ←
      match (tree.children.filter isTypeArguments).getLast? with
      | none => .ok []
      | some list => types source list.children
    return ⟨kind, name.map (base source), arguments⟩
  else .ok ⟨kind, some (base source tree), []⟩

/-- Adds a child of a clause to the entries found before it, last first. Arguments that stand beside their base belong
to the entry right before them. -/
def addHeritage (source : Bytes) (kind : Kind) (reversed : List (HeritageEntry Kind)) (tree : Tree) :
    Except Malformed (List (HeritageEntry Kind)) :=
  if isTypeArguments tree then
    match reversed with
    | [] => .ok []
    | last :: before => do
      let arguments ← types source tree.children
      return { last with arguments := arguments } :: before
  else do
    let entry ← heritageEntry source kind tree
    return entry :: reversed

def heritageClause (source : Bytes) (clause : Tree) : Except Malformed (HeritageClause Kind) := do
  let reversed ← (clause.children.filter Tree.isContent).foldlM (addHeritage source clause.kind) []
  return ⟨clause.kind, reversed.reverse⟩

def isNamed (name : String) (tree : Tree) : Bool := tree.kind.named && tree.kind.name == name

def isBaseClause (tree : Tree) : Bool := isNamed "extends_clause" tree || isNamed "implements_clause" tree

def classHeritage (source : Bytes) (children : List Tree) : Except Malformed (List (HeritageClause Kind)) :=
  ((children.filter (isNamed "class_heritage")).flatMap fun heritage => heritage.children.filter isBaseClause).mapM
    (heritageClause source)

def interfaceHeritage (source : Bytes) (children : List Tree) : Except Malformed (List (HeritageClause Kind)) :=
  (children.filter (isNamed "extends_type_clause")).mapM (heritageClause source)

end ComponentDocs.Conversion
