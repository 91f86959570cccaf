import ComponentDocs.Syntax.Node
import ComponentDocs.Syntax.Role

namespace ComponentDocs.Conversion

open Utf8 (Bytes)

def token (source : Bytes) (tree : Tree) : Token Kind := ⟨tree.kind, tree.nameText source⟩

def tokenField (source : Bytes) (name : String) (nodes : List Tree) : Option (Token Kind) :=
  (Tree.field? name nodes).map (token source)

inductive ExprSort where
  | verbatim
  | string
  | parenthesized
  | access
  | call
  | object
  | other
deriving DecidableEq, Repr

def ExprSort.of (name : String) : ExprSort :=
  match name with
  | "identifier" => .verbatim
  | "property_identifier" => .verbatim
  | "shorthand_property_identifier" => .verbatim
  | "private_property_identifier" => .verbatim
  | "number" => .verbatim
  | "true" => .verbatim
  | "false" => .verbatim
  | "null" => .verbatim
  | "undefined" => .verbatim
  | "this" => .verbatim
  | "string" => .string
  | "parenthesized_expression" => .parenthesized
  | "member_expression" => .access
  | "call_expression" => .call
  | "object" => .object
  | _ => .other

def shorthand (source : Bytes) (tree : Tree) : Property Kind :=
  let name := token source tree
  ⟨tree.kind, some name, some ⟨tree.kind, name.text, .plain⟩⟩

mutual

def expr (source : Bytes) : Tree → Expr Kind
  | ⟨kind, _, start, stop, children⟩ =>
    match ExprSort.of kind.name with
    | .verbatim => ⟨kind, Tree.slice source start stop, .plain⟩
    | .string => ⟨kind, Tree.unquote (Tree.slice source start stop), .plain⟩
    | .parenthesized => ⟨kind, "", .parenthesized (exprContent source children)⟩
    | .access => ⟨kind, "", .access (exprField source "object" children) (tokenField source "property" children)⟩
    | .call => ⟨kind, "", .call (exprField source "function" children) (callArguments source children)⟩
    | .object => ⟨kind, "", .object (properties source children)⟩
    | .other => ⟨kind, "", .plain⟩

def exprContent (source : Bytes) : List Tree → Option (Expr Kind)
  | [] => none
  | tree :: rest => if tree.isContent then some (expr source tree) else exprContent source rest

def exprField (source : Bytes) (name : String) : List Tree → Option (Expr Kind)
  | [] => none
  | tree :: rest => if tree.fills name then some (expr source tree) else exprField source name rest

/-- A template string in the place of the arguments is none. -/
def callArguments (source : Bytes) : List Tree → List (Expr Kind)
  | [] => []
  | ⟨kind, field, _, _, children⟩ :: rest =>
    if field = some "arguments" then (if kind.name = "arguments" then exprs source children else [])
    else callArguments source rest

def exprs (source : Bytes) : List Tree → List (Expr Kind)
  | [] => []
  | tree :: rest => if tree.isContent then expr source tree :: exprs source rest else exprs source rest

/-- Pairs and shorthands are properties; methods and spreads are left out. -/
def properties (source : Bytes) : List Tree → List (Property Kind)
  | [] => []
  | ⟨kind, field, start, stop, children⟩ :: rest =>
    if kind.named && kind.name == "pair" then
      ⟨kind, tokenField source "key" children, exprField source "value" children⟩ :: properties source rest
    else if kind.named && kind.name == "shorthand_property_identifier" then
      shorthand source ⟨kind, field, start, stop, children⟩ :: properties source rest
    else properties source rest

end

/-- A literal in the place of a type. A signed number has the kind of its operand and the text with the sign. -/
def literal (source : Bytes) (tree : Tree) : Expr Kind :=
  if tree.kind.name = "unary_expression" then
    ⟨((Tree.field? "argument" tree.children).map (·.kind)).getD tree.kind, tree.text source, .plain⟩
  else expr source tree

end ComponentDocs.Conversion
