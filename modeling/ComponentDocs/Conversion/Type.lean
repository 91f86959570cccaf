import ComponentDocs.Conversion.Docs
import ComponentDocs.Conversion.Expr

namespace ComponentDocs.Conversion

open Utf8 (Bytes)

inductive TypeSort where
  | wrapper
  | predefined
  | reference
  | generic
  | union
  | function
  | literal
  | object
  | other
deriving DecidableEq, Repr

def TypeSort.of (name : String) : TypeSort :=
  match name with
  | "type_annotation" => .wrapper
  | "parenthesized_type" => .wrapper
  | "predefined_type" => .predefined
  | "type_identifier" => .reference
  | "nested_type_identifier" => .reference
  | "generic_type" => .generic
  | "union_type" => .union
  | "function_type" => .function
  | "literal_type" => .literal
  | "object_type" => .object
  | _ => .other

inductive MemberSort where
  | skipped
  | signature
  | method
  | field
deriving DecidableEq, Repr

def MemberSort.of (name : String) : MemberSort :=
  match name with
  | "comment" => .skipped
  | "decorator" => .skipped
  | "class_static_block" => .skipped
  | "index_signature" => .skipped
  | "call_signature" => .skipped
  | "construct_signature" => .skipped
  | "method_signature" => .signature
  | "abstract_method_signature" => .signature
  | "method_definition" => .method
  | _ => .field

def isModifier (tree : Tree) : Bool :=
  ["static", "readonly", "abstract", "async", "declare", "get", "set", "accessibility_modifier",
    "override_modifier"].contains tree.kind.name

def modifiers (source : Bytes) (children : List Tree) : List (Token Kind) :=
  (children.filter isModifier).map fun tree => ⟨tree.kind, tree.text source⟩

def isOptionMark (tree : Tree) : Bool := tree.kind.name == "?"

def plainType (kind : Kind) (text : String) : TypeNode Kind := ⟨kind, none, [], none, [], none, [], text⟩

def namedType (kind : Kind) (name text : String) : TypeNode Kind := ⟨kind, some name, [], none, [], none, [], text⟩

def functionType (kind : Kind) (parameters : List (Parameter Kind)) (result : Option (TypeNode Kind)) (text : String) :
    TypeNode Kind :=
  ⟨kind, none, [], none, parameters, result, [], text⟩

mutual

/-- A wrapper around nothing is no type. The kind of a predefined type is that of its keyword. -/
def type (source : Bytes) : Tree → Except Malformed (Option (TypeNode Kind))
  | ⟨kind, _, start, stop, children⟩ =>
    let text := Tree.slice source start stop
    match TypeSort.of kind.name with
    | .wrapper => typeContent source children
    | .predefined => .ok (some (plainType ((children.head?.map (·.kind)).getD kind) text))
    | .reference => .ok (some (namedType kind text text))
    | .generic =>
      match (Tree.field? "name" children).or (Tree.content? children) with
      | none => .error .missingPart
      | some name => .ok (some (namedType kind (name.text source) text))
    | .union => do
      let branches ← unionBranches source children
      return some ⟨kind, none, branches, none, [], none, [], text⟩
    | .function => do
      let parameters ← parametersField source children
      let result ← typeField source "return_type" children
      return some (functionType kind parameters result text)
    | .literal =>
      .ok (some ⟨kind, none, [], (Tree.content? children).map (literal source), [], none, [], text⟩)
    | .object => do
      let members ← members source [] children
      return some ⟨kind, none, [], none, [], none, members, text⟩
    | .other => .ok (some (plainType kind text))

def typeContent (source : Bytes) : List Tree → Except Malformed (Option (TypeNode Kind))
  | [] => .ok none
  | tree :: rest => if tree.isContent then type source tree else typeContent source rest

def typeField (source : Bytes) (name : String) : List Tree → Except Malformed (Option (TypeNode Kind))
  | [] => .ok none
  | tree :: rest => if tree.fills name then type source tree else typeField source name rest

def unionBranches (source : Bytes) : List Tree → Except Malformed (List (Option (TypeNode Kind)))
  | [] => .ok []
  | ⟨kind, field, start, stop, children⟩ :: rest => do
    if kind.named && kind.name == "union_type" then
      let inner ← unionBranches source children
      return inner ++ (← unionBranches source rest)
    else if kind.named && kind.name != "comment" then
      let branch ← type source ⟨kind, field, start, stop, children⟩
      return branch :: (← unionBranches source rest)
    else unionBranches source rest

def parametersField (source : Bytes) : List Tree → Except Malformed (List (Parameter Kind))
  | [] => .ok []
  | ⟨_, field, _, _, children⟩ :: rest =>
    if field = some "parameters" then parameters source children else parametersField source rest

def parameters (source : Bytes) : List Tree → Except Malformed (List (Parameter Kind))
  | [] => .ok []
  | ⟨kind, _, _, _, children⟩ :: rest => do
    if kind.named && (kind.name == "required_parameter" || kind.name == "optional_parameter") then
      let type ← typeField source "type" children
      return ⟨kind, tokenField source "pattern" children, type, kind.name == "optional_parameter"⟩ ::
        (← parameters source rest)
    else parameters source rest

/-- The members among the children of a body. `docs` are the doc comments since the last child that is no layout: a
member takes them, and any other named child drops them. -/
def members (source : Bytes) (docs : List (DocComment Kind)) : List Tree → Except Malformed (List (Member Kind))
  | [] => .ok []
  | ⟨kind, field, start, stop, children⟩ :: rest => do
    if kind.name = "comment" then
      members source (docs ++ (docComment? source ⟨kind, field, start, stop, children⟩).toList) rest
    else if kind.named then
      match MemberSort.of kind.name with
      | .skipped => members source [] rest
      | .signature =>
        let parameters ← parametersField source children
        let result ← typeField source "return_type" children
        let type := functionType (.node "function_type") parameters result (Tree.slice source start stop)
        return ⟨kind, tokenField source "name" children, some type, children.any isOptionMark,
          modifiers source children, exprField source "value" children, docs⟩ :: (← members source [] rest)
      | .method =>
        let type ← typeField source "type" children
        return ⟨kind, tokenField source "name" children, type, children.any isOptionMark,
          modifiers source children, none, docs⟩ :: (← members source [] rest)
      | .field =>
        let type ← typeField source "type" children
        return ⟨kind, tokenField source "name" children, type, children.any isOptionMark,
          modifiers source children, exprField source "value" children, docs⟩ :: (← members source [] rest)
    else members source docs rest

end

def types (source : Bytes) (children : List Tree) : Except Malformed (List (Option (TypeNode Kind))) :=
  (children.filter Tree.isContent).mapM (type source)

def bodyMembers (source : Bytes) (children : List Tree) : Except Malformed (List (Member Kind)) :=
  match Tree.field? "body" children with
  | none => .ok []
  | some body => members source [] body.children

end ComponentDocs.Conversion
