import ComponentDocs.Proofs.Shape.Conversion
import ComponentDocs.Proofs.Types.Branches

/-! What the documentation says about a type, told from the concrete tree alone: the schema of a prop of the type, the
variant that it is as a branch of a union, and its name where only a name is listed. -/

namespace ComponentDocs

open Utf8 (Bytes)

namespace Tree

def typeKeywords : List String := ["any", "number", "boolean", "string", "void", "never", "object"]

def keywordName (tree : Tree) : String :=
  match tree.children.head? with
  | none => unknownType
  | some keyword => if keyword.kind.name ∈ typeKeywords then keyword.kind.name else unknownType

def simpleName (tree : Tree) : String :=
  match tree.kind.name with
  | "predefined_type" => tree.keywordName
  | "function_type" => "Function"
  | "null" => "null"
  | "undefined" => "undefined"
  | _ => unknownType

def simpleNameOf (tree : Option Tree) : String := (tree.map simpleName).getD unknownType

def referenceName (source : Bytes) (tree : Tree) : Option String :=
  match tree.kind.name with
  | "type_identifier" => some (tree.text source)
  | "nested_type_identifier" => some (tree.text source)
  | "generic_type" => ((field? "name" tree.children).or (content? tree.children)).map (text source)
  | _ => none

/-- The literals that can stand in the place of a type. -/
def IsLiteral (tree : Tree) : Prop :=
  tree.kind.name ∈ ["string", "number", "true", "false", "null", "undefined"] ∨
    tree.kind.name = "unary_expression" ∧
      ∃ operand ∈ field? "argument" tree.children, operand.kind = .node "number"

def literalVariant (source : Bytes) (tree : Tree) : NamedType :=
  match tree.kind.name with
  | "string" => ⟨unquote (tree.text source), "string"⟩
  | "true" => ⟨tree.text source, "boolean"⟩
  | "false" => ⟨tree.text source, "boolean"⟩
  | "null" => ⟨tree.text source, "null"⟩
  | "undefined" => ⟨tree.text source, "undefined"⟩
  | _ => ⟨tree.text source, "number"⟩

def variant (source : Bytes) (tree : Tree) : NamedType :=
  match tree.referenceName source with
  | some name => if name = "" then ⟨"", unknownType⟩ else ⟨name, ""⟩
  | none =>
    match tree.kind.name with
    | "literal_type" => ((content? tree.children).map (literalVariant source)).getD ⟨"", unknownType⟩
    | "function_type" => ⟨"", "Function"⟩
    | _ => if tree.simpleName = unknownType then ⟨"", unknownType⟩ else ⟨tree.simpleName, tree.simpleName⟩

def isParameter (tree : Tree) : Bool :=
  tree.kind == .node "required_parameter" || tree.kind == .node "optional_parameter"

def namedParameter (source : Bytes) (tree : Tree) : NamedType :=
  ⟨((field? "pattern" tree.children).map (nameText source)).getD "", simpleNameOf (bareField "type" tree.children)⟩

def namedParameters (source : Bytes) (trees : List Tree) : List NamedType :=
  (trees.filter isParameter).map (namedParameter source)

def functionSchema (source : Bytes) (children : List Tree) : PropType :=
  .function (((field? "parameters" children).map fun list => namedParameters source list.children).getD [])
    (simpleNameOf (bareField "return_type" children))

/-- The schema of a prop by its type, without wrappers. -/
def schema (source : Bytes) (tree : Tree) : PropType :=
  match tree.referenceName source with
  | some name => if name = "" then .unknown else .named name
  | none =>
    match tree.kind.name with
    | "function_type" => functionSchema source tree.children
    | "union_type" => .enum ((tree.branches.filterMap bare).map (variant source))
    | _ => if tree.simpleName = unknownType then .unknown else .named tree.simpleName

/-- A union with a branch that is nothing but parentheses. -/
def hasGap (tree : Tree) : Bool := tree.kind.name == "union_type" && tree.branches.any fun branch => branch.bare.isNone

theorem referenceName_eq_none (source : Bytes) {tree : Tree} (notName : tree.kind.name ≠ "type_identifier")
    (notPath : tree.kind.name ≠ "nested_type_identifier") (notGeneric : tree.kind.name ≠ "generic_type") :
    tree.referenceName source = none := by
  rw [referenceName]
  split <;> simp_all

end Tree

namespace Conversion

/-- The type that is read from a tree is listed as the tree says. -/
structure Documented (source : Bytes) (tree : Tree) (node : TypeNode Kind) : Prop where
  typeName : tsxCatalog.typeName node.kind = tree.simpleName
  variant : node.variant tsxCatalog = .ok (tree.variant source)
  propType : node.propType tsxCatalog = if tree.hasGap then .error .missingPart else .ok (tree.schema source)

theorem plays_iff (role : Role) (kind : Kind) : tsxCatalog.plays [role] kind = true ↔ some kind = tsxCatalog role := by
  simp only [Catalog.plays, List.any_cons, List.any_nil, Bool.or_false, beq_iff_eq]
  exact eq_comm

theorem plays_eq_false {role : Role} {kind : Kind} (other : some kind ≠ tsxCatalog role) :
    tsxCatalog.plays [role] kind = false := by
  rw [← Bool.not_eq_true]
  intro plays
  exact other ((plays_iff role kind).mp plays)

theorem typeName_eq_unknown {kind : Kind} (absent : ∀ entry ∈ Catalog.typeTable, some kind ≠ tsxCatalog entry.1) :
    tsxCatalog.typeName kind = unknownType := by
  have silent : Catalog.typeTable.reverse.find? (fun entry => tsxCatalog.plays [entry.1] kind) = none := by
    apply List.find?_eq_none.mpr
    intro entry listed plays
    exact absent entry (List.mem_reverse.mp listed) ((plays_iff entry.1 kind).mp plays)
  rw [Catalog.typeName, Catalog.nameIn, silent]
  rfl

theorem typeName_keyword (name : String) :
    tsxCatalog.typeName (.keyword name) = if name ∈ Tree.typeKeywords then name else unknownType := by
  by_cases listed : name ∈ Tree.typeKeywords
  · rw [if_pos listed]
    simp only [Tree.typeKeywords, List.mem_cons, List.not_mem_nil, or_false] at listed
    rcases listed with rfl | rfl | rfl | rfl | rfl | rfl | rfl
    all_goals decide
  · rw [if_neg listed]
    simp only [Tree.typeKeywords, List.mem_cons, List.not_mem_nil, or_false, not_or] at listed
    apply typeName_eq_unknown
    simp [Catalog.typeTable, tsxCatalog, Kind.keyword, Kind.node, listed]

theorem typeName_node (name : String) :
    tsxCatalog.typeName (.node name) =
      if name = "function_type" then "Function" else if name = "null" then "null"
      else if name = "undefined" then "undefined" else unknownType := by
  by_cases function : name = "function_type"
  · subst function
    decide
  by_cases null : name = "null"
  · subst null
    decide
  by_cases undefined : name = "undefined"
  · subst undefined
    decide
  rw [if_neg function, if_neg null, if_neg undefined]
  apply typeName_eq_unknown
  simp [Catalog.typeTable, tsxCatalog, Kind.keyword, Kind.node, function, null, undefined]

theorem typeName_eq_simpleName {tree : Tree} (named : tree.kind.named)
    (notPredefined : tree.kind.name ≠ "predefined_type") : tsxCatalog.typeName tree.kind = tree.simpleName := by
  rw [Kind.eq_node named rfl, typeName_node, Tree.simpleName]
  by_cases function : tree.kind.name = "function_type"
  · rw [function]
    rfl
  by_cases null : tree.kind.name = "null"
  · rw [null]
    rfl
  by_cases undefined : tree.kind.name = "undefined"
  · rw [undefined]
    rfl
  rw [if_neg function, if_neg null, if_neg undefined]
  split <;> simp_all

structure PlainKind (kind : Kind) : Prop where
  notLiteral : tsxCatalog.isLiteralType kind = false
  notFunction : tsxCatalog.isFunctionType kind = false
  notUnion : tsxCatalog.isUnion kind = false

theorem plainKind_keyword (name : String) : PlainKind (.keyword name) := by
  constructor
  all_goals
    apply plays_eq_false
    simp [tsxCatalog, Kind.keyword, Kind.node]

theorem plainKind_node {name : String} (notLiteral : name ≠ "literal_type") (notFunction : name ≠ "function_type")
    (notUnion : name ≠ "union_type") : PlainKind (.node name) := by
  constructor
  all_goals
    apply plays_eq_false
    simp [tsxCatalog, Kind.node, notLiteral, notFunction, notUnion]

theorem plain_documented {source : Bytes} {tree : Tree} {node : TypeNode Kind} (plain : PlainKind node.kind)
    (name : node.name = none) (typeName : tsxCatalog.typeName node.kind = tree.simpleName)
    (noReference : tree.referenceName source = none) (notLiteral : tree.kind.name ≠ "literal_type")
    (notFunction : tree.kind.name ≠ "function_type") (notUnion : tree.kind.name ≠ "union_type") :
    Documented source tree node where
  typeName := typeName
  variant := by
    have said : tree.variant source =
        if tree.simpleName = unknownType then ⟨"", unknownType⟩ else ⟨tree.simpleName, tree.simpleName⟩ := by
      rw [Tree.variant, noReference]
      dsimp only
      split <;> simp_all
    rw [TypeNode.variant, name, said, plain.notLiteral, plain.notFunction, typeName]
    by_cases unknown : tree.simpleName = unknownType
    · simp [properName?, unknown]
    · simp [properName?, unknown]
  propType := by
    have said : tree.schema source =
        if tree.simpleName = unknownType then .unknown else .named tree.simpleName := by
      rw [Tree.schema, noReference]
      dsimp only
      split <;> simp_all
    have noGap : tree.hasGap = false := by simp [Tree.hasGap, notUnion]
    rw [TypeNode.propType, name, said, noGap, plain.notFunction, plain.notUnion, typeName]
    by_cases unknown : tree.simpleName = unknownType
    · simp [properName?, unknown]
    · simp [properName?, unknown]

theorem node_documented (source : Bytes) {tree : Tree} {node : TypeNode Kind} (named : tree.kind.named)
    (sort : TypeSort.of tree.kind.name = .object ∨ TypeSort.of tree.kind.name = .other) (kind : node.kind = tree.kind)
    (name : node.name = none) : Documented source tree node := by
  have differs : ∀ other, TypeSort.of other ≠ .object → TypeSort.of other ≠ .other → tree.kind.name ≠ other := by
    intro other notObject notOther same
    rw [same] at sort
    exact sort.elim notObject notOther
  have notLiteral := differs "literal_type" (by decide) (by decide)
  have notFunction := differs "function_type" (by decide) (by decide)
  have notUnion := differs "union_type" (by decide) (by decide)
  have plain : PlainKind node.kind := by
    rw [kind, Kind.eq_node named rfl]
    exact plainKind_node notLiteral notFunction notUnion
  have typeName : tsxCatalog.typeName node.kind = tree.simpleName := by
    rw [kind]
    exact typeName_eq_simpleName named (differs "predefined_type" (by decide) (by decide))
  have noReference : tree.referenceName source = none :=
    Tree.referenceName_eq_none source (differs _ (by decide) (by decide)) (differs _ (by decide) (by decide))
      (differs _ (by decide) (by decide))
  exact plain_documented plain name typeName noReference notLiteral notFunction notUnion

theorem predefined_documented (source : Bytes) {tree keyword : Tree} (text : String)
    (predefined : tree.kind.name = "predefined_type") (first : tree.children.head? = some keyword)
    (anonymous : keyword.kind.named = false) : Documented source tree (plainType keyword.kind text) := by
  have written : keyword.kind = .keyword keyword.kind.name := by
    obtain ⟨⟨name, flag⟩, field, start, stop, children⟩ := keyword
    cases anonymous
    rfl
  have plain : PlainKind (plainType keyword.kind text).kind := by
    rw [plainType, written]
    exact plainKind_keyword _
  have typeName : tsxCatalog.typeName (plainType keyword.kind text).kind = tree.simpleName := by
    rw [plainType, written, typeName_keyword, Tree.simpleName, predefined]
    simp only [Tree.keywordName, first]
  have noReference : tree.referenceName source = none :=
    Tree.referenceName_eq_none source (by simp [predefined]) (by simp [predefined]) (by simp [predefined])
  exact plain_documented plain rfl typeName noReference (by simp [predefined]) (by simp [predefined])
    (by simp [predefined])

theorem properName?_some (name : String) : properName? (some name) = if name = "" then none else some name := by
  by_cases empty : name = ""
  · rw [if_pos empty, empty]
    rfl
  · simp [properName?, Option.filter, empty]

theorem name_of_referenceName {source : Bytes} {tree : Tree} {written : String}
    (reference : tree.referenceName source = some written) :
    tree.kind.name = "type_identifier" ∨ tree.kind.name = "nested_type_identifier" ∨
      tree.kind.name = "generic_type" := by
  rw [Tree.referenceName] at reference
  split at reference
  all_goals simp_all

theorem reference_documented {source : Bytes} {tree : Tree} {written : String} (text : String)
    (reference : tree.referenceName source = some written) (named : tree.kind.named) :
    Documented source tree (namedType tree.kind written text) := by
  have whole : tree.kind = .node tree.kind.name := Kind.eq_node named rfl
  have noName : tsxCatalog.typeName tree.kind = unknownType := by
    rw [whole, typeName_node]
    rcases name_of_referenceName reference with name | name | name
    all_goals
      rw [name]
      rfl
  have plain : PlainKind tree.kind := by
    rw [whole]
    rcases name_of_referenceName reference with name | name | name
    all_goals
      rw [name]
      apply plainKind_node
      all_goals decide
  have noGap : tree.hasGap = false := by
    rcases name_of_referenceName reference with name | name | name
    all_goals
      rw [Tree.hasGap, name]
      rfl
  constructor
  · rw [namedType, noName, Tree.simpleName]
    rcases name_of_referenceName reference with name | name | name
    all_goals
      rw [name]
      rfl
  · rw [TypeNode.variant, Tree.variant, reference, namedType, properName?_some]
    by_cases empty : written = ""
    · simp [empty, noName, plain.notLiteral]
    · simp [empty]
  · rw [TypeNode.propType, Tree.schema, reference, noGap, namedType, properName?_some]
    by_cases empty : written = ""
    · simp [empty, noName, plain.notFunction, plain.notUnion]
    · simp [empty]

theorem propType_of_function (parameters : List (Parameter Kind)) (result : Option (TypeNode Kind)) (text : String) :
    (functionType (.node "function_type") parameters result text).propType tsxCatalog =
      .ok (.function (parameters.map (Parameter.named tsxCatalog)) (tsxCatalog.typeNameOf result)) := rfl

theorem function_documented {source : Bytes} {tree : Tree} {parameters : List (Parameter Kind)}
    {result : Option (TypeNode Kind)} (text : String) (function : tree.kind = .node "function_type")
    (listed : .function (parameters.map (Parameter.named tsxCatalog)) (tsxCatalog.typeNameOf result) =
      Tree.functionSchema source tree.children) :
    Documented source tree (functionType tree.kind parameters result text) := by
  have name : tree.kind.name = "function_type" := by rw [function]; rfl
  have noReference : tree.referenceName source = none := by rw [Tree.referenceName, name]; rfl
  have noGap : tree.hasGap = false := by rw [Tree.hasGap, name]; rfl
  rw [function]
  constructor
  · rw [Tree.simpleName, name]
    rfl
  · rw [Tree.variant, noReference, name]
    rfl
  · rw [propType_of_function, Tree.schema, noReference, noGap, name, listed]
    rfl

theorem literal_listed (source : Bytes) {tree : Tree} (named : tree.kind.named) (literally : tree.IsLiteral) :
    tsxCatalog.literalTypeOfExpr (some (literal source tree)) = .ok (tree.literalVariant source).type ∧
      (literal source tree).text = (tree.literalVariant source).name := by
  obtain ⟨kind, field, start, stop, children⟩ := tree
  have whole : kind = .node kind.name := Kind.eq_node named rfl
  rcases literally with listed | ⟨sign, operand, argument, number⟩
  · simp only [List.mem_cons, List.not_mem_nil, or_false] at listed
    rcases listed with name | name | name | name | name | name
    all_goals
      rw [name] at whole
      subst whole
      exact ⟨rfl, rfl⟩
  · have operandKind : Tree.field? "argument" children = some operand := argument
    dsimp only at sign
    rw [literal, if_pos sign, operandKind, Tree.literalVariant, sign, Option.map_some, Option.getD_some, number]
    exact ⟨rfl, rfl⟩

theorem literal_documented (source : Bytes) {tree inner : Tree} (text : String)
    (literal : tree.kind = .node "literal_type") (content : Tree.content? tree.children = some inner)
    (literally : inner.IsLiteral) :
    Documented source tree
      ⟨tree.kind, none, [], (Tree.content? tree.children).map (Conversion.literal source), [], none, [], text⟩ := by
  have name : tree.kind.name = "literal_type" := by rw [literal]; rfl
  have noReference : tree.referenceName source = none := by rw [Tree.referenceName, name]; rfl
  have noGap : tree.hasGap = false := by rw [Tree.hasGap, name]; rfl
  have unknown : tree.simpleName = unknownType := by rw [Tree.simpleName, name]; rfl
  have inside : inner.isContent = true := List.find?_some content
  have named : inner.kind.named = true := (Bool.and_eq_true_iff.mp inside).1
  have isLiteral : tsxCatalog.isLiteralType (.node "literal_type") = true := by decide
  obtain ⟨primitive, written⟩ := literal_listed source named literally
  rw [literal]
  constructor
  · rw [unknown]
    rfl
  · have said : tree.variant source = inner.literalVariant source := by
      rw [Tree.variant, noReference, name, content]
      rfl
    rw [said, content, TypeNode.variant]
    simp only [properName?, Option.filter_none, isLiteral, if_true, Option.map_some, primitive, written]
    rfl
  · have said : tree.schema source = .unknown := by
      rw [Tree.schema, noReference, name, unknown]
      rfl
    rw [said, noGap]
    rfl

theorem variants_of_branches {source : Bytes} {branches : List Tree} {entries : List (Option (TypeNode Kind))}
    (each : List.Forall₂ (fun branch entry => Option.Rel (Documented source) branch.bare entry) branches entries) :
    entries.mapM (TypeNode.variantOf tsxCatalog) =
      if branches.any (fun branch => branch.bare.isNone) then .error .missingPart
      else .ok ((branches.filterMap Tree.bare).map (Tree.variant source)) := by
  induction each with
  | nil => rfl
  | @cons branch entry branches entries here _ ih =>
    rw [List.mapM_cons, ih, List.any_cons, List.filterMap_cons]
    cases left : branch.bare with
    | none =>
      rw [left] at here
      cases here
      rfl
    | some inner =>
      rw [left] at here
      cases here with
      | some documented =>
        rw [TypeNode.variantOf, documented.variant]
        cases gap : branches.any fun branch => branch.bare.isNone with
        | true => rfl
        | false => rfl

theorem union_documented {source : Bytes} {tree : Tree} {entries : List (Option (TypeNode Kind))} (text : String)
    (union : tree.kind = .node "union_type")
    (each : List.Forall₂ (fun branch entry => Option.Rel (Documented source) branch.bare entry) tree.branches
      entries) : Documented source tree ⟨tree.kind, none, entries, none, [], none, [], text⟩ := by
  have name : tree.kind.name = "union_type" := by rw [union]; rfl
  have noReference : tree.referenceName source = none := by rw [Tree.referenceName, name]; rfl
  have unknown : tree.simpleName = unknownType := by rw [Tree.simpleName, name]; rfl
  rw [union]
  constructor
  · rw [unknown]
    rfl
  · have said : tree.variant source = ⟨"", unknownType⟩ := by
      rw [Tree.variant, noReference, name, unknown]
      rfl
    rw [said]
    rfl
  · have said : tree.schema source = .enum ((tree.branches.filterMap Tree.bare).map (Tree.variant source)) := by
      rw [Tree.schema, noReference, name]
      rfl
    have gap : tree.hasGap = tree.branches.any fun branch => branch.bare.isNone := by
      rw [Tree.hasGap, name]
      rfl
    rw [propType_of_union, variants_of_branches each, said, gap]
    cases tree.branches.any fun branch => branch.bare.isNone with
    | true => rfl
    | false => rfl

end Conversion

end ComponentDocs
