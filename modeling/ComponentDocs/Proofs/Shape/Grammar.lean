import ComponentDocs.Tree.Basic

/-! What the grammar of the sources promises about concrete trees. Everything else may be damaged: kinds, fields,
offsets and children. -/

namespace ComponentDocs.Tree

inductive Everywhere (property : Tree → Prop) : Tree → Prop where
  | node {tree : Tree} (here : property tree) (below : ∀ child ∈ tree.children, child.Everywhere property) :
      tree.Everywhere property

section Deciding

variable (property : Tree → Prop) [DecidablePred property]

mutual

def decideEverywhere : (tree : Tree) → Decidable (tree.Everywhere property)
  | ⟨kind, field, start, stop, children⟩ =>
    match (inferInstance : Decidable (property ⟨kind, field, start, stop, children⟩)), decideAll children with
    | .isTrue here, .isTrue below => .isTrue (.node here below)
    | .isFalse failed, _ => .isFalse fun | .node here _ => failed here
    | _, .isFalse failed => .isFalse fun | .node _ below => failed below

def decideAll : (trees : List Tree) → Decidable (∀ tree ∈ trees, tree.Everywhere property)
  | [] => .isTrue fun _ member => absurd member List.not_mem_nil
  | first :: rest =>
    match decideEverywhere first, decideAll rest with
    | .isTrue here, .isTrue later => .isTrue (List.forall_mem_cons.mpr ⟨here, later⟩)
    | .isFalse failed, _ => .isFalse fun all => failed (List.forall_mem_cons.mp all).1
    | _, .isFalse failed => .isFalse fun all => failed (List.forall_mem_cons.mp all).2

end

instance : DecidablePred (Everywhere property) := decideEverywhere property

end Deciding

def isBareStatement (name : String) : Bool :=
  name == "import_statement" || name == "return_statement" || name == "expression_statement"

def isSignedLiteralType (tree : Tree) : Bool :=
  tree.kind.name == "literal_type" ||
    (tree.kind.name == "unary_expression" &&
      (field? "argument" tree.children).any fun operand => operand.kind.name == "literal_type")

/-- What the grammar promises about a single node: a declaration that is exported can be, a generic type has a name, a
wrapper around a type has something in it, and what stands in a literal type is no literal type itself. -/
structure Grammatical (tree : Tree) : Prop where
  exported : tree.kind.name = "export_statement" →
    ∀ declared ∈ field? "declaration" tree.children, isBareStatement declared.kind.name = false
  generic : tree.kind.name = "generic_type" →
    (field? "name" tree.children).isSome ∨ (content? tree.children).isSome
  wrapper : tree.kind.name = "parenthesized_type" ∨ tree.kind.name = "type_annotation" →
    (content? tree.children).isSome
  literal : tree.kind.name = "literal_type" →
    ∀ inner ∈ content? tree.children, inner.isSignedLiteralType = false

instance : DecidablePred Grammatical := fun _ =>
  decidable_of_iff (_ ∧ _ ∧ _ ∧ _)
    ⟨fun ⟨exported, generic, wrapper, literal⟩ => ⟨exported, generic, wrapper, literal⟩,
      fun ⟨exported, generic, wrapper, literal⟩ => ⟨exported, generic, wrapper, literal⟩⟩

end ComponentDocs.Tree
