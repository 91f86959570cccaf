import ComponentDocs.Component.Props
import ComponentDocs.Conversion.Type
import ComponentDocs.Proofs.Success

namespace ComponentDocs

theorem Kind.eq_node {kind : Kind} {name : String} (named : kind.named) (called : kind.name = name) :
    kind = .node name := by
  cases kind
  cases named
  cases called
  rfl

namespace Tree

mutual

/-- What is left of a type without the wrappers around it, nothing if there is nothing in them. -/
def bare : Tree → Option Tree
  | ⟨kind, field, start, stop, children⟩ =>
    if kind.name = "type_annotation" ∨ kind.name = "parenthesized_type" then bareContent children
    else some ⟨kind, field, start, stop, children⟩

def bareContent : List Tree → Option Tree
  | [] => none
  | first :: rest => if first.isContent then bare first else bareContent rest

end

def bareField (name : String) (nodes : List Tree) : Option Tree := (field? name nodes).bind bare

mutual

/-- The branches of a union, with those of the unions that stand among them as such. Any other type is its own
branch. -/
def branches : Tree → List Tree
  | ⟨kind, field, start, stop, children⟩ =>
    if kind = .node "union_type" then branchesAll children else [⟨kind, field, start, stop, children⟩]

def branchesAll : List Tree → List Tree
  | [] => []
  | first :: rest => if first.isContent then branches first ++ branchesAll rest else branchesAll rest

end

theorem branches_of_union {tree : Tree} (union : tree.kind = .node "union_type") :
    tree.branches = branchesAll tree.children := by
  obtain ⟨kind, field, start, stop, children⟩ := tree
  rw [branches]
  exact if_pos union

theorem branches_of_other {tree : Tree} (other : tree.kind ≠ .node "union_type") : tree.branches = [tree] := by
  obtain ⟨kind, field, start, stop, children⟩ := tree
  rw [branches]
  exact if_neg other

end Tree

namespace Conversion

open Utf8 (Bytes)

def typeOption (source : Bytes) : Option Tree → Except Malformed (Option (TypeNode Kind))
  | none => .ok none
  | some tree => type source tree

theorem typeSort_of_wrapper {name : String} (wraps : name = "type_annotation" ∨ name = "parenthesized_type") :
    TypeSort.of name = .wrapper := by
  rcases wraps with same | same
  all_goals
    rw [same]
    rfl

mutual

theorem type_eq_bare (source : Bytes) : (tree : Tree) → type source tree = typeOption source tree.bare
  | ⟨kind, field, start, stop, children⟩ => by
    rw [Tree.bare]
    by_cases wraps : kind.name = "type_annotation" ∨ kind.name = "parenthesized_type"
    · rw [if_pos wraps, type, typeSort_of_wrapper wraps]
      exact typeContent_eq_bare source children
    · rw [if_neg wraps]
      rfl

theorem typeContent_eq_bare (source : Bytes) :
    (trees : List Tree) → typeContent source trees = typeOption source (Tree.bareContent trees)
  | [] => rfl
  | first :: rest => by
    rw [typeContent, Tree.bareContent]
    by_cases content : first.isContent
    · rw [if_pos content, if_pos content]
      exact type_eq_bare source first
    · rw [if_neg content, if_neg content]
      exact typeContent_eq_bare source rest

end

theorem unionBranches_cons (source : Bytes) (first : Tree) (rest : List Tree) :
    unionBranches source (first :: rest) =
      if first.isContent then
        if first.kind = .node "union_type" then do
          return (← unionBranches source first.children) ++ (← unionBranches source rest)
        else do
          return (← type source first) :: (← unionBranches source rest)
      else unionBranches source rest := by
  obtain ⟨kind, field, start, stop, children⟩ := first
  rw [unionBranches]
  by_cases union : kind = .node "union_type"
  · cases union
    rfl
  · have test : ¬ (kind.named && kind.name == "union_type") = true := by
      intro both
      obtain ⟨named, name⟩ := Bool.and_eq_true_iff.mp both
      exact union (Kind.eq_node named (beq_iff_eq.mp name))
    rw [if_neg test, if_neg union]
    rfl

theorem unionBranches_eq_mapM (source : Bytes) :
    (trees : List Tree) → unionBranches source trees = (Tree.branchesAll trees).mapM (type source)
  | [] => rfl
  | ⟨kind, field, start, stop, children⟩ :: rest => by
    have inner := unionBranches_eq_mapM source children
    have later := unionBranches_eq_mapM source rest
    rw [unionBranches_cons, Tree.branchesAll]
    by_cases content : Tree.isContent ⟨kind, field, start, stop, children⟩
    · rw [if_pos content, if_pos content]
      by_cases union : kind = .node "union_type"
      · rw [if_pos union, Tree.branches_of_union union, List.mapM_append, inner, later]
      · rw [if_neg union, Tree.branches_of_other union, List.singleton_append, List.mapM_cons, later]
    · rw [if_neg content, if_neg content, later]

theorem isUnion_eq (kind : Kind) : tsxCatalog.isUnion kind = (kind == .node "union_type") := by
  simp [Catalog.isUnion, Catalog.plays, tsxCatalog, eq_comm]

theorem propType_of_union (entries : List (Option (TypeNode Kind))) (text : String) :
    (⟨.node "union_type", none, entries, none, [], none, [], text⟩ : TypeNode Kind).propType tsxCatalog =
      (entries.mapM (TypeNode.variantOf tsxCatalog)).map PropType.enum := by
  have unknown : tsxCatalog.typeName (.node "union_type") = unknownType := by decide
  have union : tsxCatalog.isUnion (.node "union_type") = true := by decide
  simp only [TypeNode.propType, properName?, Option.filter_none, unknown, ne_eq, not_true_eq_false, false_and, if_false,
    union, if_true]
  cases entries.mapM (TypeNode.variantOf tsxCatalog) <;> rfl

end Conversion

end ComponentDocs
