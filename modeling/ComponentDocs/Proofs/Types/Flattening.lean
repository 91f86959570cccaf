import ComponentDocs.Proofs.Shape.Conversion
import ComponentDocs.Proofs.Types.Branches

/-! How far unions are flattened. A union that stands in a union as such is taken apart; one in parentheses stays a
single branch. -/

namespace ComponentDocs

namespace Tree

mutual

/-- The leaves of a type: neither unions nor parentheses, unless there is nothing in them. -/
def leaves : Tree → List Tree
  | ⟨kind, field, start, stop, children⟩ =>
    if kind.name = "union_type" then leavesAll children
    else if kind.name = "parenthesized_type" then (leavesContent children).getD [⟨kind, field, start, stop, children⟩]
    else [⟨kind, field, start, stop, children⟩]

def leavesAll : List Tree → List Tree
  | [] => []
  | first :: rest => if first.isContent then leaves first ++ leavesAll rest else leavesAll rest

def leavesContent : List Tree → Option (List Tree)
  | [] => none
  | first :: rest => if first.isContent then some (leaves first) else leavesContent rest

end

/-- The kind that a type is read with: that of its keyword if it has one. -/
def readKind (tree : Tree) : Kind :=
  if tree.kind.name = "predefined_type" then (tree.children.head?.map (·.kind)).getD tree.kind else tree.kind

def isReadAsUnion (tree : Tree) : Bool := tree.bare.any fun inner => inner.readKind == .node "union_type"

mutual

theorem content_of_mem_branches {branch : Tree} :
    (tree : Tree) → tree.isContent → branch ∈ tree.branches → branch.isContent
  | ⟨kind, field, start, stop, children⟩, content, member => by
    rw [branches] at member
    split at member
    · exact content_of_mem_branchesAll children member
    · rw [List.mem_singleton.mp member]
      exact content

theorem content_of_mem_branchesAll {branch : Tree} :
    (trees : List Tree) → branch ∈ branchesAll trees → branch.isContent
  | [], member => by cases member
  | first :: rest, member => by
    rw [branchesAll] at member
    split at member
    · rename_i content
      rcases List.mem_append.mp member with here | later
      · exact content_of_mem_branches first content here
      · exact content_of_mem_branchesAll rest later
    · exact content_of_mem_branchesAll rest member

end

theorem leaves_of_union {tree : Tree} (union : tree.kind.name = "union_type") :
    tree.leaves = leavesAll tree.children := by
  obtain ⟨kind, field, start, stop, children⟩ := tree
  rw [leaves]
  exact if_pos union

mutual

theorem leaves_eq_flatMap : (tree : Tree) → tree.leaves = tree.branches.flatMap leaves
  | ⟨kind, field, start, stop, children⟩ => by
    by_cases union : kind = .node "union_type"
    · rw [leaves_of_union (by rw [union]; rfl), branches_of_union union]
      exact leavesAll_eq_flatMap children
    · rw [branches_of_other union, List.flatMap_singleton]

theorem leavesAll_eq_flatMap : (trees : List Tree) → leavesAll trees = (branchesAll trees).flatMap leaves
  | [] => rfl
  | first :: rest => by
    rw [leavesAll, branchesAll]
    by_cases content : first.isContent
    · rw [if_pos content, if_pos content, List.flatMap_append, ← leaves_eq_flatMap first,
        ← leavesAll_eq_flatMap rest]
    · rw [if_neg content, if_neg content]
      exact leavesAll_eq_flatMap rest

end

mutual

theorem not_wrapper_of_bare {inner : Tree} : (tree : Tree) → inner ∈ tree.bare →
    ¬ (inner.kind.name = "type_annotation" ∨ inner.kind.name = "parenthesized_type")
  | ⟨kind, field, start, stop, children⟩, left => by
    rw [bare] at left
    split at left
    · exact not_wrapper_of_bareContent children left
    · rename_i plain
      cases left
      exact plain

theorem not_wrapper_of_bareContent {inner : Tree} : (trees : List Tree) → inner ∈ bareContent trees →
    ¬ (inner.kind.name = "type_annotation" ∨ inner.kind.name = "parenthesized_type")
  | [], left => by cases left
  | first :: rest, left => by
    rw [bareContent] at left
    split at left
    · exact not_wrapper_of_bare first left
    · exact not_wrapper_of_bareContent rest left

end

end Tree

namespace Conversion

open Utf8 (Bytes)

theorem kind_of_type {source : Bytes} {tree : Tree} {found : Option (TypeNode Kind)}
    (plain : ¬ (tree.kind.name = "type_annotation" ∨ tree.kind.name = "parenthesized_type"))
    (read : type source tree = .ok found) : ∃ node, found = some node ∧ node.kind = tree.readKind := by
  obtain ⟨kind, field, start, stop, children⟩ := tree
  have unread : TypeSort.of kind.name ≠ .predefined →
      Tree.readKind ⟨kind, field, start, stop, children⟩ = kind := by
    intro sort
    apply if_neg
    intro name
    exact sort (by rw [name]; rfl)
  rw [type] at read
  cases sort : TypeSort.of kind.name with
  | wrapper => exact absurd (Or.symm (names_of_typeSort sort)) plain
  | predefined =>
    simp only [sort] at read
    cases read
    exact ⟨_, rfl, (if_pos (names_of_typeSort sort)).symm⟩
  | reference | literal | other =>
    simp only [sort] at read
    cases read
    exact ⟨_, rfl, (unread (by simp [sort])).symm⟩
  | generic =>
    simp only [sort] at read
    split at read
    · cases read
    · cases read
      exact ⟨_, rfl, (unread (by simp [sort])).symm⟩
  | union | object =>
    simp only [sort] at read
    obtain ⟨parts, -, read⟩ := ok_of_bind read
    cases read
    exact ⟨_, rfl, (unread (by simp [sort])).symm⟩
  | function =>
    simp only [sort] at read
    obtain ⟨parameters, -, read⟩ := ok_of_bind read
    obtain ⟨result, -, read⟩ := ok_of_bind read
    cases read
    exact ⟨_, rfl, (unread (by simp [sort])).symm⟩

theorem noUnion_iff {source : Bytes} {tree : Tree} {found : Option (TypeNode Kind)}
    (read : type source tree = .ok found) :
    (∀ node ∈ found, tsxCatalog.isUnion node.kind = false) ↔ tree.isReadAsUnion = false := by
  rw [type_eq_bare] at read
  rw [Tree.isReadAsUnion]
  cases left : tree.bare with
  | none =>
    rw [left] at read
    cases read
    simp
  | some inner =>
    rw [left] at read
    obtain ⟨node, rfl, kind⟩ := kind_of_type (Tree.not_wrapper_of_bare tree left) read
    simp [isUnion_eq, kind]

mutual

theorem mapM_leaves (source : Bytes) : (tree : Tree) → tree.kind.named → tree.isReadAsUnion = false →
    tree.leaves.mapM (type source) = (type source tree).map fun entry => [entry]
  | ⟨kind, field, start, stop, children⟩, named, noUnion => by
    rw [Tree.isReadAsUnion, Tree.bare] at noUnion
    rw [Tree.leaves]
    by_cases union : kind.name = "union_type"
    · have whole : kind = .node "union_type" := Kind.eq_node named union
      rw [whole] at noUnion
      cases noUnion
    rw [if_neg union]
    by_cases group : kind.name = "parenthesized_type"
    · rw [if_pos (.inr group)] at noUnion
      have inside : type source ⟨kind, field, start, stop, children⟩ = typeContent source children := by
        rw [type, group]
        rfl
      rw [if_pos group]
      cases found : Tree.leavesContent children with
      | none => exact mapM_singleton _ _
      | some leaves =>
        rw [inside]
        exact mapM_leavesContent source children noUnion leaves found
    · rw [if_neg group]
      exact mapM_singleton _ _

theorem mapM_leavesContent (source : Bytes) : (trees : List Tree) →
    ((Tree.bareContent trees).any fun inner => inner.readKind == .node "union_type") = false →
    ∀ leaves, Tree.leavesContent trees = some leaves →
      leaves.mapM (type source) = (typeContent source trees).map fun entry => [entry]
  | [], _, leaves, found => by
    rw [Tree.leavesContent] at found
    cases found
  | first :: rest, noUnion, leaves, found => by
    rw [Tree.leavesContent] at found
    rw [Tree.bareContent] at noUnion
    rw [typeContent]
    by_cases content : first.isContent
    · rw [if_pos content] at noUnion found
      rw [if_pos content, ← Option.some.inj found]
      exact mapM_leaves source first (Bool.and_eq_true_iff.mp content).1 noUnion
    · rw [if_neg content] at noUnion found
      rw [if_neg content]
      exact mapM_leavesContent source rest noUnion leaves found

end

def leafVariant (source : Bytes) (leaf : Tree) : Except Malformed NamedType :=
  type source leaf >>= TypeNode.variantOf tsxCatalog

/-- The union is taken apart into its leaves. -/
structure Flattened (source : Bytes) (tree : Tree) (node : TypeNode Kind) : Prop where
  entries : tree.leaves.mapM (type source) = .ok node.branches
  noUnion : ∀ entry ∈ node.branches, ∀ inner ∈ entry, tsxCatalog.isUnion inner.kind = false
  variants : node.propType tsxCatalog = (tree.leaves.mapM (leafVariant source)).map PropType.enum

theorem type_of_union (source : Bytes) {tree : Tree} (union : tree.kind = .node "union_type") :
    type source tree = (tree.branches.mapM (type source)).map fun entries =>
      some ⟨tree.kind, none, entries, none, [], none, [], tree.text source⟩ := by
  obtain ⟨kind, field, start, stop, children⟩ := tree
  cases union
  rw [Tree.branches_of_union rfl, ← unionBranches_eq_mapM, type]
  cases unionBranches source children <;> rfl

end Conversion

open Conversion in
/-- The entries of a union are its branches, those of unions that stand among them as such included. This takes it apart
into its leaves exactly if no branch is read as a union, as one in parentheses is. -/
theorem union_flattened_iff (source : Utf8.Bytes) {tree : Tree} (union : tree.kind = .node "union_type") :
    type source tree = (tree.branches.mapM (type source)).map (fun entries =>
        some ⟨tree.kind, none, entries, none, [], none, [], tree.text source⟩) ∧
      ∀ node, type source tree = .ok (some node) →
        (Flattened source tree node ↔ ∀ branch ∈ tree.branches, branch.isReadAsUnion = false) := by
  have whole := type_of_union source union
  refine ⟨whole, ?_⟩
  intro node read
  rw [whole] at read
  cases computed : tree.branches.mapM (type source) with
  | error problem =>
    rw [computed] at read
    cases read
  | ok entries =>
    rw [computed] at read
    cases read
    have each := forall₂_of_mapM computed
    have apart := forall_iff_of_forall₂ each.flip fun _ _ read => noUnion_iff read
    constructor
    · intro flattened
      exact apart.mp flattened.noUnion
    · intro noUnion
      have leaves : tree.leaves.mapM (type source) = .ok entries := by
        rw [Tree.leaves_eq_flatMap, ← computed]
        apply mapM_flatMap
        intro branch member
        have content := Tree.content_of_mem_branches tree (by rw [Tree.isContent, Tree.isComment, union]; rfl) member
        exact mapM_leaves source branch (Bool.and_eq_true_iff.mp content).1 (noUnion branch member)
      refine ⟨leaves, apart.mpr noUnion, ?_⟩
      have variants := mapM_bind leaves (g := TypeNode.variantOf tsxCatalog)
      rw [union, propType_of_union, ← variants]
      rfl

def literalAt (start stop : Nat) : Tree :=
  ⟨.node "literal_type", none, start, stop, [⟨.node "string", none, start, stop, []⟩]⟩

def chainSource : Utf8.Bytes := Utf8.encode "'a' | 'b' | ('c')".toList

def chainUnion : Tree :=
  ⟨.node "union_type", none, 0, 17,
    [⟨.node "union_type", none, 0, 9, [literalAt 0 3, ⟨.keyword "|", none, 4, 5, []⟩, literalAt 6 9]⟩,
      ⟨.keyword "|", none, 10, 11, []⟩,
      ⟨.node "parenthesized_type", none, 12, 17,
        [⟨.keyword "(", none, 12, 13, []⟩, literalAt 13 16, ⟨.keyword ")", none, 16, 17, []⟩]⟩]⟩

open Conversion in
theorem chain_union_flattened :
    chainUnion.kind = .node "union_type" ∧
      ∃ node, type chainSource chainUnion = .ok (some node) ∧ Flattened chainSource chainUnion node ∧
        node.propType tsxCatalog = .ok (.enum [⟨"a", "string"⟩, ⟨"b", "string"⟩, ⟨"c", "string"⟩]) := by
  have union : chainUnion.kind = .node "union_type" := rfl
  have noUnion : ∀ branch ∈ chainUnion.branches, branch.isReadAsUnion = false := by decide
  obtain ⟨node, read⟩ : ∃ node, type chainSource chainUnion = .ok (some node) := ⟨_, rfl⟩
  have flattened := ((union_flattened_iff chainSource union).2 node read).mpr noUnion
  have variants : chainUnion.leaves.mapM (leafVariant chainSource) =
      .ok [⟨"a", "string"⟩, ⟨"b", "string"⟩, ⟨"c", "string"⟩] := by decide
  refine ⟨union, node, read, flattened, ?_⟩
  rw [flattened.variants, variants]
  rfl

def groupedSource : Utf8.Bytes := Utf8.encode "'a' | ('b' | 'c')".toList

def groupedUnion : Tree :=
  ⟨.node "union_type", none, 0, 17,
    [literalAt 0 3, ⟨.keyword "|", none, 4, 5, []⟩,
      ⟨.node "parenthesized_type", none, 6, 17,
        [⟨.keyword "(", none, 6, 7, []⟩,
          ⟨.node "union_type", none, 7, 16, [literalAt 7 10, ⟨.keyword "|", none, 11, 12, []⟩, literalAt 13 16]⟩,
          ⟨.keyword ")", none, 16, 17, []⟩]⟩]⟩

open Conversion in
theorem grouped_union_kept :
    groupedUnion.leaves.mapM (leafVariant groupedSource) =
        .ok [⟨"a", "string"⟩, ⟨"b", "string"⟩, ⟨"c", "string"⟩] ∧
      ∃ node, type groupedSource groupedUnion = .ok (some node) ∧ ¬ Flattened groupedSource groupedUnion node ∧
        node.propType tsxCatalog = .ok (.enum [⟨"a", "string"⟩, ⟨"", "$unknown"⟩]) := by
  have leaves : groupedUnion.leaves.mapM (leafVariant groupedSource) =
      .ok [⟨"a", "string"⟩, ⟨"b", "string"⟩, ⟨"c", "string"⟩] := by decide
  refine ⟨leaves, _, rfl, ?_, rfl⟩
  intro flattened
  have listed := flattened.variants
  rw [leaves] at listed
  revert listed
  decide

end ComponentDocs
