import ComponentDocs.Proofs.Types.Flattening
import ComponentDocs.Proofs.Types.Schema

namespace ComponentDocs

open Utf8 (Bytes)

/-- The name of the reference that a member declares as its type. The type of a signature is a function. -/
def Tree.declaredReference (source : Bytes) (node : Tree) : Option String :=
  if Conversion.MemberSort.of node.kind.name = .signature then none
  else (bareField "type" node.children).bind (referenceName source)

namespace Conversion

theorem referenceName_of_sort (source : Bytes) (tree : Tree)
    (notReference : TypeSort.of tree.kind.name ≠ .reference) (notGeneric : TypeSort.of tree.kind.name ≠ .generic) :
    tree.referenceName source = none := by
  apply Tree.referenceName_eq_none
  · exact fun name => notReference (by rw [name]; rfl)
  · exact fun name => notReference (by rw [name]; rfl)
  · exact fun name => notGeneric (by rw [name]; rfl)

theorem parts_of_type {source : Bytes} {tree : Tree} {found : Option (TypeNode Kind)}
    (plain : ¬ (tree.kind.name = "type_annotation" ∨ tree.kind.name = "parenthesized_type"))
    (read : type source tree = .ok found) :
    ∃ node, found = some node ∧ node.name = tree.referenceName source ∧
      (node.members = [] ∨ members source [] tree.children = .ok node.members) := by
  have unnamed := referenceName_of_sort source tree
  obtain ⟨kind, field, start, stop, children⟩ := tree
  rw [type] at read
  cases sort : TypeSort.of kind.name with
  | wrapper => exact absurd (Or.symm (names_of_typeSort sort)) plain
  | reference =>
    simp only [sort] at read
    cases read
    refine ⟨_, rfl, ?_, .inl rfl⟩
    rcases names_of_typeSort sort with name | name
    all_goals
      rw [Tree.referenceName, name]
      rfl
  | generic =>
    simp only [sort] at read
    split at read
    · cases read
    · rename_i written
      cases read
      refine ⟨_, rfl, ?_, .inl rfl⟩
      rw [Tree.referenceName, names_of_typeSort sort]
      exact (congrArg (Option.map (Tree.text source)) written).symm
  | predefined | literal | other =>
    simp only [sort] at read
    cases read
    exact ⟨_, rfl, (unnamed (by simp [sort]) (by simp [sort])).symm, .inl rfl⟩
  | union =>
    simp only [sort] at read
    obtain ⟨branches, -, read⟩ := ok_of_bind read
    cases read
    exact ⟨_, rfl, (unnamed (by simp [sort]) (by simp [sort])).symm, .inl rfl⟩
  | function =>
    simp only [sort] at read
    obtain ⟨parameters, -, read⟩ := ok_of_bind read
    obtain ⟨result, -, read⟩ := ok_of_bind read
    cases read
    exact ⟨_, rfl, (unnamed (by simp [sort]) (by simp [sort])).symm, .inl rfl⟩
  | object =>
    simp only [sort] at read
    obtain ⟨own, readOwn, read⟩ := ok_of_bind read
    cases read
    exact ⟨_, rfl, (unnamed (by simp [sort]) (by simp [sort])).symm, .inr readOwn⟩

theorem reference_of_type {source : Bytes} {tree : Tree} {found : Option (TypeNode Kind)}
    (read : type source tree = .ok found) : found.bind (·.name) = tree.bare.bind (Tree.referenceName source) := by
  rw [type_eq_bare] at read
  cases left : tree.bare with
  | none =>
    rw [left] at read
    cases read
    rfl
  | some inner =>
    rw [left] at read
    obtain ⟨node, rfl, name, -⟩ := parts_of_type (Tree.not_wrapper_of_bare tree left) read
    exact name

theorem typeField_eq (source : Bytes) (name : String) (trees : List Tree) :
    typeField source name trees =
      match Tree.field? name trees with
      | none => .ok none
      | some tree => type source tree := by
  induction trees with
  | nil => rfl
  | cons first rest ih =>
    rw [typeField, Tree.field?, List.find?_cons]
    cases first.fills name with
    | true => rfl
    | false => exact ih

theorem reference_of_typeField {source : Bytes} {name : String} {trees : List Tree} {found : Option (TypeNode Kind)}
    (read : typeField source name trees = .ok found) :
    found.bind (·.name) = (Tree.bareField name trees).bind (Tree.referenceName source) := by
  rw [typeField_eq] at read
  rw [Tree.bareField]
  split at read
  · rename_i absent
    cases read
    rw [absent]
    rfl
  · rename_i tree filled
    rw [filled]
    exact reference_of_type read

end Conversion

end ComponentDocs
