import ComponentDocs.Proofs.Agreement
import ComponentDocs.Proofs.Success
import ComponentDocs.Syntax.Members

/-! How far inherited members are followed. Every step to a base takes a declared name off, so a search that is allowed
as many steps as there are names left finds what any longer one finds. -/

namespace ComponentDocs

variable {κ : Type} [DecidableEq κ] {catalog : Catalog κ} {file : SourceFile κ} {imports : Bindings String String}

def SourceFile.declaredNames (file : SourceFile κ) : List String :=
  file.statements.filterMap fun statement => statement.name?.map (·.text)

/-- How many declarations have a name that was not visited. -/
def SourceFile.openNames (file : SourceFile κ) (visited : List String) : Nat :=
  (file.declaredNames.filter fun name => name ∉ visited).length

omit [DecidableEq κ] in
theorem SourceFile.openNames_le_length (file : SourceFile κ) (visited : List String) :
    file.openNames visited ≤ file.statements.length :=
  Nat.le_trans (List.length_filter_le _ _) (List.length_filterMap_le _ _)

omit [DecidableEq κ] in
theorem SourceFile.openNames_anti (file : SourceFile κ) {visited later : List String} (grown : visited ⊆ later) :
    file.openNames later ≤ file.openNames visited := by
  have fewer : (file.declaredNames.filter fun name => name ∉ later).Sublist
      (file.declaredNames.filter fun name => name ∉ visited) := by
    apply List.monotone_filter_right
    intro name fresh
    have unseen : name ∉ later := of_decide_eq_true fresh
    exact decide_eq_true fun seen => unseen (grown seen)
  exact fewer.length_le

omit [DecidableEq κ] in
theorem SourceFile.openNames_cons_lt {name : String} {visited : List String} (declared : name ∈ file.declaredNames)
    (fresh : name ∉ visited) : file.openNames (name :: visited) < file.openNames visited := by
  have split : (file.declaredNames.filter fun other => other ∉ name :: visited) =
      (file.declaredNames.filter fun other => other ∉ visited).filter fun other => other ≠ name := by
    rw [List.filter_filter]
    apply List.filter_congr
    intro other _
    simp [not_or]
  have listed : name ∈ file.declaredNames.filter fun other => other ∉ visited :=
    List.mem_filter.mpr ⟨declared, decide_eq_true fresh⟩
  rw [SourceFile.openNames, SourceFile.openNames, split]
  apply List.length_filter_lt_length_iff_exists.mpr
  exact ⟨name, listed, by simp⟩

theorem Statement.declared_of_findMembers {name : String} {source : MemberSource κ} (statements : List (Statement κ))
    (found : Statement.findMembers catalog name statements = .ok (some source)) :
    name ∈ statements.filterMap fun statement => statement.name?.map (·.text) := by
  induction statements with
  | nil => cases found
  | cons first rest ih =>
    rw [Statement.findMembers] at found
    by_cases named : first.name?.any fun token => token.text == name
    · obtain ⟨token, present, same⟩ := (Option.any_eq_true _ _).mp named
      apply List.mem_filterMap.mpr
      exact ⟨first, List.mem_cons_self, by rw [present, Option.map_some, eq_of_beq same]⟩
    · rw [if_neg named] at found
      have later := ih found
      obtain ⟨statement, member, text⟩ := List.mem_filterMap.mp later
      exact List.mem_filterMap.mpr ⟨statement, List.mem_cons_of_mem _ member, text⟩

theorem SourceFile.visited_subset {depth : Nat} {name : String} {visited later : List String}
    {members : List (Member κ)}
    (computed : file.localMembers catalog imports depth name visited = .ok (members, later)) : visited ⊆ later := by
  induction depth generalizing name visited later members with
  | zero =>
    cases computed
    exact List.Subset.refl visited
  | succ depth ih =>
    rw [SourceFile.localMembers] at computed
    by_cases seen : name ∈ visited
    · rw [if_pos seen] at computed
      cases computed
      exact List.Subset.refl visited
    · rw [if_neg seen] at computed
      obtain ⟨found, -, computed⟩ := ok_of_bind computed
      rcases found with _ | ⟨own, bases⟩ | own
      · cases computed
        exact List.subset_cons_self name visited
      · have reached := invariant_of_foldlM (fun state => name :: visited ⊆ state.2) computed
          (List.Subset.refl _) (by
            intro state base _ next grown stepped
            obtain ⟨⟨inherited, more⟩, computed, stepped⟩ := ok_of_bind stepped
            cases stepped
            exact List.Subset.trans grown (ih computed))
        exact List.Subset.trans (List.subset_cons_self name visited) reached
      · cases computed
        exact List.subset_cons_self name visited

theorem SourceFile.localMembers_succ {depth : Nat} {name : String} {visited : List String}
    (enough : file.openNames visited < depth) :
    file.localMembers catalog imports (depth + 1) name visited =
      file.localMembers catalog imports depth name visited := by
  induction depth generalizing name visited with
  | zero => omega
  | succ depth ih =>
    rw [SourceFile.localMembers, SourceFile.localMembers]
    by_cases seen : name ∈ visited
    · rw [if_pos seen, if_pos seen]
    rw [if_neg seen, if_neg seen]
    cases searched : Statement.findMembers catalog name file.statements with
    | error problem => rfl
    | ok found =>
      rcases found with _ | ⟨own, bases⟩ | own
      · rfl
      · have declared : name ∈ file.declaredNames := Statement.declared_of_findMembers file.statements searched
        have fewer := SourceFile.openNames_cons_lt declared seen
        -- the names visited only grow from base to base, so that the bound holds at each of them
        have same : ∀ first second : List (Member κ) × List String,
            first = second ∧ name :: visited ⊆ first.2 → first = second := fun _ _ both => both.1
        apply Agree.eq
        refine Agree.mono ?_ same
        apply Agree.foldlM ⟨rfl, List.Subset.refl _⟩
        apply List.forall₂_same.mpr
        rintro base _ state _ ⟨rfl, grown⟩
        have bound := file.openNames_anti grown
        rw [ih (by omega)]
        cases computed : file.localMembers catalog imports depth base state.2 with
        | error problem => exact .error problem
        | ok result => exact .ok ⟨rfl, List.Subset.trans grown (SourceFile.visited_subset computed)⟩
      · rfl

/-- From as many steps as there are statements on, the number of steps makes no difference. -/
theorem SourceFile.localMembers_of_enough {depth : Nat} (enough : file.statements.length < depth) (name : String)
    (visited : List String) :
    file.localMembers catalog imports depth name visited =
      file.localMembers catalog imports (file.statements.length + 1) name visited := by
  induction depth with
  | zero => omega
  | succ depth ih =>
    rcases Nat.eq_or_lt_of_le (Nat.lt_succ_iff.mp enough) with reached | further
    · rw [reached]
    · have bound := file.openNames_le_length visited
      rw [SourceFile.localMembers_succ (by omega), ih further]

end ComponentDocs
