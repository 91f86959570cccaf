import Mathlib.Logic.Relation

namespace ComponentDocs

variable {α : Type}

/-- A search that still has to look at the pending nodes, and has been at the visited ones, comes to the nodes of
`order` for the first time, in this order. What a new node leads to is looked at before the rest. -/
inductive FirstVisits (next : α → List α) : (pending visited order : List α) → Prop where
  | done {visited : List α} : FirstVisits next [] visited []
  | again {node : α} {pending visited order : List α} (seen : node ∈ visited)
      (rest : FirstVisits next pending visited order) : FirstVisits next (node :: pending) visited order
  | first {node : α} {pending visited order : List α} (fresh : node ∉ visited)
      (rest : FirstVisits next (next node ++ pending) (node :: visited) order) :
      FirstVisits next (node :: pending) visited (node :: order)

namespace FirstVisits

variable {next : α → List α} {pending visited order : List α}

theorem unique {other : List α} (visits : FirstVisits next pending visited order)
    (visits' : FirstVisits next pending visited other) : order = other := by
  induction visits generalizing other with
  | done =>
    cases visits'
    rfl
  | again seen _ ih =>
    cases visits' with
    | again _ rest => exact ih rest
    | first fresh _ => exact absurd seen fresh
  | first fresh _ ih =>
    cases visits' with
    | again seen _ => exact absurd seen fresh
    | first _ rest => rw [ih rest]

theorem append {later order' : List α} (visits : FirstVisits next pending visited order)
    (visits' : FirstVisits next later (order.reverse ++ visited) order') :
    FirstVisits next (pending ++ later) visited (order ++ order') := by
  induction visits with
  | done => exact visits'
  | again seen _ ih => exact .again seen (ih visits')
  | @first node pending visited order fresh _ ih =>
    have moved : (node :: order).reverse ++ visited = order.reverse ++ node :: visited := by simp
    rw [moved] at visits'
    have rest := ih visits'
    rw [List.append_assoc] at rest
    exact .first fresh rest

theorem singleton {node : α} (fresh : node ∉ visited) (rest : FirstVisits next (next node) (node :: visited) order) :
    FirstVisits next [node] visited (node :: order) := by
  apply first fresh
  rw [List.append_nil]
  exact rest

theorem reachable (visits : FirstVisits next pending visited order) {target : α} (visit : target ∈ order) :
    ∃ start ∈ pending, Relation.ReflTransGen (fun node after => after ∈ next node) start target := by
  induction visits with
  | done => cases visit
  | again _ _ ih =>
    obtain ⟨start, member, path⟩ := ih visit
    exact ⟨start, List.mem_cons_of_mem _ member, path⟩
  | @first node pending visited order _ _ ih =>
    rcases List.mem_cons.mp visit with same | later
    · exact ⟨node, List.mem_cons_self, same ▸ .refl⟩
    · obtain ⟨start, member, path⟩ := ih later
      rcases List.mem_append.mp member with below | beside
      · exact ⟨node, List.mem_cons_self, .head below path⟩
      · exact ⟨start, List.mem_cons_of_mem _ beside, path⟩

theorem pending_visited (visits : FirstVisits next pending visited order) {node : α} (member : node ∈ pending) :
    node ∈ order ∨ node ∈ visited := by
  induction visits with
  | done => cases member
  | again seen _ ih =>
    rcases List.mem_cons.mp member with same | later
    · exact .inr (same ▸ seen)
    · exact ih later
  | first _ _ ih =>
    rcases List.mem_cons.mp member with same | later
    · exact .inl (same ▸ List.mem_cons_self)
    · rcases ih (List.mem_append_right _ later) with new | old
      · exact .inl (List.mem_cons_of_mem _ new)
      · rcases List.mem_cons.mp old with same | before
        · exact .inl (same ▸ List.mem_cons_self)
        · exact .inr before

/-- When the search is over, whatever a new node leads to has been visited too: before it, or because of it. -/
theorem closed (visits : FirstVisits next pending visited order) {node after : α} (visit : node ∈ order)
    (edge : after ∈ next node) : after ∈ order ∨ after ∈ visited := by
  induction visits with
  | done => cases visit
  | again _ _ ih => exact ih visit
  | @first start pending visited order _ rest ih =>
    have seen : after ∈ order ∨ after ∈ start :: visited := by
      rcases List.mem_cons.mp visit with same | later
      · exact rest.pending_visited (List.mem_append_left _ (same ▸ edge))
      · exact ih later
    rcases seen with new | old
    · exact .inl (List.mem_cons_of_mem _ new)
    · rcases List.mem_cons.mp old with same | before
      · exact .inl (same ▸ List.mem_cons_self)
      · exact .inr before

/-- A search that starts afresh visits exactly the nodes that paths lead to. -/
theorem mem_iff_reachable {start target : α} (visits : FirstVisits next [start] [] order) :
    target ∈ order ↔ Relation.ReflTransGen (fun node after => after ∈ next node) start target := by
  constructor
  · intro visit
    obtain ⟨other, member, path⟩ := visits.reachable visit
    rw [List.mem_singleton.mp member] at path
    exact path
  · intro path
    induction path with
    | refl => exact (visits.pending_visited List.mem_cons_self).resolve_right List.not_mem_nil
    | tail _ edge ih => exact (visits.closed ih edge).resolve_right List.not_mem_nil

end FirstVisits

end ComponentDocs
