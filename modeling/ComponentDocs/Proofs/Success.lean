import Mathlib.Data.List.Forall2

namespace ComponentDocs

/-- The computation does not fail, and its result has a property. -/
def Succeeds {ε α : Type} (outcome : Except ε α) (post : α → Prop) : Prop :=
  ∃ result, outcome = .ok result ∧ post result

namespace Succeeds

variable {ε α β : Type} {outcome : Except ε α} {post : α → Prop}

theorem ok {result : α} (holds : post result) : Succeeds (.ok result : Except ε α) post := ⟨result, rfl, holds⟩

theorem pure {result : α} (holds : post result) : Succeeds (pure result : Except ε α) post := ⟨result, rfl, holds⟩

theorem mono {weaker : α → Prop} (succeeds : Succeeds outcome post) (implies : ∀ result, post result → weaker result) :
    Succeeds outcome weaker := by
  obtain ⟨result, computed, holds⟩ := succeeds
  exact ⟨result, computed, implies result holds⟩

theorem bind {next : α → Except ε β} {after : β → Prop} (first : Succeeds outcome post)
    (following : ∀ result, post result → Succeeds (next result) after) : Succeeds (outcome >>= next) after := by
  obtain ⟨result, rfl, holds⟩ := first
  exact following result holds

theorem map {f : α → β} {after : β → Prop} (first : Succeeds outcome post)
    (implies : ∀ result, post result → after (f result)) : Succeeds (outcome.map f) after := by
  obtain ⟨result, rfl, holds⟩ := first
  exact ⟨f result, rfl, implies result holds⟩

theorem mapM {items : List β} {f : β → Except ε α} (each : ∀ item ∈ items, Succeeds (f item) post) :
    Succeeds (items.mapM f) fun results => ∀ result ∈ results, post result := by
  induction items with
  | nil => exact pure (by simp)
  | cons item rest ih =>
    rw [List.mapM_cons]
    refine bind (each item List.mem_cons_self) ?_
    intro result holds
    refine bind (ih fun other member => each other (List.mem_cons_of_mem _ member)) ?_
    intro results all
    exact pure (List.forall_mem_cons.mpr ⟨holds, all⟩)

theorem foldlM {items : List β} {step : α → β → Except ε α} {start : α} (initial : post start)
    (keeps : ∀ state, post state → ∀ item ∈ items, Succeeds (step state item) post) :
    Succeeds (items.foldlM step start) post := by
  induction items generalizing start with
  | nil => exact pure initial
  | cons item rest ih =>
    rw [List.foldlM_cons]
    refine bind (keeps start initial item List.mem_cons_self) ?_
    intro state holds
    exact ih holds fun other kept later member => keeps other kept later (List.mem_cons_of_mem _ member)

end Succeeds

abbrev Returns {ε α : Type} (outcome : Except ε α) : Prop := Succeeds outcome fun _ => True

namespace Returns

variable {ε α β : Type} {outcome : Except ε α}

theorem ok (result : α) : Returns (.ok result : Except ε α) := ⟨result, rfl, trivial⟩

theorem pure (result : α) : Returns (pure result : Except ε α) := ⟨result, rfl, trivial⟩

theorem bind {next : α → Except ε β} (first : Returns outcome) (following : ∀ result, Returns (next result)) :
    Returns (outcome >>= next) :=
  Succeeds.bind first fun result _ => following result

theorem mapM {items : List β} {f : β → Except ε α} (each : ∀ item ∈ items, Returns (f item)) :
    Returns (items.mapM f) :=
  (Succeeds.mapM each).mono fun _ _ => trivial

end Returns

theorem ok_of_bind {ε α β : Type} {outcome : Except ε α} {next : α → Except ε β} {result : β}
    (computed : outcome >>= next = .ok result) : ∃ middle, outcome = .ok middle ∧ next middle = .ok result := by
  cases outcome with
  | error problem => cases computed
  | ok middle => exact ⟨middle, rfl, computed⟩

theorem error_of_bind {ε α β : Type} {outcome : Except ε α} {next : α → Except ε β} {problem : ε}
    (computed : outcome >>= next = .error problem) :
    outcome = .error problem ∨ ∃ value, outcome = .ok value ∧ next value = .error problem := by
  cases outcome with
  | error first =>
    cases computed
    exact .inl rfl
  | ok value => exact .inr ⟨value, rfl, computed⟩

theorem ok_of_map {ε α β : Type} {outcome : Except ε α} {f : α → β} {result : β}
    (computed : outcome.map f = .ok result) : ∃ value, outcome = .ok value ∧ f value = result := by
  cases outcome with
  | error problem => cases computed
  | ok value => exact ⟨value, rfl, Except.ok.inj computed⟩

theorem error_of_map {ε α β : Type} {outcome : Except ε α} {f : α → β} {problem : ε}
    (computed : outcome.map f = .error problem) : outcome = .error problem := by
  cases outcome with
  | error first => exact congrArg Except.error (Except.error.inj computed)
  | ok value => cases computed

theorem ok_of_mapError {ε ε' α : Type} {outcome : Except ε α} {f : ε → ε'} {result : α}
    (computed : outcome.mapError f = .ok result) : outcome = .ok result := by
  cases outcome with
  | error problem => cases computed
  | ok value =>
    cases computed
    rfl

theorem forall₂_of_mapM {ε α β : Type} {items : List α} {f : α → Except ε β} {results : List β}
    (computed : items.mapM f = .ok results) : List.Forall₂ (fun item result => f item = .ok result) items results := by
  induction items generalizing results with
  | nil =>
    cases computed
    exact .nil
  | cons item rest ih =>
    rw [List.mapM_cons] at computed
    obtain ⟨first, here, computed⟩ := ok_of_bind computed
    obtain ⟨others, later, computed⟩ := ok_of_bind computed
    cases computed
    exact .cons here (ih later)

theorem exists_mem_of_mapM {ε α β : Type} {items : List α} {f : α → Except ε β} {results : List β} {item : α}
    (computed : items.mapM f = .ok results) (member : item ∈ items) : ∃ result ∈ results, f item = .ok result := by
  have each := forall₂_of_mapM computed
  clear computed
  induction each with
  | nil => cases member
  | cons here _ ih =>
    rcases List.mem_cons.mp member with rfl | later
    · exact ⟨_, List.mem_cons_self, here⟩
    · obtain ⟨result, present, there⟩ := ih later
      exact ⟨result, List.mem_cons_of_mem _ present, there⟩

theorem exists_of_mapM {ε α β : Type} {items : List α} {f : α → Except ε β} {results : List β} {item : α}
    (computed : items.mapM f = .ok results) (member : item ∈ items) : ∃ result, f item = .ok result := by
  obtain ⟨result, -, here⟩ := exists_mem_of_mapM computed member
  exact ⟨result, here⟩

theorem exists_left_of_forall₂ {α β : Type} {related : α → β → Prop} {items : List α} {others : List β} {other : β}
    (each : List.Forall₂ related items others) (member : other ∈ others) : ∃ item ∈ items, related item other := by
  induction each with
  | nil => cases member
  | cons here _ ih =>
    rcases List.mem_cons.mp member with rfl | later
    · exact ⟨_, List.mem_cons_self, here⟩
    · obtain ⟨item, present, there⟩ := ih later
      exact ⟨item, List.mem_cons_of_mem _ present, there⟩

theorem invariant_of_foldlM {ε α β : Type} {items : List β} {step : α → β → Except ε α} {start result : α}
    (inv : α → Prop) (computed : items.foldlM step start = .ok result) (initial : inv start)
    (keeps : ∀ state, ∀ item ∈ items, ∀ next, inv state → step state item = .ok next → inv next) : inv result := by
  induction items generalizing start with
  | nil =>
    cases computed
    exact initial
  | cons item rest ih =>
    rw [List.foldlM_cons] at computed
    obtain ⟨next, stepped, computed⟩ := ok_of_bind computed
    apply ih computed (keeps start item List.mem_cons_self next initial stepped)
    exact fun state other member => keeps state other (List.mem_cons_of_mem _ member)

theorem mapM_eq_ok_map {ε α β : Type} {items : List α} {f : α → Except ε β} {g : α → β}
    (each : ∀ item ∈ items, f item = .ok (g item)) : items.mapM f = .ok (items.map g) := by
  induction items with
  | nil => rfl
  | cons item rest ih =>
    rw [List.mapM_cons, each item List.mem_cons_self, ih fun other member => each other (List.mem_cons_of_mem _ member)]
    rfl

theorem mapM_congr {ε α β : Type} {items : List α} {f g : α → Except ε β} (each : ∀ item ∈ items, f item = g item) :
    items.mapM f = items.mapM g := by
  induction items with
  | nil => rfl
  | cons item rest ih =>
    rw [List.mapM_cons, List.mapM_cons, each item List.mem_cons_self,
      ih fun other member => each other (List.mem_cons_of_mem _ member)]

theorem mapM_singleton {ε α β : Type} (f : α → Except ε β) (item : α) :
    [item].mapM f = (f item).map fun result => [result] := by
  rw [List.mapM_cons]
  cases f item <;> rfl

theorem mapM_flatMap {ε α β : Type} {f : α → Except ε β} {g : α → List α} (items : List α)
    (each : ∀ item ∈ items, (g item).mapM f = (f item).map fun result => [result]) :
    (items.flatMap g).mapM f = items.mapM f := by
  induction items with
  | nil => rfl
  | cons item rest ih =>
    have later := ih fun other member => each other (List.mem_cons_of_mem _ member)
    rw [List.flatMap_cons, List.mapM_append, List.mapM_cons, each item List.mem_cons_self, later]
    cases f item with
    | error problem => rfl
    | ok result => rfl

theorem mapM_bind {ε α β γ : Type} {f : α → Except ε β} {g : β → Except ε γ} {items : List α} {results : List β}
    (computed : items.mapM f = .ok results) : (items.mapM fun item => f item >>= g) = results.mapM g := by
  have each := forall₂_of_mapM computed
  clear computed
  induction each with
  | nil => rfl
  | cons here _ ih =>
    rw [List.mapM_cons, List.mapM_cons, here, ih]
    rfl

theorem forall_iff_of_forall₂ {α β : Type} {related : α → β → Prop} {p : α → Prop} {q : β → Prop} {items : List α}
    {others : List β} (each : List.Forall₂ related items others) (same : ∀ a b, related a b → (p a ↔ q b)) :
    (∀ item ∈ items, p item) ↔ ∀ other ∈ others, q other := by
  induction each with
  | nil => simp
  | cons here _ ih => rw [List.forall_mem_cons, List.forall_mem_cons, same _ _ here, ih]

end ComponentDocs
