import ComponentDocs.Notice
import Mathlib.Data.List.Forall2

namespace ComponentDocs.Reporting

variable {α β : Type}

/-- From the notices before it, the computation gives a result and leaves the notices after it. -/
def Runs (computation : Reporting α) (before : List Notice) (result : α) (after : List Notice) : Prop :=
  computation.run.run before = (.ok result, after)

theorem run_bind (computation : Reporting α) (next : α → Reporting β) (before : List Notice) :
    (computation >>= next).run.run before =
      match computation.run.run before with
      | (.ok result, between) => (next result).run.run between
      | (.error failure, between) => (.error failure, between) := by
  change (ExceptT.bindCont next (computation.run.run before).1).run (computation.run.run before).2 = _
  rcases computation.run.run before with ⟨_ | _, _⟩ <;> rfl

theorem Runs.bind_iff {computation : Reporting α} {next : α → Reporting β} {before after : List Notice} {result : β} :
    (computation >>= next).Runs before result after ↔
      ∃ middle between, computation.Runs before middle between ∧ (next middle).Runs between result after := by
  simp only [Runs, run_bind]
  rcases computation.run.run before with ⟨failure | middle, between⟩
  · exact ⟨nofun, nofun⟩
  · constructor
    · exact fun ran => ⟨middle, between, rfl, ran⟩
    · rintro ⟨_, _, ⟨⟩, ran⟩
      exact ran

theorem Runs.lift_iff {outcome : Except Failure α} {before after : List Notice} {result : α} :
    (liftM outcome : Reporting α).Runs before result after ↔ outcome = .ok result ∧ before = after := by
  cases outcome with
  | error failure => exact ⟨nofun, nofun⟩
  | ok value =>
    constructor
    · rintro ⟨⟩
      exact ⟨rfl, rfl⟩
    · rintro ⟨⟨⟩, rfl⟩
      rfl

theorem Runs.report_iff {notice : Notice} {before after : List Notice} {result : Unit} :
    (report notice).Runs before result after ↔ before ++ [notice] = after :=
  ⟨fun ran => congrArg Prod.snd ran, fun same => congrArg (Prod.mk (Except.ok ())) same⟩

theorem Runs.of_mapM {items : List β} {f : β → Reporting α} {before after : List Notice} {results : List α}
    (ran : (items.mapM f).Runs before results after) :
    List.Forall₂ (fun item result => ∃ before after, (f item).Runs before result after) items results := by
  induction items generalizing before results with
  | nil =>
    cases ran
    exact .nil
  | cons item rest ih =>
    rw [List.mapM_cons] at ran
    obtain ⟨first, between, here, ran⟩ := Runs.bind_iff.mp ran
    obtain ⟨others, between', later, ran⟩ := Runs.bind_iff.mp ran
    cases ran
    exact .cons ⟨before, between, here⟩ (ih later)

theorem printed_eq_ok_iff {computation : Reporting α} {prints : Notice → Bool} {result : α} {notices : List Notice} :
    computation.printed prints = (.ok result, notices) ↔
      computation.Runs [] result notices ∧ notices.all prints = true := by
  rw [printed]
  change _ ↔ computation.result = _ ∧ _
  rcases computation.result with ⟨outcome, reported⟩
  dsimp only
  split
  · rename_i all
    constructor
    · rintro ⟨⟩
      exact ⟨rfl, all⟩
    · exact And.left
  · rename_i stops
    refine ⟨nofun, ?_⟩
    rintro ⟨⟨⟩, all⟩
    exact absurd all stops

/-- Whatever was reported before, the computation comes to this. -/
def Gives (computation : Reporting α) (outcome : Except Failure α) : Prop :=
  ∀ before, (computation.run.run before).1 = outcome

theorem Gives.result {computation : Reporting α} {outcome : Except Failure α} (gives : computation.Gives outcome) :
    computation.result.1 = outcome := gives []

namespace Gives

theorem eq_ok {computation : Reporting α} {outcome : Except Failure α} {before after : List Notice} {result : α}
    (gives : computation.Gives outcome) (ran : computation.Runs before result after) : outcome = .ok result := by
  rw [← gives before, ran]

theorem pure (result : α) : (pure result : Reporting α).Gives (.ok result) := fun _ => rfl

theorem lift (outcome : Except Failure α) : (liftM outcome : Reporting α).Gives outcome := by
  intro before
  cases outcome <;> rfl

theorem report (notice : Notice) : (report notice).Gives (.ok ()) := fun _ => rfl

theorem bind {computation : Reporting α} {outcome : Except Failure α} {next : α → Reporting β}
    {following : α → Except Failure β} (first : computation.Gives outcome)
    (later : ∀ result, (next result).Gives (following result)) :
    (computation >>= next).Gives (outcome >>= following) := by
  intro before
  rw [run_bind, ← first before]
  rcases computation.run.run before with ⟨failure | result, between⟩
  · rfl
  · exact later result between

theorem andThen {computation : Reporting α} {result : α} {next : α → Reporting β} {outcome : Except Failure β}
    (first : computation.Gives (.ok result)) (later : (next result).Gives outcome) :
    (computation >>= next).Gives outcome := by
  intro before
  have here := first before
  rw [run_bind]
  generalize computation.run.run before = ran at here ⊢
  rcases ran with ⟨failure | found, between⟩
  · cases here
  · cases here
    exact later between

theorem mapM {items : List β} {f : β → Reporting α} {g : β → Except Failure α}
    (each : ∀ item, (f item).Gives (g item)) : (items.mapM f).Gives (items.mapM g) := by
  induction items with
  | nil => exact pure []
  | cons item rest ih =>
    rw [List.mapM_cons, List.mapM_cons]
    apply (each item).bind
    intro result
    apply ih.bind
    intro results
    exact pure (result :: results)

theorem foldlM {σ : Type} {items : List β} {step : σ → β → Reporting σ} {act : σ → β → σ} {start : σ}
    (acts : ∀ state item, (step state item).Gives (.ok (act state item))) :
    (items.foldlM step start).Gives (.ok (items.foldl act start)) := by
  induction items generalizing start with
  | nil => exact pure start
  | cons item rest ih =>
    rw [List.foldlM_cons, List.foldl_cons]
    exact (acts start item).bind fun state => ih

end Gives

end ComponentDocs.Reporting
