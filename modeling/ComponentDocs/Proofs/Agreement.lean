import Mathlib.Data.List.Forall2

namespace ComponentDocs

/-- Both computations fail with the same error, or both succeed and the results are related. -/
inductive Agree {ε α β : Type} (related : α → β → Prop) : Except ε α → Except ε β → Prop where
  | ok {a : α} {b : β} (holds : related a b) : Agree related (.ok a) (.ok b)
  | error (problem : ε) : Agree related (.error problem) (.error problem)

namespace Agree

variable {ε α β γ δ : Type} {related : α → β → Prop} {after : γ → δ → Prop}
  {left : Except ε α} {right : Except ε β}

theorem refl (outcome : Except ε α) : Agree Eq outcome outcome := by
  cases outcome with
  | ok result => exact .ok rfl
  | error problem => exact .error problem

theorem pure {a : α} {b : β} (holds : related a b) :
    Agree related (pure a : Except ε α) (pure b : Except ε β) := .ok holds

theorem mono {weaker : α → β → Prop} (agree : Agree related left right)
    (implies : ∀ a b, related a b → weaker a b) : Agree weaker left right := by
  cases agree with
  | ok holds => exact .ok (implies _ _ holds)
  | error problem => exact .error problem

theorem bind {next : α → Except ε γ} {next' : β → Except ε δ} (first : Agree related left right)
    (following : ∀ a b, related a b → Agree after (next a) (next' b)) :
    Agree after (left >>= next) (right >>= next') := by
  cases first with
  | ok holds => exact following _ _ holds
  | error problem => exact .error problem

theorem map {f : α → γ} {g : β → δ} (first : Agree related left right)
    (implies : ∀ a b, related a b → after (f a) (g b)) : Agree after (left.map f) (right.map g) := by
  cases first with
  | ok holds => exact .ok (implies _ _ holds)
  | error problem => exact .error problem

theorem map_eq {left right : Except ε α} {view : α → γ} (agree : Agree (fun a b => view a = view b) left right) :
    left.map view = right.map view := by
  cases agree with
  | ok holds => exact congrArg Except.ok holds
  | error problem => rfl

theorem eq {left right : Except ε α} (agree : Agree Eq left right) : left = right := by
  cases agree with
  | ok holds => exact congrArg Except.ok holds
  | error problem => rfl

theorem mapM {items : List γ} {items' : List δ} {f : γ → Except ε α} {g : δ → Except ε β}
    (each : List.Forall₂ (fun item item' => Agree related (f item) (g item')) items items') :
    Agree (List.Forall₂ related) (items.mapM f) (items'.mapM g) := by
  induction each with
  | nil => exact .pure .nil
  | cons here _ ih =>
    rw [List.mapM_cons, List.mapM_cons]
    refine here.bind ?_
    intro a b holds
    refine ih.bind ?_
    intro rest rest' all
    exact .pure (.cons holds all)

theorem foldlM {items : List γ} {items' : List δ} {step : α → γ → Except ε α} {step' : β → δ → Except ε β}
    {start : α} {start' : β} (initial : related start start')
    (each : List.Forall₂ (fun item item' => ∀ a b, related a b → Agree related (step a item) (step' b item'))
      items items') :
    Agree related (items.foldlM step start) (items'.foldlM step' start') := by
  induction each generalizing start start' with
  | nil => exact .pure initial
  | cons here _ ih =>
    rw [List.foldlM_cons, List.foldlM_cons]
    refine (here start start' initial).bind ?_
    intro a b holds
    exact ih holds

theorem trans {related : α → α → Prop} (transitive : ∀ a b c, related a b → related b c → related a c)
    {left middle right : Except ε α} (first : Agree related left middle) (second : Agree related middle right) :
    Agree related left right := by
  cases first with
  | ok holds =>
    cases second with
    | ok next => exact .ok (transitive _ _ _ holds next)
  | error problem => exact second

theorem mapM_perm {items items' : List γ} {f : γ → Except ε α}
    (alike : ∀ item item' problem problem', f item = .error problem → f item' = .error problem' → problem = problem')
    (perm : items.Perm items') : Agree List.Perm (items.mapM f) (items'.mapM f) := by
  induction perm with
  | nil => exact .pure (.refl _)
  | cons item _ ih =>
    rw [List.mapM_cons, List.mapM_cons]
    refine (Agree.refl (f item)).bind ?_
    rintro a _ rfl
    refine ih.bind ?_
    intro rest rest' holds
    exact .pure (holds.cons a)
  | swap item item' rest =>
    simp only [List.mapM_cons]
    cases here : f item with
    | error problem =>
      cases there : f item' with
      | error problem' =>
        cases alike item item' problem problem' here there
        exact .error problem
      | ok b => exact .error problem
    | ok a =>
      cases there : f item' with
      | error problem => exact .error problem
      | ok b =>
        cases rest.mapM f with
        | error problem => exact .error problem
        | ok found => exact .ok (.swap a b found)
  | trans _ _ ih ih' => exact ih.trans (fun _ _ _ first second => first.trans second) ih'

end Agree

end ComponentDocs
