import ComponentDocs.Text.Blank
import Mathlib.Data.List.DropRight

namespace ComponentDocs.Text

theorem dropEndWhile_eq_rdropWhile {α : Type} (holds : α → Bool) (items : List α) :
    dropEndWhile holds items = items.rdropWhile holds := by
  induction items with
  | nil => rfl
  | cons item rest ih =>
    rw [dropEndWhile, ih, List.rdropWhile, List.rdropWhile, List.reverse_cons, List.dropWhile_append]
    cases left : rest.reverse.dropWhile holds with
    | nil => cases ends : holds item <;> simp [ends]
    | cons last before => simp

theorem dropEndWhile_sublist {α : Type} (holds : α → Bool) (items : List α) :
    (dropEndWhile holds items).Sublist items := by
  rw [dropEndWhile_eq_rdropWhile]
  exact (List.rdropWhile_prefix holds items).sublist

theorem first_of_dropEnds {α : Type} {holds : α → Bool} {items rest : List α} {first : α}
    (left : dropEndWhile holds (items.dropWhile holds) = first :: rest) : holds first = false := by
  rw [dropEndWhile_eq_rdropWhile] at left
  obtain ⟨after, whole⟩ := List.rdropWhile_prefix holds (items.dropWhile holds)
  have start := List.head?_dropWhile_not holds items
  rw [← whole, left] at start
  exact start

theorem getLast?_dropEndWhile {α : Type} {holds : α → Bool} {items : List α} {last : α}
    (ends : (dropEndWhile holds items).getLast? = some last) : holds last = false := by
  rw [dropEndWhile_eq_rdropWhile] at ends
  have proper : items.rdropWhile holds ≠ [] := by
    intro none
    rw [none] at ends
    cases ends
  have kept := List.rdropWhile_last_not holds items proper
  rw [List.getLast?_eq_some_getLast proper] at ends
  rw [Option.some.inj ends] at kept
  exact Bool.not_eq_true _ ▸ kept

/-- Items of a class at the end of a list are dropped from its front only if all that follows them is dropped. -/
theorem dropEndWhile_append {α : Type} (holds : α → Bool) (items after : List α) :
    dropEndWhile holds (items ++ after) =
      if dropEndWhile holds after = [] then dropEndWhile holds items else items ++ dropEndWhile holds after := by
  simp only [dropEndWhile_eq_rdropWhile, List.rdropWhile, List.reverse_append, List.dropWhile_append]
  cases left : after.reverse.dropWhile holds with
  | nil => simp
  | cons _ _ => simp

theorem dropEndWhile_of_forall {α : Type} {holds : α → Bool} {items : List α} (all : ∀ item ∈ items, holds item) :
    dropEndWhile holds items = [] := by
  rw [dropEndWhile_eq_rdropWhile]
  exact List.rdropWhile_eq_nil_iff.mpr all

theorem exists_dropEndWhile {α : Type} (holds : α → Bool) (items : List α) :
    ∃ after, items = dropEndWhile holds items ++ after ∧ ∀ item ∈ after, holds item := by
  refine ⟨items.rtakeWhile holds, ?_, fun item member => List.mem_rtakeWhile_imp member⟩
  rw [dropEndWhile_eq_rdropWhile, List.rdropWhile_append_rtakeWhile]

theorem dropEndWhile_cons {α : Type} {holds : α → Bool} {item : α} (rest : List α) (solid : holds item = false) :
    dropEndWhile holds (item :: rest) = item :: dropEndWhile holds rest := by
  rw [dropEndWhile, solid]
  cases left : dropEndWhile holds rest with
  | nil => simp
  | cons _ _ => rfl

def dropEnds {α : Type} (holds : α → Bool) (items : List α) : List α := dropEndWhile holds (items.dropWhile holds)

theorem dropEnds_append {α : Type} {holds : α → Bool} {items after : List α} (all : ∀ item ∈ after, holds item) :
    dropEnds holds (items ++ after) = dropEnds holds items := by
  rw [dropEnds, dropEnds, List.dropWhile_append]
  cases left : items.dropWhile holds with
  | nil =>
    have nothing : after.dropWhile holds = [] := List.dropWhile_eq_nil_iff.mpr all
    rw [List.isEmpty_nil, if_pos rfl, nothing]
  | cons item rest => exact (dropEndWhile_append holds _ _).trans (if_pos (dropEndWhile_of_forall all))

theorem dropEnds_of_forall_before {α : Type} {holds : α → Bool} {before : List α} (items : List α)
    (all : ∀ item ∈ before, holds item) : dropEnds holds (before ++ items) = dropEnds holds items := by
  rw [dropEnds, dropEnds, List.dropWhile_append_of_pos all]

theorem dropEndWhile_dropEnds {α : Type} (holds : α → Bool) (items : List α) :
    dropEndWhile holds (dropEnds holds items) = dropEnds holds items := by
  rw [dropEnds, dropEndWhile_eq_rdropWhile, dropEndWhile_eq_rdropWhile]
  exact List.rdropWhile_idempotent _ _

theorem dropEnds_dropEnds {α : Type} (holds : α → Bool) (items : List α) :
    dropEnds holds (dropEnds holds items) = dropEnds holds items := by
  cases left : dropEnds holds items with
  | nil => rfl
  | cons first rest =>
    have solid : holds first = false := first_of_dropEnds left
    have ends := dropEndWhile_dropEnds holds items
    rw [left] at ends
    rw [dropEnds, List.dropWhile_cons_of_neg (by simp [solid])]
    exact ends

theorem exists_dropEnds {α : Type} (holds : α → Bool) (items : List α) :
    ∃ before after, items = before ++ (dropEnds holds items ++ after) ∧ (∀ item ∈ before, holds item) ∧
      ∀ item ∈ after, holds item := by
  obtain ⟨after, whole, all⟩ := exists_dropEndWhile holds (items.dropWhile holds)
  refine ⟨items.takeWhile holds, after, ?_, fun item member => List.mem_takeWhile_imp member, all⟩
  rw [dropEnds, ← whole, List.takeWhile_append_dropWhile]

theorem trimEnd_append (text after : List Char) :
    trimEnd (text ++ after) = if trimEnd after = [] then trimEnd text else text ++ trimEnd after :=
  dropEndWhile_append isBlank text after

theorem trim_append {text after : List Char} (blank : ∀ c ∈ after, isBlank c) : trim (text ++ after) = trim text :=
  dropEnds_append blank

theorem trim_of_blank_before {before : List Char} (text : List Char) (blank : ∀ c ∈ before, isBlank c) :
    trim (before ++ text) = trim text :=
  dropEnds_of_forall_before text blank

theorem trim_trimEnd (text : List Char) : trim (trimEnd text) = trim text := by
  obtain ⟨after, whole, blank⟩ := exists_dropEndWhile isBlank text
  calc
    trim (trimEnd text) = trim (trimEnd text ++ after) := (trim_append blank).symm
    _ = trim text := congrArg trim whole.symm

theorem trim_sublist (text : List Char) : (trim text).Sublist text :=
  (dropEndWhile_sublist _ _).trans (List.dropWhile_sublist _)

theorem trimEnd_cons {c : Char} (rest : List Char) (solid : isBlank c = false) :
    trimEnd (c :: rest) = c :: trimEnd rest :=
  dropEndWhile_cons rest solid

theorem trim_cons {c : Char} (rest : List Char) (solid : isBlank c = false) : trim (c :: rest) = c :: trimEnd rest := by
  rw [trim, trimStart, List.dropWhile_cons_of_neg (by simp [solid]), trimEnd_cons rest solid]

theorem trimEnd_trim (text : List Char) : trimEnd (trim text) = trim text := dropEndWhile_dropEnds isBlank text

theorem solid_of_trim_cons {text rest : List Char} {c : Char} (trimmed : trim text = c :: rest) : isBlank c = false :=
  first_of_dropEnds trimmed

theorem trim_trim (text : List Char) : trim (trim text) = trim text := dropEnds_dropEnds isBlank text

theorem trimStart_of_trimmed {text : List Char} (trimmed : trim text = text) : trimStart text = text := by
  cases text with
  | nil => rfl
  | cons c rest =>
    have solid := solid_of_trim_cons trimmed
    rw [trimStart, List.dropWhile_cons_of_neg (by simp [solid])]

theorem trimEnd_of_trimmed {text : List Char} (trimmed : trim text = text) : trimEnd text = text := by
  have ends := trimEnd_trim text
  rw [trimmed] at ends
  exact ends

def Unbroken (text : List Char) : Prop := ∀ c ∈ text, isBreak c = false

instance : DecidablePred Unbroken := fun text => List.decidableBAll (fun c => isBreak c = false) text

theorem lines_cons {c : Char} (rest : List Char) (inLine : isBreak c = false) :
    lines (c :: rest) = (c :: (lines rest).headD []) :: (lines rest).tail := by
  have notReturn : c ≠ '\r' := by
    rintro rfl
    cases inLine
  rw [lines.eq_3 c rest (fun _ same => absurd same notReturn), inLine]
  cases lines rest <;> rfl

theorem lines_append {front rest line : List Char} {more : List (List Char)} (unbroken : Unbroken front)
    (follow : lines rest = line :: more) : lines (front ++ rest) = (front ++ line) :: more := by
  induction front with
  | nil => exact follow
  | cons c front ih =>
    have later := ih fun other member => unbroken other (List.mem_cons_of_mem _ member)
    rw [List.cons_append, lines_cons _ (unbroken c List.mem_cons_self), later]
    rfl

theorem lines_of_unbroken {text : List Char} (unbroken : Unbroken text) :
    lines text = if text = [] then [] else [text] := by
  induction text with
  | nil => rfl
  | cons c rest ih =>
    have later := ih fun other member => unbroken other (List.mem_cons_of_mem _ member)
    rw [lines_cons rest (unbroken c List.mem_cons_self), later, if_neg (List.cons_ne_nil c rest)]
    cases rest <;> rfl

theorem unbroken_of_mem_lines {text line : List Char} (member : line ∈ lines text) : Unbroken line := by
  fun_induction lines text generalizing line with
  | case1 => cases member
  | case2 rest ih =>
    rcases List.mem_cons.mp member with rfl | later
    · exact nofun
    · exact ih later
  | case3 c rest notPair ends ih =>
    rcases List.mem_cons.mp member with rfl | later
    · exact nofun
    · exact ih later
  | case4 c rest notPair inLine none ih =>
    rw [List.mem_singleton.mp member]
    intro other present
    rw [List.mem_singleton.mp present]
    exact Bool.not_eq_true _ ▸ inLine
  | case5 c rest notPair inLine first more follow ih =>
    rcases List.mem_cons.mp member with rfl | later
    · intro other present
      rcases List.mem_cons.mp present with rfl | inside
      · exact Bool.not_eq_true _ ▸ inLine
      · exact ih (by rw [follow]; exact List.mem_cons_self) other inside
    · exact ih (by rw [follow]; exact List.mem_cons_of_mem _ later)

inductive LineBreak where
  | lf
  | crlf
  | cr
deriving DecidableEq, Repr

def LineBreak.chars : LineBreak → List Char
  | .lf => ['\n']
  | .crlf => ['\r', '\n']
  | .cr => ['\r']

theorem lines_lineBreak (ending : LineBreak) {rest : List Char} (apart : rest.head? ≠ some '\n') :
    lines (ending.chars ++ rest) = [] :: lines rest := by
  cases ending with
  | lf => rfl
  | crlf => rfl
  | cr =>
    cases rest with
    | nil => rfl
    | cons c rest =>
      have notFeed : c ≠ '\n' := by
        rintro rfl
        exact apart rfl
      exact lines.eq_3 '\r' (c :: rest) (fun _ _ same => notFeed (List.cons.inj same).1)

theorem lines_joinWith {texts : List (List Char)} (unbroken : ∀ text ∈ texts, Unbroken text)
    (last : texts.getLast? ≠ some []) : lines (joinWith '\n' texts) = texts := by
  induction texts with
  | nil => rfl
  | cons first rest ih =>
    have here := unbroken first List.mem_cons_self
    cases rest with
    | nil =>
      have proper : first ≠ [] := by
        rintro rfl
        exact last rfl
      rw [joinWith, lines_of_unbroken here, if_neg proper]
    | cons second more =>
      have later := ih (fun text member => unbroken text (List.mem_cons_of_mem _ member)) (by simpa using last)
      have follow : lines ('\n' :: joinWith '\n' (second :: more)) = [] :: second :: more := by
        rw [lines.eq_3 _ _ (fun _ same => by cases same), later]
        rfl
      rw [joinWith, lines_append here follow, List.append_nil]
      exact nofun

theorem trimStart_joinWith {texts : List (List Char)} (trimmed : ∀ text ∈ texts, trim text = text) :
    trimStart (joinWith '\n' texts) = joinWith '\n' (texts.dropWhile List.isEmpty) := by
  induction texts with
  | nil => rfl
  | cons first rest ih =>
    have later := ih fun text member => trimmed text (List.mem_cons_of_mem _ member)
    cases first with
    | nil =>
      rw [List.dropWhile_cons_of_pos rfl, ← later]
      cases rest <;> rfl
    | cons c chars =>
      have solid := solid_of_trim_cons (trimmed (c :: chars) List.mem_cons_self)
      rw [List.dropWhile_cons_of_neg (by simp)]
      cases rest with
      | nil => exact trimStart_of_trimmed (trimmed _ List.mem_cons_self)
      | cons second more => exact List.dropWhile_cons_of_neg (by simp [solid])

theorem joinWith_ne_nil {texts : List (List Char)} (proper : texts ≠ []) (last : texts.getLast? ≠ some []) :
    joinWith '\n' texts ≠ [] := by
  match texts with
  | [] => exact absurd rfl proper
  | [text] =>
    rintro rfl
    exact last rfl
  | first :: second :: more =>
    rw [joinWith]
    · exact List.append_ne_nil_of_right_ne_nil _ (List.cons_ne_nil _ _)
    · exact nofun

theorem trimEnd_joinWith {texts : List (List Char)} (trimmed : ∀ text ∈ texts, trim text = text) :
    trimEnd (joinWith '\n' texts) = joinWith '\n' (dropEndWhile List.isEmpty texts) := by
  induction texts with
  | nil => rfl
  | cons first rest ih =>
    have later := ih fun text member => trimmed text (List.mem_cons_of_mem _ member)
    have here := trimEnd_of_trimmed (trimmed first List.mem_cons_self)
    have alone : joinWith '\n' (if first.isEmpty then [] else [first]) = first := by cases first <;> rfl
    cases rest with
    | nil => exact here.trans alone.symm
    | cons second more =>
      have solid : (dropEndWhile List.isEmpty (second :: more)).getLast? ≠ some [] := by
        intro last
        cases getLast?_dropEndWhile last
      have feed (text : List Char) :
          trimEnd ('\n' :: text) = if trimEnd text = [] then [] else '\n' :: trimEnd text := trimEnd_append ['\n'] text
      rw [joinWith, dropEndWhile, trimEnd_append, feed, later]
      · cases kept : dropEndWhile List.isEmpty (second :: more) with
        | nil => exact here.trans alone.symm
        | cons next others =>
          rw [kept] at solid
          rw [if_neg (joinWith_ne_nil (List.cons_ne_nil _ _) solid), if_neg (List.cons_ne_nil _ _)]
          rfl
      · exact nofun

theorem trim_joinWith {texts : List (List Char)} (trimmed : ∀ text ∈ texts, trim text = text) :
    trim (joinWith '\n' texts) = joinWith '\n' (dropEndWhile List.isEmpty (texts.dropWhile List.isEmpty)) := by
  rw [trim, trimStart_joinWith trimmed, trimEnd_joinWith]
  intro text member
  exact trimmed text ((List.dropWhile_sublist _).subset member)

end ComponentDocs.Text
