import ComponentDocs.Package.Author
import ComponentDocs.Proofs.Text.Lines

/-! The texts that are shorthands for authors. A text is read as a shorthand just if it is one, and it can be taken
apart in one way only. -/

namespace ComponentDocs

namespace CodePoint

theorem trim_eq_dropEnds (points : List CodePoint) : trim points = Text.dropEnds isBlank points := rfl

theorem trim_surrounded {before points after : List CodePoint} (blankBefore : ∀ point ∈ before, isBlank point)
    (blankAfter : ∀ point ∈ after, isBlank point) : trim (before ++ (points ++ after)) = trim points := by
  simp only [trim_eq_dropEnds]
  rw [Text.dropEnds_of_forall_before _ blankBefore, Text.dropEnds_append blankAfter]

theorem trimStart_append (points after : List CodePoint) :
    trimStart (points ++ after) =
      if trimStart points = [] then trimStart after else trimStart points ++ after := by
  rw [trimStart, trimStart, trimStart, List.dropWhile_append]
  simp only [List.isEmpty_iff]

theorem trimStart_of_blank {points : List CodePoint} (blank : ∀ point ∈ points, isBlank point) :
    trimStart points = [] :=
  List.dropWhile_eq_nil_iff.mpr blank

end CodePoint

namespace Author

open CodePoint (isBlank trim trimStart)

structure Gap where
  points : List CodePoint
  blank : ∀ point ∈ points, isBlank point

def Gap.none : Gap := ⟨[], nofun⟩

def Gap.append (first second : Gap) : Gap :=
  ⟨first.points ++ second.points, List.forall_mem_append.mpr ⟨first.blank, second.blank⟩⟩

structure Enclosed (opening closing : Char) where
  inside : List CodePoint
  unclosed : .char closing ∉ inside

namespace Enclosed

variable {opening closing : Char}

def points (part : Enclosed opening closing) : List CodePoint :=
  .char opening :: (part.inside ++ [.char closing])

def pointsOf (part : Option (Enclosed opening closing)) : List CodePoint := (part.map points).getD []

def insideOf (part : Option (Enclosed opening closing)) : List CodePoint := (part.map inside).getD []

end Enclosed

open Enclosed (pointsOf insideOf)

structure Ending where
  gap : Gap
  email : Option (Enclosed '<' '>')
  emailGap : Gap
  url : Option (Enclosed '(' ')')
  trailing : Gap

def Ending.afterEmail (ending : Ending) : List CodePoint :=
  ending.emailGap.points ++ (pointsOf ending.url ++ ending.trailing.points)

def Ending.text (ending : Ending) : List CodePoint :=
  ending.gap.points ++ (pointsOf ending.email ++ ending.afterEmail)

/-- A text that is a shorthand, taken apart. -/
structure Shorthand where
  leading : Gap
  name : List CodePoint
  trimmed : trim name = name
  unmarked : ∀ point ∈ name, isNamePoint point
  ending : Ending

namespace Shorthand

def text (shorthand : Shorthand) : List CodePoint :=
  shorthand.leading.points ++ (shorthand.name ++ shorthand.ending.text)

def parts (shorthand : Shorthand) : Parts :=
  ⟨shorthand.name, insideOf shorthand.ending.email, insideOf shorthand.ending.url⟩

end Shorthand

theorem isNamePoint_of_isBlank {point : CodePoint} (blank : isBlank point) : isNamePoint point := by
  have notMark (mark : Char) (solid : Text.isBlank mark = false) : point ≠ .char mark := by
    rintro rfl
    cases solid.symm.trans blank
  simp [isNamePoint, notMark '<' (by decide), notMark '(' (by decide)]

theorem Gap.named (gap : Gap) : ∀ point ∈ gap.points, isNamePoint point := fun point member =>
  isNamePoint_of_isBlank (gap.blank point member)

theorem Gap.mark_not_mem (gap : Gap) (mark : Char) (solid : Text.isBlank mark = false) : .char mark ∉ gap.points := by
  intro present
  cases solid.symm.trans (gap.blank _ present)

theorem upTo?_of_closed {mark : Char} {inside : List CodePoint} (unclosed : .char mark ∉ inside)
    (after : List CodePoint) : upTo? mark (inside ++ .char mark :: after) = some (inside, after) := by
  induction inside with
  | nil => exact if_pos rfl
  | cons point rest ih =>
    have apart : point ≠ .char mark := fun same => unclosed (same ▸ List.mem_cons_self)
    have later := ih fun present => unclosed (List.mem_cons_of_mem _ present)
    rw [List.cons_append, upTo?, if_neg apart, later]
    rfl

theorem closed_of_upTo? {mark : Char} {text inside after : List CodePoint}
    (found : upTo? mark text = some (inside, after)) :
    .char mark ∉ inside ∧ text = inside ++ .char mark :: after := by
  induction text generalizing inside with
  | nil => cases found
  | cons point rest ih =>
    rw [upTo?] at found
    split at found
    · rename_i same
      cases found
      exact ⟨List.not_mem_nil, by rw [same, List.nil_append]⟩
    · rename_i apart
      obtain ⟨⟨within, following⟩, later, joined⟩ := Option.map_eq_some_iff.mp found
      cases joined
      obtain ⟨unclosed, whole⟩ := ih later
      refine ⟨?_, by rw [whole, List.cons_append]⟩
      rintro (_ | ⟨_, present⟩)
      · exact apart rfl
      · exact unclosed present

theorem upTo?_eq_none {mark : Char} {text : List CodePoint} (absent : .char mark ∉ text) : upTo? mark text = none := by
  cases found : upTo? mark text with
  | none => rfl
  | some split =>
    obtain ⟨-, whole⟩ := closed_of_upTo? found
    rw [whole] at absent
    exact absurd (List.mem_append_right _ List.mem_cons_self) absent

theorem upTo?_append {mark : Char} (text : List CodePoint) {after : List CodePoint} (absent : .char mark ∉ after) :
    upTo? mark (text ++ after) = (upTo? mark text).map fun found => (found.1, found.2 ++ after) := by
  by_cases present : .char mark ∈ text
  · obtain ⟨inside, rest, whole, unclosed⟩ := List.eq_append_cons_of_mem present
    rw [whole, List.append_assoc, List.cons_append, upTo?_of_closed unclosed, upTo?_of_closed unclosed]
    rfl
  · have nowhere : .char mark ∉ text ++ after := by
      rw [List.mem_append]
      exact not_or.mpr ⟨present, absent⟩
    rw [upTo?_eq_none present, upTo?_eq_none nowhere]
    rfl

theorem url?_of_nothing {text : List CodePoint} (left : trimStart text = []) : url? text = some [] := by
  rw [url?, left]

theorem url?_of_open {text rest : List CodePoint} (left : trimStart text = .char '(' :: rest) :
    url? text = (upTo? ')' rest).bind fun found => if found.2.all isBlank then some found.1 else none := by
  rw [url?, left]
  split
  · rename_i same
    cases same
  · rename_i same
    cases same
    cases upTo? ')' rest <;> rfl
  · rename_i other
    exact absurd rfl (other rest)

theorem url?_of_other {text rest : List CodePoint} {point : CodePoint} (left : trimStart text = point :: rest)
    (apart : point ≠ .char '(') : url? text = none := by
  rw [url?, left]
  split
  · rename_i same
    cases same
  · rename_i same
    exact absurd (List.cons.inj same).1 apart
  · rfl

theorem url?_append (text : List CodePoint) (gap : Gap) : url? (text ++ gap.points) = url? text := by
  have extended := CodePoint.trimStart_append text gap.points
  cases left : trimStart text with
  | nil =>
    rw [left, if_pos rfl, CodePoint.trimStart_of_blank gap.blank] at extended
    rw [url?_of_nothing left, url?_of_nothing extended]
  | cons point rest =>
    rw [left, if_neg (List.cons_ne_nil _ _), List.cons_append] at extended
    by_cases opens : point = .char '('
    · rw [opens] at left extended
      rw [url?_of_open left, url?_of_open extended, upTo?_append rest (gap.mark_not_mem _ (by decide))]
      cases upTo? ')' rest with
      | none => rfl
      | some found => simp only [Option.map_some, Option.bind_some, List.all_append, List.all_eq_true.mpr gap.blank,
          Bool.and_true]
    · rw [url?_of_other left opens, url?_of_other extended opens]

theorem url?_of_parts (gap : Gap) (url : Option (Enclosed '(' ')')) (trailing : Gap) :
    url? (gap.points ++ (pointsOf url ++ trailing.points)) = some (insideOf url) := by
  rw [← List.append_assoc, url?_append]
  cases url with
  | none => exact url?_of_nothing (CodePoint.trimStart_of_blank (by simpa [pointsOf] using gap.blank))
  | some part =>
    have left : trimStart (gap.points ++ pointsOf (some part)) = .char '(' :: (part.inside ++ [.char ')']) := by
      rw [trimStart, List.dropWhile_append_of_pos gap.blank]
      rfl
    rw [url?_of_open left, upTo?_of_closed part.unclosed]
    rfl

theorem parts_of_url? {text url : List CodePoint} (found : url? text = some url) :
    ∃ (gap : Gap) (part : Option (Enclosed '(' ')')) (trailing : Gap),
      text = gap.points ++ (pointsOf part ++ trailing.points) ∧ insideOf part = url := by
  have whole : text = text.takeWhile isBlank ++ trimStart text := List.takeWhile_append_dropWhile.symm
  have blank : ∀ point ∈ text.takeWhile isBlank, isBlank point := fun point member => List.mem_takeWhile_imp member
  cases left : trimStart text with
  | nil =>
    rw [url?_of_nothing left] at found
    cases found
    rw [left] at whole
    exact ⟨⟨_, blank⟩, none, .none, whole, rfl⟩
  | cons point rest =>
    by_cases opens : point = .char '('
    · rw [opens] at left
      rw [url?_of_open left] at found
      obtain ⟨⟨inside, after⟩, closed, found⟩ := Option.bind_eq_some_iff.mp found
      obtain ⟨unclosed, within⟩ := closed_of_upTo? closed
      rw [Option.ite_none_right_eq_some] at found
      obtain ⟨ends, same⟩ := found
      refine ⟨⟨_, blank⟩, some ⟨inside, unclosed⟩, ⟨after, List.all_eq_true.mp ends⟩, ?_, Option.some.inj same⟩
      rw [left, within] at whole
      simpa [pointsOf, Enclosed.points] using whole
    · rw [url?_of_other left opens] at found
      cases found

def restParts? (name : List CodePoint) : List CodePoint → Option Parts
  | .char '<' :: rest => (upTo? '>' rest).bind fun found => (url? found.2).map fun url => ⟨name, found.1, url⟩
  | rest => (url? rest).map fun url => ⟨name, [], url⟩

theorem restParts?_of_other (name : List CodePoint) {rest : List CodePoint} (apart : rest.head? ≠ some (.char '<')) :
    restParts? name rest = (url? rest).map fun url => ⟨name, [], url⟩ := by
  rw [restParts?]
  rintro more rfl
  exact apart rfl

theorem parts?_eq (text : List CodePoint) :
    parts? text = restParts? (trim (text.takeWhile isNamePoint)) (text.dropWhile isNamePoint) := by
  rw [parts?]
  split
  · rename_i rest opens
    rw [opens, restParts?]
    cases upTo? '>' rest <;> rfl
  · rename_i apart
    rw [restParts?_of_other]
    intro opens
    obtain ⟨rest, opens⟩ := List.head?_eq_some_iff.mp opens
    exact apart rest opens

theorem parts?_of_front {front : List CodePoint} (rest : List CodePoint) (named : ∀ point ∈ front, isNamePoint point)
    (opens : ∀ point ∈ rest.head?, ¬ isNamePoint point) : parts? (front ++ rest) = restParts? (trim front) rest := by
  have stops : rest.takeWhile isNamePoint = [] ∧ rest.dropWhile isNamePoint = rest := by
    cases rest with
    | nil => exact ⟨rfl, rfl⟩
    | cons point more =>
      have mark := opens point rfl
      exact ⟨List.takeWhile_cons_of_neg mark, List.dropWhile_cons_of_neg mark⟩
  rw [parts?_eq, List.takeWhile_append_of_pos named, List.dropWhile_append_of_pos named, stops.1, stops.2,
    List.append_nil]

theorem stops_of_dropWhile (holds : CodePoint → Bool) (text : List CodePoint) :
    ∀ point ∈ (text.dropWhile holds).head?, ¬ holds point := by
  intro point first
  have stops := List.head?_dropWhile_not holds text
  rw [Option.mem_def.mp first] at stops
  simp [stops]

theorem exists_front (text : List CodePoint) :
    ∃ front rest, text = front ++ rest ∧ (∀ point ∈ front, isNamePoint point) ∧
      ∀ point ∈ rest.head?, ¬ isNamePoint point :=
  ⟨text.takeWhile isNamePoint, text.dropWhile isNamePoint, List.takeWhile_append_dropWhile.symm,
    fun _ member => List.mem_takeWhile_imp member, stops_of_dropWhile isNamePoint text⟩

theorem parts?_text (shorthand : Shorthand) : parts? shorthand.text = some shorthand.parts := by
  obtain ⟨leading, name, trimmed, unmarked, gap, email, emailGap, url, trailing⟩ := shorthand
  have read (after : Gap) : trim (leading.points ++ (name ++ after.points)) = name :=
    (CodePoint.trim_surrounded leading.blank after.blank).trans trimmed
  have front (after : Gap) : ∀ point ∈ leading.points ++ (name ++ after.points), isNamePoint point :=
    List.forall_mem_append.mpr ⟨leading.named, List.forall_mem_append.mpr ⟨unmarked, after.named⟩⟩
  simp only [Shorthand.text, Shorthand.parts, Ending.text, Ending.afterEmail]
  cases email with
  | some part =>
    have split := parts?_of_front (.char '<' :: (part.inside ++ .char '>' ::
      (emailGap.points ++ (pointsOf url ++ trailing.points)))) (front gap) (by simp [isNamePoint])
    rw [read gap, restParts?, upTo?_of_closed part.unclosed, Option.bind_some, url?_of_parts] at split
    simpa [pointsOf, Enclosed.points, insideOf] using split
  | none =>
    cases url with
    | some part =>
      have split := parts?_of_front (pointsOf (some part) ++ trailing.points) (front (gap.append emailGap))
        (by simp [pointsOf, Enclosed.points, isNamePoint])
      rw [read, restParts?_of_other _ (by simp [pointsOf, Enclosed.points])] at split
      have found := url?_of_parts .none (some part) trailing
      rw [Gap.none, List.nil_append] at found
      rw [found] at split
      simpa [Gap.append, pointsOf, insideOf] using split
    | none =>
      have split := parts?_of_front [] (front ((gap.append emailGap).append trailing)) (by simp)
      rw [read, restParts?_of_other _ (by simp), url?_of_nothing rfl] at split
      simpa [Gap.append, pointsOf, insideOf] using split

/-- The blanks around a name belong to the gaps, so a front that has some is no obstacle. -/
theorem exists_shorthand {front : List CodePoint} (named : ∀ point ∈ front, isNamePoint point) (ending : Ending) :
    ∃ shorthand : Shorthand, shorthand.text = front ++ ending.text ∧
      shorthand.parts = ⟨trim front, insideOf ending.email, insideOf ending.url⟩ := by
  obtain ⟨before, after, whole, blankBefore, blankAfter⟩ := Text.exists_dropEnds isBlank front
  have trimmed : trim (trim front) = trim front := Text.dropEnds_dropEnds isBlank front
  have unmarked : ∀ point ∈ trim front, isNamePoint point := by
    intro point member
    apply named
    rw [whole]
    exact List.mem_append_right _ (List.mem_append_left _ member)
  refine ⟨⟨⟨before, blankBefore⟩, trim front, trimmed, unmarked,
    { ending with gap := .append ⟨after, blankAfter⟩ ending.gap }⟩, ?_, rfl⟩
  calc
    _ = before ++ (trim front ++ after) ++ ending.text := by
      simp [Shorthand.text, Ending.text, Ending.afterEmail, Gap.append]
    _ = front ++ ending.text := congrArg (· ++ ending.text) whole.symm

theorem shorthand_of_parts? {text : List CodePoint} {parts : Parts} (found : parts? text = some parts) :
    ∃ shorthand : Shorthand, shorthand.text = text ∧ shorthand.parts = parts := by
  obtain ⟨front, rest, rfl, named, opens⟩ := exists_front text
  rw [parts?_of_front _ named opens] at found
  by_cases address : rest.head? = some (.char '<')
  · obtain ⟨more, rfl⟩ := List.head?_eq_some_iff.mp address
    rw [restParts?] at found
    obtain ⟨⟨inside, following⟩, closed, found⟩ := Option.bind_eq_some_iff.mp found
    obtain ⟨url, ended, rfl⟩ := Option.map_eq_some_iff.mp found
    obtain ⟨unclosed, rfl⟩ := closed_of_upTo? closed
    obtain ⟨gap, part, trailing, rfl, rfl⟩ := parts_of_url? ended
    obtain ⟨shorthand, written, read⟩ :=
      exists_shorthand named ⟨.none, some ⟨inside, unclosed⟩, gap, part, trailing⟩
    refine ⟨shorthand, ?_, read⟩
    rw [written]
    simp [Ending.text, Ending.afterEmail, Gap.none, pointsOf, Enclosed.points]
  · rw [restParts?_of_other _ address] at found
    obtain ⟨url, ended, rfl⟩ := Option.map_eq_some_iff.mp found
    obtain ⟨gap, part, trailing, rfl, rfl⟩ := parts_of_url? ended
    exact exists_shorthand named ⟨.none, none, gap, part, trailing⟩

theorem parts?_before (gap : Gap) (text : List CodePoint) : parts? (gap.points ++ text) = parts? text := by
  obtain ⟨front, rest, rfl, named, opens⟩ := exists_front text
  have read : trim (gap.points ++ front) = trim front := Text.dropEnds_of_forall_before _ gap.blank
  rw [← List.append_assoc, parts?_of_front _ (List.forall_mem_append.mpr ⟨gap.named, named⟩) opens, read,
    parts?_of_front _ named opens]

theorem restParts?_append (name rest : List CodePoint) (gap : Gap) :
    restParts? name (rest ++ gap.points) = restParts? name rest := by
  by_cases address : rest.head? = some (.char '<')
  · obtain ⟨more, rfl⟩ := List.head?_eq_some_iff.mp address
    rw [List.cons_append, restParts?, restParts?, upTo?_append more (gap.mark_not_mem _ (by decide))]
    cases upTo? '>' more with
    | none => rfl
    | some found => simp only [Option.map_some, Option.bind_some, url?_append]
  · have apart : (rest ++ gap.points).head? ≠ some (.char '<') := by
      cases rest with
      | nil =>
        intro first
        exact gap.mark_not_mem '<' (by decide) (List.mem_of_head? first)
      | cons point more => exact address
    rw [restParts?_of_other _ address, restParts?_of_other _ apart, url?_append]

theorem parts?_after (text : List CodePoint) (gap : Gap) : parts? (text ++ gap.points) = parts? text := by
  obtain ⟨front, rest, rfl, named, opens⟩ := exists_front text
  cases rest with
  | nil =>
    -- the whole text is a name, which goes on through the blanks
    have read : trim (front ++ gap.points) = trim front := Text.dropEnds_append gap.blank
    have longer := parts?_of_front _ (List.forall_mem_append.mpr ⟨named, gap.named⟩) opens
    rw [read, ← parts?_of_front _ named opens] at longer
    simpa only [List.append_nil] using longer
  | cons point more =>
    rw [List.append_assoc, parts?_of_front _ named (by simpa using opens), restParts?_append,
      parts?_of_front _ named opens]

end Author

end ComponentDocs
