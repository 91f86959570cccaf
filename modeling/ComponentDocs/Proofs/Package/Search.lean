import ComponentDocs.Proofs.Package.Shorthand

/-! The shorthand for authors as a pattern. A search that tries the ways to take a text apart one after another, and
goes back where none leads on, finds the parts that are read without ever going back. -/

namespace ComponentDocs.Author

open CodePoint (isBlank trim)
open Enclosed (pointsOf insideOf)

section

variable {α β : Type}

def takings (holds : α → Bool) : List α → List (List α × List α)
  | [] => [([], [])]
  | item :: rest =>
    ([], item :: rest) :: if holds item then (takings holds rest).map fun way => (item :: way.1, way.2) else []

theorem mem_takings {holds : α → Bool} {items : List α} {way : List α × List α} :
    way ∈ takings holds items ↔ items = way.1 ++ way.2 ∧ ∀ item ∈ way.1, holds item := by
  obtain ⟨taken, left⟩ := way
  induction items generalizing taken with
  | nil =>
    rw [takings, List.mem_singleton, Prod.mk.injEq]
    constructor
    · rintro ⟨rfl, rfl⟩
      exact ⟨rfl, nofun⟩
    · rintro ⟨whole, -⟩
      exact List.append_eq_nil_iff.mp whole.symm
  | cons item rest ih =>
    rw [takings, List.mem_cons]
    constructor
    · rintro (nothing | further)
      · cases nothing
        exact ⟨rfl, nofun⟩
      · split at further
        · rename_i here
          obtain ⟨⟨more, after⟩, found, same⟩ := List.mem_map.mp further
          cases same
          obtain ⟨whole, later⟩ := (ih more).mp found
          exact ⟨congrArg (item :: ·) whole, List.forall_mem_cons.mpr ⟨here, later⟩⟩
        · cases further
    · rintro ⟨whole, all⟩
      cases taken with
      | nil => exact .inl (congrArg (([], ·)) whole.symm)
      | cons first more =>
        obtain ⟨rfl, whole⟩ := List.cons.inj whole
        obtain ⟨here, later⟩ := List.forall_mem_cons.mp all
        rw [if_pos here]
        exact .inr (List.mem_map.mpr ⟨(more, left), (ih more).mpr ⟨whole, later⟩, rfl⟩)

theorem takings_eq (holds : α → Bool) (items : List α) :
    ∃ fewer, takings holds items = fewer ++ [(items.takeWhile holds, items.dropWhile holds)] := by
  induction items with
  | nil => exact ⟨[], rfl⟩
  | cons item rest ih =>
    obtain ⟨fewer, later⟩ := ih
    rw [takings]
    by_cases here : holds item
    · rw [if_pos here, later, List.takeWhile_cons_of_pos here, List.dropWhile_cons_of_pos here]
      exact ⟨([], item :: rest) :: fewer.map fun way => (item :: way.1, way.2), by simp⟩
    · rw [if_neg here, List.takeWhile_cons_of_neg here, List.dropWhile_cons_of_neg here]
      exact ⟨[], rfl⟩

def pastBlanks (next : List CodePoint → Option β) (text : List CodePoint) : Option β :=
  (takings isBlank text).reverse.findSome? fun way => next way.2

def pastName (next : List CodePoint → List CodePoint → Option β) (text : List CodePoint) : Option β :=
  (takings isNamePoint text).findSome? fun way => next way.1 way.2

/-- The ways to read a part between marks: as much inside as possible first. -/
def enclosings (opening closing : Char) : List CodePoint → List (List CodePoint × List CodePoint)
  | [] => []
  | point :: rest =>
    if point = .char opening then
      (takings (· != .char closing) rest).reverse.filterMap fun way =>
        match way.2 with
        | [] => none
        | mark :: after => if mark = .char closing then some (way.1, after) else none
    else []

def pastPart (opening closing : Char) (next : List CodePoint → List CodePoint → Option β) (text : List CodePoint) :
    Option β :=
  (enclosings opening closing text ++ [([], text)]).findSome? fun way : List CodePoint × List CodePoint =>
    next way.1 way.2

def atEnd (result : β) (text : List CodePoint) : Option β :=
  if text = [] ∨ text = [.char '\n'] then some result else none

theorem gap_of_pastBlanks {next : List CodePoint → Option β} {text : List CodePoint} {result : β}
    (found : pastBlanks next text = some result) :
    ∃ (gap : Gap) (rest : List CodePoint), text = gap.points ++ rest ∧ next rest = some result := by
  obtain ⟨way, tried, succeeds⟩ := List.exists_of_findSome?_eq_some found
  obtain ⟨whole, blank⟩ := mem_takings.mp (List.mem_reverse.mp tried)
  exact ⟨⟨way.1, blank⟩, way.2, whole, succeeds⟩

theorem isSome_pastBlanks {next : List CodePoint → Option β} (gap : Gap) {rest : List CodePoint}
    (succeeds : (next rest).isSome) : (pastBlanks next (gap.points ++ rest)).isSome := by
  apply List.findSome?_isSome_iff.mpr
  exact ⟨(gap.points, rest), List.mem_reverse.mpr (mem_takings.mpr ⟨rfl, gap.blank⟩), succeeds⟩

theorem mem_enclosings {opening closing : Char} {text : List CodePoint} {way : List CodePoint × List CodePoint} :
    way ∈ enclosings opening closing text ↔
      ∃ part : Enclosed opening closing, text = part.points ++ way.2 ∧ part.inside = way.1 := by
  obtain ⟨inside, after⟩ := way
  cases text with
  | nil => simp [enclosings, Enclosed.points]
  | cons point rest =>
    rw [enclosings]
    constructor
    · intro tried
      split at tried
      · rename_i opens
        obtain ⟨⟨within, left⟩, taken, closed⟩ := List.mem_filterMap.mp tried
        obtain ⟨whole, unmarked⟩ := mem_takings.mp (List.mem_reverse.mp taken)
        cases left with
        | nil => cases closed
        | cons mark more =>
          obtain ⟨closes, same⟩ := Option.ite_none_right_eq_some.mp closed
          cases same
          have unclosed : .char closing ∉ within := fun present => by simpa using unmarked _ present
          refine ⟨⟨within, unclosed⟩, ?_, rfl⟩
          simp only at whole
          rw [opens, whole, closes]
          simp [Enclosed.points]
      · cases tried
    · rintro ⟨⟨within, unclosed⟩, whole, rfl⟩
      obtain ⟨opens, whole⟩ := List.cons.inj whole
      rw [if_pos opens]
      refine List.mem_filterMap.mpr ⟨(within, .char closing :: after), ?_, by simp⟩
      apply List.mem_reverse.mpr
      refine mem_takings.mpr ⟨by simpa using whole, ?_⟩
      intro other present
      have apart : other ≠ .char closing := fun same => unclosed (same ▸ present)
      simpa using apart

theorem part_of_pastPart {opening closing : Char} {next : List CodePoint → List CodePoint → Option β}
    {text : List CodePoint} {result : β} (found : pastPart opening closing next text = some result) :
    ∃ (part : Option (Enclosed opening closing)) (rest : List CodePoint),
      text = pointsOf part ++ rest ∧ next (insideOf part) rest = some result := by
  obtain ⟨way, tried, succeeds⟩ := List.exists_of_findSome?_eq_some found
  rcases List.mem_append.mp tried with enclosed | leftOut
  · obtain ⟨part, whole, same⟩ := mem_enclosings.mp enclosed
    refine ⟨some part, way.2, whole, ?_⟩
    rw [← succeeds, ← same]
    rfl
  · rw [List.mem_singleton.mp leftOut] at succeeds
    exact ⟨none, text, rfl, succeeds⟩

theorem isSome_pastPart {opening closing : Char} {next : List CodePoint → List CodePoint → Option β}
    (part : Option (Enclosed opening closing)) {rest : List CodePoint} (succeeds : (next (insideOf part) rest).isSome) :
    (pastPart opening closing next (pointsOf part ++ rest)).isSome := by
  apply List.findSome?_isSome_iff.mpr
  cases part with
  | none => exact ⟨([], rest), List.mem_append_right _ (List.mem_singleton.mpr rfl), succeeds⟩
  | some part =>
    exact ⟨(part.inside, rest), List.mem_append_left _ (mem_enclosings.mpr ⟨part, rfl, rfl⟩), succeeds⟩

end

def searchEnding : List CodePoint → Option (List CodePoint × List CodePoint) :=
  pastBlanks (pastPart '<' '>' fun email => pastBlanks (pastPart '(' ')' fun url => pastBlanks (atEnd (email, url))))

def searchName : List CodePoint → Option Parts :=
  pastName fun name rest => (searchEnding rest).map fun found => ⟨name, found.1, found.2⟩

def search : List CodePoint → Option Parts := pastBlanks searchName

theorem gap_of_atEnd {β : Type} {expected result : β} {text : List CodePoint}
    (found : atEnd expected text = some result) :
    (∀ point ∈ text, isBlank point) ∧ expected = result := by
  obtain ⟨ends, same⟩ := Option.ite_none_right_eq_some.mp found
  refine ⟨?_, Option.some.inj same⟩
  rcases ends with rfl | rfl
  · simp
  · exact List.forall_mem_singleton.mpr (by decide)

theorem ending_of_searchEnding {text : List CodePoint} {found : List CodePoint × List CodePoint}
    (succeeds : searchEnding text = some found) :
    ∃ ending : Ending, ending.text = text ∧ (insideOf ending.email, insideOf ending.url) = found := by
  obtain ⟨gap, rest, rfl, afterGap⟩ := gap_of_pastBlanks succeeds
  obtain ⟨email, rest, rfl, afterEmail⟩ := part_of_pastPart afterGap
  obtain ⟨emailGap, rest, rfl, afterEmailGap⟩ := gap_of_pastBlanks afterEmail
  obtain ⟨url, rest, rfl, afterUrl⟩ := part_of_pastPart afterEmailGap
  obtain ⟨trailing, rest, rfl, ended⟩ := gap_of_pastBlanks afterUrl
  obtain ⟨blank, same⟩ := gap_of_atEnd ended
  exact ⟨⟨gap, email, emailGap, url, trailing.append ⟨rest, blank⟩⟩, rfl, same⟩

theorem isSome_searchEnding (ending : Ending) : (searchEnding ending.text).isSome := by
  apply isSome_pastBlanks
  apply isSome_pastPart
  apply isSome_pastBlanks
  apply isSome_pastPart
  rw [← List.append_nil ending.trailing.points]
  apply isSome_pastBlanks
  rfl

theorem searchEnding_eq_some_iff {text email url : List CodePoint} :
    searchEnding text = some (email, url) ↔ parts? text = some ⟨[], email, url⟩ := by
  have read {found : List CodePoint × List CodePoint} (succeeds : searchEnding text = some found) :
      parts? text = some ⟨[], found.1, found.2⟩ := by
    obtain ⟨ending, rfl, rfl⟩ := ending_of_searchEnding succeeds
    exact parts?_text ⟨.none, [], rfl, by simp, ending⟩
  constructor
  · exact read
  · intro same
    obtain ⟨⟨leading, name, trimmed, unmarked, ending⟩, rfl, parts⟩ := shorthand_of_parts? same
    have nameless : name = [] := congrArg Parts.name parts
    subst nameless
    -- the blanks in front are those before the address
    have whole := isSome_searchEnding { ending with gap := leading.append ending.gap }
    have moved : ({ ending with gap := leading.append ending.gap } : Ending).text =
        Shorthand.text ⟨leading, [], trimmed, unmarked, ending⟩ := by
      simp [Ending.text, Ending.afterEmail, Shorthand.text, Gap.append]
    rw [moved] at whole
    obtain ⟨found, succeeds⟩ := Option.isSome_iff_exists.mp whole
    have unique := (read succeeds).symm.trans same
    cases unique
    exact succeeds

theorem searchEnding_before (gap : Gap) (text : List CodePoint) :
    searchEnding (gap.points ++ text) = searchEnding text := by
  apply Option.ext
  rintro ⟨email, url⟩
  rw [searchEnding_eq_some_iff, searchEnding_eq_some_iff, parts?_before]

theorem front_of_searchName {text : List CodePoint} {parts : Parts} (succeeds : searchName text = some parts) :
    ∃ rest, text = parts.name ++ rest ∧ (∀ point ∈ parts.name, isNamePoint point) ∧
      searchEnding rest = some (parts.email, parts.url) := by
  obtain ⟨⟨name, rest⟩, tried, succeeds⟩ := List.exists_of_findSome?_eq_some succeeds
  obtain ⟨whole, named⟩ := mem_takings.mp tried
  obtain ⟨found, ended, rfl⟩ := Option.map_eq_some_iff.mp succeeds
  exact ⟨rest, whole, named, ended⟩

theorem isSome_searchName {front : List CodePoint} (named : ∀ point ∈ front, isNamePoint point) (ending : Ending) :
    (searchName (front ++ ending.text)).isSome := by
  apply List.findSome?_isSome_iff.mpr
  refine ⟨(front, ending.text), mem_takings.mpr ⟨rfl, named⟩, ?_⟩
  rw [Option.isSome_map]
  exact isSome_searchEnding ending

theorem parts?_of_searchName {text : List CodePoint} {parts : Parts} (succeeds : searchName text = some parts) :
    parts? text = some { parts with name := trim parts.name } := by
  obtain ⟨rest, rfl, named, ended⟩ := front_of_searchName succeeds
  obtain ⟨ending, rfl, said⟩ := ending_of_searchEnding ended
  obtain ⟨shorthand, written, read⟩ := exists_shorthand named ending
  obtain ⟨email, url⟩ := Prod.mk.inj said
  rw [← written, parts?_text, read, email, url]

theorem searchName_isSome (text : List CodePoint) : (searchName text).isSome = (parts? text).isSome := by
  rw [Bool.eq_iff_iff]
  constructor
  · intro succeeds
    obtain ⟨parts, succeeds⟩ := Option.isSome_iff_exists.mp succeeds
    rw [parts?_of_searchName succeeds]
    rfl
  · intro read
    obtain ⟨parts, read⟩ := Option.isSome_iff_exists.mp read
    obtain ⟨⟨leading, name, trimmed, unmarked, ending⟩, rfl, -⟩ := shorthand_of_parts? read
    rw [Shorthand.text, ← List.append_assoc]
    exact isSome_searchName (List.forall_mem_append.mpr ⟨leading.named, unmarked⟩) ending

theorem searchName_cons (point : CodePoint) (rest : List CodePoint) :
    searchName (point :: rest) =
      ((searchEnding (point :: rest)).map fun found => ⟨[], found.1, found.2⟩).or
        (if isNamePoint point then (searchName rest).map fun parts => { parts with name := point :: parts.name }
        else none) := by
  rw [searchName, pastName, takings, List.findSome?_cons]
  cases searchEnding (point :: rest) with
  | some found => rfl
  | none =>
    simp only [Option.map_none, Option.none_or]
    split
    · rw [List.findSome?_map, pastName, List.map_findSome?]
      simp [Function.comp_def]
    · rfl

/-- The name that is found first has no blanks at its end: without them, the rest would have been tried before. -/
theorem name_of_searchName {text : List CodePoint} {parts : Parts} (succeeds : searchName text = some parts) :
    Text.dropEndWhile isBlank parts.name = parts.name := by
  induction text generalizing parts with
  | nil =>
    obtain ⟨rest, whole, -, -⟩ := front_of_searchName succeeds
    rw [(List.append_eq_nil_iff.mp whole.symm).1]
    rfl
  | cons point rest ih =>
    rw [searchName_cons] at succeeds
    cases ended : searchEnding (point :: rest) with
    | some found =>
      rw [ended] at succeeds
      cases succeeds
      rfl
    | none =>
      rw [ended] at succeeds
      obtain ⟨-, later⟩ := Option.ite_none_right_eq_some.mp succeeds
      obtain ⟨shorter, found, rfl⟩ := Option.map_eq_some_iff.mp later
      have kept := ih found
      cases name : shorter.name with
      | cons first more =>
        rw [name] at kept
        rw [Text.dropEndWhile, kept]
      | nil =>
        have solid : isBlank point = false := by
          apply Bool.eq_false_iff.mpr
          intro blank
          obtain ⟨following, whole, -, endsThere⟩ := front_of_searchName found
          rw [name, List.nil_append] at whole
          have skipped := searchEnding_before ⟨[point], List.forall_mem_singleton.mpr blank⟩ rest
          rw [List.singleton_append, ended, whole, endsThere] at skipped
          cases skipped
        exact Text.dropEndWhile_cons [] solid

theorem searchName_eq_parts? {text : List CodePoint} (solid : ∀ point ∈ text.head?, ¬ isBlank point) :
    searchName text = parts? text := by
  cases succeeds : searchName text with
  | none =>
    have same := searchName_isSome text
    rw [succeeds] at same
    exact (Option.isSome_eq_false_iff.mp same.symm |> Option.isNone_iff_eq_none.mp).symm
  | some parts =>
    have trimmed : trim parts.name = parts.name := by
      obtain ⟨rest, whole, -, -⟩ := front_of_searchName succeeds
      rw [CodePoint.trim_eq_dropEnds, Text.dropEnds]
      cases name : parts.name with
      | nil => rfl
      | cons first more =>
        have first : ¬ isBlank first := solid first (by rw [whole, name]; rfl)
        rw [List.dropWhile_cons_of_neg first, ← name, name_of_searchName succeeds]
    rw [parts?_of_searchName succeeds, trimmed]

theorem search_eq_parts? (text : List CodePoint) : search text = parts? text := by
  obtain ⟨fewer, ways⟩ := takings_eq isBlank text
  have whole (way : List CodePoint × List CodePoint) (tried : way ∈ takings isBlank text) :
      parts? text = parts? way.2 := by
    obtain ⟨split, blank⟩ := mem_takings.mp tried
    rw [split]
    exact parts?_before ⟨way.1, blank⟩ way.2
  have most : searchName (text.dropWhile isBlank) = parts? text := by
    rw [searchName_eq_parts? (stops_of_dropWhile isBlank text)]
    exact (whole (_, text.dropWhile isBlank) (by rw [ways]; exact List.mem_append_right _ List.mem_cons_self)).symm
  rw [search, pastBlanks, ways, List.reverse_append, List.reverse_singleton, List.singleton_append,
    List.findSome?_cons, most]
  cases read : parts? text with
  | some parts => rfl
  | none =>
    apply List.findSome?_eq_none_iff.mpr
    intro way tried
    have present : way ∈ takings isBlank text := by
      rw [ways]
      exact List.mem_append_left _ (List.mem_reverse.mp tried)
    have same := searchName_isSome way.2
    rw [← whole way present, read] at same
    exact Option.isNone_iff_eq_none.mp (Option.isSome_eq_false_iff.mp same)

theorem partsOf_surrounded (before : Gap) (text : List CodePoint) (after : Gap) :
    partsOf (before.points ++ (text ++ after.points)) = partsOf text := by
  rw [partsOf, partsOf, parts?_before, parts?_after, CodePoint.trim_surrounded before.blank after.blank]

theorem ofJson_of_shorthand {text : LooseText} (shorthand : Shorthand) (written : shorthand.text = text.points) :
    ofJson (.text text) = ofParts shorthand.parts := by
  rw [ofJson, partsOf, ← written, parts?_text]
  rfl

end ComponentDocs.Author

namespace ComponentDocs

open Author (Gap Enclosed Shorthand) in
/-- A text that is a shorthand is read as its parts, however it is taken apart, and all other texts are names as a
whole. That is what the pattern says, searched with all ways to go on. So `name <email> (url)` is read as its three
parts, and white space around a text does not matter. -/
theorem author_shorthand_unambiguous (text : LooseText) :
    (∀ shorthand : Shorthand, shorthand.text = text.points →
        Author.ofJson (.text text) = .ofParts shorthand.parts ∧
          ∀ other : Shorthand, other.text = text.points → other.parts = shorthand.parts) ∧
      ((∀ shorthand : Shorthand, shorthand.text ≠ text.points) →
        Author.ofJson (.text text) = .ofParts ⟨CodePoint.trim text.points, [], []⟩) ∧
      Author.ofJson (.text text) =
        .ofParts ((Author.search text.points).getD ⟨CodePoint.trim text.points, [], []⟩) ∧
      (∀ (name : List CodePoint) (email : Enclosed '<' '>') (url : Enclosed '(' ')'), CodePoint.trim name = name →
        (∀ point ∈ name, Author.isNamePoint point) →
        text.points = name ++ .char ' ' :: (email.points ++ .char ' ' :: url.points) →
          Author.ofJson (.text text) = .ofParts ⟨name, email.inside, url.inside⟩) ∧
      ∀ (before after : Gap) (wider : LooseText), wider.points = before.points ++ (text.points ++ after.points) →
        Author.ofJson (.text wider) = Author.ofJson (.text text) := by
  refine ⟨?_, ?_, ?_, ?_, ?_⟩
  · intro shorthand written
    refine ⟨Author.ofJson_of_shorthand shorthand written, ?_⟩
    intro other writtenToo
    have same := Author.parts?_text other
    rw [writtenToo, ← written, Author.parts?_text] at same
    exact (Option.some.inj same).symm
  · intro unlike
    cases found : Author.parts? text.points with
    | some parts =>
      obtain ⟨shorthand, written, -⟩ := Author.shorthand_of_parts? found
      exact absurd written (unlike shorthand)
    | none =>
      rw [Author.ofJson, Author.partsOf, found]
      rfl
  · rw [Author.search_eq_parts?]
    rfl
  · intro name email url trimmed unmarked written
    let space : Gap := ⟨[.char ' '], List.forall_mem_singleton.mpr (by decide)⟩
    apply Author.ofJson_of_shorthand ⟨.none, name, trimmed, unmarked, ⟨space, some email, space, some url, .none⟩⟩
    rw [written]
    simp [Shorthand.text, Author.Ending.text, Author.Ending.afterEmail, Gap.none, Enclosed.pointsOf, space]
  · intro before after wider written
    rw [Author.ofJson, Author.ofJson, written, Author.partsOf_surrounded]

def pointsIn (text : String) : List CodePoint := text.toList.map .char

def crampedAuthor : Author.Shorthand where
  leading := ⟨pointsIn "\u00a0 ", by decide⟩
  name := pointsIn "Jane Doe"
  trimmed := by decide
  unmarked := by decide
  ending :=
    ⟨.none, some ⟨pointsIn "jane(at\n<lib.org", by decide⟩, ⟨pointsIn " \t", by decide⟩,
      some ⟨pointsIn "lib.org/<jane", by decide⟩, ⟨pointsIn "\n", by decide⟩⟩

theorem cramped_author_unambiguous :
    crampedAuthor.text = (LooseText.proper "\u00a0 Jane Doe<jane(at\n<lib.org> \t(lib.org/<jane)\n").points ∧
      Author.ofJson (.text (.proper "\u00a0 Jane Doe<jane(at\n<lib.org> \t(lib.org/<jane)\n")) =
        .ofParts ⟨pointsIn "Jane Doe", pointsIn "jane(at\n<lib.org", pointsIn "lib.org/<jane"⟩ := by
  have written : crampedAuthor.text =
      (LooseText.proper "\u00a0 Jane Doe<jane(at\n<lib.org> \t(lib.org/<jane)\n").points := by decide
  exact ⟨written, ((author_shorthand_unambiguous _).1 crampedAuthor written).1⟩

end ComponentDocs
