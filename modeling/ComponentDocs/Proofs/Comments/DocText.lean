import ComponentDocs.DocBlock
import ComponentDocs.Proofs.Text.Lines

/-! The texts of doc comments, and the comments that can be laid out around a text. Whatever the comment, its text is in
normal form; and whatever the layout, a comment around a text in normal form has that text. -/

namespace ComponentDocs

namespace DocBlock

open Text

/-- A line on its own, with no blanks around it and no tag at its start. -/
structure IsPlain (line : List Char) : Prop where
  unbroken : Unbroken line
  trimmed : trim line = line
  untagged : isTag line = false

/-- Plain lines with line feeds between them, of which the first and the last are not empty. -/
structure IsNormal (text : List Char) : Prop where
  joined : joinWith '\n' (lines text) = text
  plain : ∀ line ∈ lines text, IsPlain line
  first : (lines text).head? ≠ some []
  last : (lines text).getLast? ≠ some []

instance : DecidablePred IsPlain := fun _ =>
  decidable_of_iff (_ ∧ _ ∧ _)
    ⟨fun ⟨unbroken, trimmed, untagged⟩ => ⟨unbroken, trimmed, untagged⟩,
      fun ⟨unbroken, trimmed, untagged⟩ => ⟨unbroken, trimmed, untagged⟩⟩

instance : DecidablePred IsNormal := fun _ =>
  decidable_of_iff (_ ∧ _ ∧ _ ∧ _)
    ⟨fun ⟨joined, plain, first, last⟩ => ⟨joined, plain, first, last⟩,
      fun ⟨joined, plain, first, last⟩ => ⟨joined, plain, first, last⟩⟩

theorem isNormal_joinWith {texts : List (List Char)} (plain : ∀ line ∈ texts, IsPlain line)
    (first : texts.head? ≠ some []) (last : texts.getLast? ≠ some []) : IsNormal (joinWith '\n' texts) := by
  have same : lines (joinWith '\n' texts) = texts :=
    lines_joinWith (fun line member => (plain line member).unbroken) last
  constructor
  all_goals rw [same]
  all_goals assumption

theorem content_sublist (line : List Char) : (content line).Sublist line := by
  rw [content]
  split
  · rename_i rest trimmed
    have whole := trim_sublist line
    rw [trimmed] at whole
    exact (trim_sublist rest).trans ((List.sublist_cons_self '*' rest).trans whole)
  · exact trim_sublist line

theorem trim_content (line : List Char) : trim (content line) = content line := by
  rw [content]
  split <;> exact trim_trim _

theorem content_of_star {line rest : List Char} (star : trim line = '*' :: rest) : content line = trim rest := by
  rw [content, star]
  rfl

def kept (body : List Char) : List (List Char) := ((lines body).map content).takeWhile fun line => !isTag line

theorem plain_of_mem_kept {body line : List Char} (member : line ∈ kept body) : IsPlain line := by
  obtain ⟨whole, inBody, rfl⟩ := List.mem_map.mp ((List.takeWhile_sublist _).subset member)
  refine ⟨?_, trim_content whole, ?_⟩
  · intro c present
    exact unbroken_of_mem_lines inBody c ((content_sublist whole).subset present)
  · simpa using List.mem_takeWhile_imp member

theorem isNormal_text (raw : List Char) : IsNormal (text raw) := by
  have plain : ∀ line ∈ kept (body raw), IsPlain line := fun line => plain_of_mem_kept
  rw [text, ← kept, trim_joinWith fun line member => (plain line member).trimmed]
  apply isNormal_joinWith
  · intro line member
    exact plain line ((List.dropWhile_sublist _).subset ((dropEndWhile_sublist _ _).subset member))
  · intro first
    obtain ⟨rest, left⟩ := List.head?_eq_some_iff.mp first
    cases first_of_dropEnds left
  · intro last
    cases getLast?_dropEndWhile last

structure Gap where
  chars : List Char
  blank : ∀ c ∈ chars, isBlank c
  unbroken : Unbroken chars

structure Row where
  indent : Gap
  gap : Gap
  line : List Char
  trailing : Gap
  ending : LineBreak

def Row.front (row : Row) : List Char :=
  row.indent.chars ++ '*' :: (row.gap.chars ++ (row.line ++ row.trailing.chars))

def Row.chars (row : Row) : List Char := row.front ++ row.ending.chars

/-- The tags of a comment: a line that starts with an at sign, perhaps behind a star, and anything after it. -/
structure Tags where
  indent : Gap
  star : Option Gap
  rest : List Char

def Tags.front (tags : Tags) : List Char :=
  match tags.star with
  | none => tags.indent.chars
  | some gap => tags.indent.chars ++ '*' :: gap.chars

def Tags.chars (tags : Tags) : List Char := tags.front ++ '@' :: tags.rest

/-- A comment around the lines of its rows. -/
structure Layout where
  opening : LineBreak
  rows : List Row
  tags : Option Tags
  closing : Gap

namespace Layout

def lines (layout : Layout) : List (List Char) := layout.rows.map (·.line)

def ending (layout : Layout) : List Char :=
  match layout.tags with
  | none => layout.closing.chars
  | some tags => tags.chars ++ layout.closing.chars

def inner (layout : Layout) : List Char := layout.opening.chars ++ (layout.rows.flatMap Row.chars ++ layout.ending)

def raw (layout : Layout) : List Char := ['/', '*', '*'] ++ layout.inner ++ ['*', '/']

end Layout

theorem body_raw (layout : Layout) : body layout.raw = layout.inner := by
  have closed : ['*', '/'].isSuffixOf layout.raw = true :=
    List.isSuffixOf_iff_suffix.mpr (List.suffix_append _ _)
  rw [body, if_pos closed, Layout.raw]
  simp

theorem Gap.head?_ne {rest : List Char} (gap : Gap) (apart : rest.head? ≠ some '\n') :
    (gap.chars ++ rest).head? ≠ some '\n' := by
  have unbroken := gap.unbroken
  cases chars : gap.chars with
  | nil => exact apart
  | cons c more =>
    intro feed
    cases Option.some.inj feed
    cases unbroken '\n' (by rw [chars]; exact List.mem_cons_self)

theorem Gap.trim_chars (gap : Gap) : trim gap.chars = [] := by
  rw [← List.append_nil gap.chars, trim_of_blank_before [] gap.blank]
  rfl

theorem content_front {row : Row} (trimmed : trim row.line = row.line) : content row.front = row.line := by
  have star : trim row.front = '*' :: trimEnd (row.gap.chars ++ (row.line ++ row.trailing.chars)) := by
    rw [Row.front, trim_of_blank_before _ row.indent.blank, trim_cons _ (by decide)]
  calc
    content row.front = trim (trimEnd (row.gap.chars ++ (row.line ++ row.trailing.chars))) := content_of_star star
    _ = trim (row.gap.chars ++ (row.line ++ row.trailing.chars)) := trim_trimEnd _
    _ = trim (row.line ++ row.trailing.chars) := trim_of_blank_before _ row.gap.blank
    _ = trim row.line := trim_append row.trailing.blank
    _ = row.line := trimmed

theorem unbroken_front {row : Row} (unbroken : Unbroken row.line) : Unbroken row.front := by
  intro c member
  simp only [Row.front, List.mem_append, List.mem_cons] at member
  rcases member with inIndent | rfl | inGap | inLine | inTrailing
  · exact row.indent.unbroken c inIndent
  · decide
  · exact row.gap.unbroken c inGap
  · exact unbroken c inLine
  · exact row.trailing.unbroken c inTrailing

theorem lines_rows {rows : List Row} {rest : List Char} (unbroken : ∀ row ∈ rows, Unbroken row.line)
    (apart : rest.head? ≠ some '\n') :
    lines (rows.flatMap Row.chars ++ rest) = rows.map Row.front ++ lines rest ∧
      (rows.flatMap Row.chars ++ rest).head? ≠ some '\n' := by
  induction rows with
  | nil => exact ⟨rfl, apart⟩
  | cons row more ih =>
    obtain ⟨later, apartLater⟩ := ih fun other member => unbroken other (List.mem_cons_of_mem _ member)
    have whole : (row :: more).flatMap Row.chars ++ rest =
        row.front ++ (row.ending.chars ++ (more.flatMap Row.chars ++ rest)) := by
      rw [List.flatMap_cons, Row.chars, List.append_assoc, List.append_assoc]
    rw [whole]
    -- a carriage return ends a line of its own only if no line feed follows, so the next row has to start apart
    constructor
    · have follow := lines_lineBreak row.ending apartLater
      rw [lines_append (unbroken_front (unbroken row List.mem_cons_self)) follow, List.append_nil, later]
      rfl
    · rw [Row.front, List.append_assoc]
      exact row.indent.head?_ne (by simp)

theorem Tags.unbroken_front (tags : Tags) : Unbroken tags.front := by
  intro c member
  rw [Tags.front] at member
  split at member
  · exact tags.indent.unbroken c member
  · rename_i gap _
    simp only [List.mem_append, List.mem_cons] at member
    rcases member with inIndent | rfl | inGap
    · exact tags.indent.unbroken c inIndent
    · decide
    · exact gap.unbroken c inGap

theorem isTag_content (tags : Tags) (line : List Char) : isTag (content (tags.front ++ '@' :: line)) = true := by
  have tag : trim ('@' :: line) = '@' :: trimEnd line := trim_cons line (by decide)
  rw [Tags.front]
  cases tags.star with
  | none =>
    have bare : trim (tags.indent.chars ++ '@' :: line) = '@' :: trimEnd line := by
      rw [trim_of_blank_before _ tags.indent.blank, tag]
    rw [content, bare]
    rfl
  | some gap =>
    have star : trim (tags.indent.chars ++ '*' :: gap.chars ++ '@' :: line) =
        '*' :: trimEnd (gap.chars ++ '@' :: line) := by
      rw [List.append_assoc, trim_of_blank_before _ tags.indent.blank, List.cons_append, trim_cons _ (by decide)]
    rw [content_of_star star, trim_trimEnd, trim_of_blank_before _ gap.blank, tag]
    rfl

theorem Layout.head?_ending (layout : Layout) : layout.ending.head? ≠ some '\n' := by
  rw [Layout.ending]
  cases layout.tags with
  | none =>
    rw [← List.append_nil layout.closing.chars]
    exact layout.closing.head?_ne (by simp)
  | some tags =>
    simp only
    rw [Tags.chars, Tags.front]
    cases tags.star with
    | none =>
      rw [List.append_assoc]
      exact tags.indent.head?_ne (by simp)
    | some gap =>
      rw [List.append_assoc, List.append_assoc]
      exact tags.indent.head?_ne (by simp)

theorem kept_ending (layout : Layout) : ∀ line ∈ kept layout.ending, line = [] := by
  intro line member
  rw [kept, Layout.ending] at member
  cases present : layout.tags with
  | none =>
    rw [present] at member
    obtain ⟨whole, inClosing, rfl⟩ := List.mem_map.mp ((List.takeWhile_sublist _).subset member)
    rw [lines_of_unbroken layout.closing.unbroken] at inClosing
    split at inClosing
    · cases inClosing
    · rw [List.mem_singleton.mp inClosing, content, layout.closing.trim_chars]
  | some tags =>
    rw [present] at member
    simp only at member
    have starts : lines ('@' :: (tags.rest ++ layout.closing.chars)) = _ :: _ := lines_cons _ (by decide)
    rw [Tags.chars, List.append_assoc, List.cons_append, lines_append tags.unbroken_front starts, List.map_cons,
      List.takeWhile_cons_of_neg (by rw [isTag_content]; decide)] at member
    cases member

theorem kept_inner {layout : Layout} (plain : ∀ line ∈ layout.lines, IsPlain line) :
    kept layout.inner = [] :: (layout.lines ++ kept layout.ending) := by
  have each : ∀ row ∈ layout.rows, IsPlain row.line := fun row member =>
    plain row.line (List.mem_map_of_mem member)
  obtain ⟨split, apart⟩ := lines_rows (fun row member => (each row member).unbroken) layout.head?_ending
  have contents : (layout.rows.map Row.front).map content = layout.lines := by
    rw [List.map_map]
    exact List.map_congr_left fun row member => content_front (each row member).trimmed
  rw [kept, Layout.inner, lines_lineBreak layout.opening apart, split, List.map_cons, List.map_append, contents]
  rw [List.takeWhile_cons_of_pos rfl, List.takeWhile_append_of_pos]
  · rfl
  · intro line member
    rw [(plain line member).untagged]
    rfl

theorem dropEnds_of_empty {texts after : List (List Char)} (first : texts.head? ≠ some [])
    (last : texts.getLast? ≠ some []) (empty : ∀ line ∈ after, line = []) :
    dropEndWhile List.isEmpty ((texts ++ after).dropWhile List.isEmpty) = texts := by
  have allEmpty : ∀ line ∈ after, line.isEmpty := fun line member => List.isEmpty_iff.mpr (empty line member)
  cases texts with
  | nil =>
    rw [List.nil_append, List.dropWhile_eq_nil_iff.mpr allEmpty]
    rfl
  | cons start more =>
    have proper : ¬ start.isEmpty := by
      intro none
      rw [List.isEmpty_iff.mp none] at first
      exact first rfl
    have lastProper : ∀ some : start :: more ≠ [], ¬ ((start :: more).getLast some).isEmpty := by
      intro some none
      rw [List.getLast?_eq_some_getLast some, List.isEmpty_iff.mp none] at last
      exact last rfl
    rw [List.cons_append, List.dropWhile_cons_of_neg proper, ← List.cons_append, dropEndWhile_eq_rdropWhile,
      List.rdropWhile, List.reverse_append, List.dropWhile_append_of_pos fun line member =>
        allEmpty line (List.mem_reverse.mp member)]
    exact List.rdropWhile_eq_self_iff.mpr lastProper

theorem text_raw {layout : Layout} (plain : ∀ line ∈ layout.lines, IsPlain line)
    (first : layout.lines.head? ≠ some []) (last : layout.lines.getLast? ≠ some []) :
    text layout.raw = joinWith '\n' layout.lines := by
  rw [text, body_raw, ← kept, trim_joinWith fun line member => (plain_of_mem_kept member).trimmed, kept_inner plain,
    List.dropWhile_cons_of_pos rfl, dropEnds_of_empty first last (kept_ending layout)]

theorem isDocBlock_raw (layout : Layout) : isDocBlock layout.raw = true := by
  rw [Layout.raw, Layout.inner]
  cases layout.opening <;> rfl

theorem text_of_layout {layout : Layout} {content : List Char} (normal : IsNormal content)
    (around : layout.lines = lines content) : text layout.raw = content := by
  obtain ⟨joined, plain, first, last⟩ := normal
  rw [← around] at joined plain first last
  rw [text_raw plain first last, joined]

end DocBlock

open DocBlock in
/-- The text of every comment is in normal form, and every comment laid out around a text in normal form is a doc
comment with just that text. So reading a comment, laying out what was read and reading it again changes nothing. -/
theorem doc_text_round_trip :
    (∀ raw, IsNormal (text raw)) ∧
      (∀ (layout : Layout) (content : List Char), IsNormal content → layout.lines = Text.lines content →
        isDocBlock layout.raw = true ∧ text layout.raw = content) ∧
      ∀ (raw : List Char) (layout : Layout), layout.lines = Text.lines (text raw) → text layout.raw = text raw := by
  refine ⟨isNormal_text, ?_, ?_⟩
  · intro layout content normal around
    exact ⟨isDocBlock_raw layout, text_of_layout normal around⟩
  · intro raw layout around
    exact text_of_layout (isNormal_text raw) around

def noGap : DocBlock.Gap := ⟨[], nofun, nofun⟩

def gapOf (c : Char) (blank : Text.isBlank c) (inLine : Text.isBreak c = false) : DocBlock.Gap :=
  ⟨[c], List.forall_mem_singleton.mpr blank, List.forall_mem_singleton.mpr inLine⟩

def spaceGap : DocBlock.Gap := gapOf ' ' rfl rfl

def listLayout : DocBlock.Layout where
  opening := .crlf
  rows :=
    [⟨spaceGap, spaceGap, "* item".toList, gapOf '\t' rfl rfl, .crlf⟩,
      ⟨noGap, noGap, [], noGap, .cr⟩,
      ⟨gapOf '\u00a0' rfl rfl, noGap, "end".toList, noGap, .lf⟩]
  tags := some ⟨spaceGap, some spaceGap, "see\n* more".toList⟩
  closing := spaceGap

open DocBlock in
theorem list_text_round_trip :
    IsNormal "* item\n\nend".toList ∧ listLayout.lines = Text.lines "* item\n\nend".toList ∧
      listLayout.raw = "/**\r\n * * item\t\r\n*\r\u00a0*end\n * @see\n* more */".toList ∧
      text listLayout.raw = "* item\n\nend".toList := by
  have normal : IsNormal "* item\n\nend".toList := by decide
  have around : listLayout.lines = Text.lines "* item\n\nend".toList := by decide
  exact ⟨normal, around, by decide, (doc_text_round_trip.2.1 listLayout _ normal around).2⟩

end ComponentDocs
