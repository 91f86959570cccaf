import ComponentDocs.Component.Basic
import ComponentDocs.Json.Printer
import ComponentDocs.Package.Manifest
import ComponentDocs.Proofs.Text.Lines
import Mathlib.Data.List.TakeWhile

namespace ComponentDocs

theorem RawText.isProper_iff {text : RawText} : text.isProper = true ↔ ∀ point ∈ text, point.isLone = false := by
  simp [RawText.isProper]

@[simp] theorem RawText.isProper_nil : RawText.isProper [] = true := rfl

@[simp] theorem RawText.isProper_cons (point : CodePoint) (rest : RawText) :
    RawText.isProper (point :: rest) = (!point.isLone && RawText.isProper rest) := by
  simp [RawText.isProper]

@[simp] theorem RawText.isProper_append (front back : RawText) :
    RawText.isProper (front ++ back) = (RawText.isProper front && RawText.isProper back) := by
  simp [RawText.isProper]

@[simp] theorem CodePoint.isLone_char (c : Char) : (CodePoint.char c).isLone = false := rfl

@[simp] theorem RawText.isProper_chars (text : List Char) : RawText.isProper (text.map .char) = true := by
  simp [RawText.isProper]

namespace LooseText

def isProper (text : LooseText) : Bool := text.proper?.isSome

@[simp] theorem isProper_proper (text : String) : (LooseText.proper text).isProper = true := rfl

theorem isProper_ofPoints (points : List CodePoint) : (ofPoints points).isProper = RawText.isProper points := by
  rw [ofPoints]
  split <;> simp_all [isProper, proper?, RawText.isProper]

theorem isProper_points (text : LooseText) : RawText.isProper text.points = text.isProper := by
  rw [← isProper_ofPoints, ofPoints_points]

end LooseText

namespace Json

mutual

def isProper : Json → Bool
  | .null => true
  | .bool _ => true
  | .int _ => true
  | .real _ => true
  | .text value => value.isProper
  | .array items => allProper items
  | .object entries => entriesProper entries

def allProper : List Json → Bool
  | [] => true
  | item :: rest => isProper item && allProper rest

def entriesProper : List (LooseText × Json) → Bool
  | [] => true
  | (name, value) :: rest => name.isProper && (isProper value && entriesProper rest)

end

@[simp] theorem isProper_escapePoint (point : CodePoint) :
    RawText.isProper (escapePoint point) = !point.isLone := by
  cases point with
  | char c => exact RawText.isProper_chars _
  | surrogate code => rfl

@[simp] theorem isProper_quote (text : LooseText) : RawText.isProper (quote text) = text.isProper := by
  have escaped : ∀ points : RawText, RawText.isProper (points.flatMap escapePoint) = RawText.isProper points := by
    intro points
    induction points with
    | nil => rfl
    | cons point rest ih => simp [ih]
  simp [quote, escaped, LooseText.isProper_points]

@[simp] theorem isProper_newLine (level : Nat) : RawText.isProper (newLine level) = true := by
  simp [newLine, RawText.isProper]

mutual

theorem all_pieces (level : Nat) (value : Json) : (pieces level value).all RawText.isProper = value.isProper := by
  match value with
  | .null => rfl
  | .bool value => cases value <;> rfl
  | .int value => simp [pieces, isProper]
  | .real value => simp [pieces, isProper]
  | .text value => simp [pieces, isProper]
  | .array [] => rfl
  | .array (item :: rest) =>
    simp only [pieces, List.all_append]
    rw [all_itemPieces (level + 1) _ (item :: rest) (by simp)]
    simp [isProper]
  | .object [] => rfl
  | .object (entry :: rest) =>
    simp only [pieces, List.all_append]
    rw [all_entryPieces (level + 1) _ (entry :: rest) (by simp)]
    simp [isProper]

theorem all_itemPieces (level : Nat) (lead : RawText) (items : List Json) (proper : lead.isProper = true) :
    (itemPieces level lead items).all RawText.isProper = allProper items := by
  match items with
  | [] => rfl
  | item :: rest =>
    have later := all_itemPieces level ("," ++ newLine level) rest (by simp)
    have here := all_pieces level item
    cases item <;> simp_all [itemPieces, allProper, isProper]

theorem all_entryPieces (level : Nat) (lead : RawText) (entries : List (LooseText × Json))
    (proper : lead.isProper = true) : (entryPieces level lead entries).all RawText.isProper = entriesProper entries := by
  match entries with
  | [] => rfl
  | (name, value) :: rest =>
    have later := all_entryPieces level ("," ++ newLine level) rest (by simp)
    have here := all_pieces level value
    simp_all [entryPieces, entriesProper]

end

theorem isWritable_eq_isProper (document : Json) : document.isWritable = document.isProper := all_pieces 0 document

theorem isProper_of_get? {entries : Bindings LooseText Json} {name : LooseText} {value : Json}
    (proper : entriesProper entries = true) (found : entries.get? name = some value) : value.isProper = true := by
  induction entries with
  | nil => cases found
  | cons entry rest ih =>
    obtain ⟨key, first⟩ := entry
    rw [entriesProper, Bool.and_eq_true, Bool.and_eq_true] at proper
    rw [Bindings.get?] at found
    split at found
    · cases found
      exact proper.2.1
    · exact ih proper.2.2 found

theorem isProper_key {entries : Bindings LooseText Json} (proper : entriesProper entries = true) (name : String) :
    (key name entries).isProper = true := by
  rw [key]
  cases found : entries.get? (.proper name) with
  | none => rfl
  | some value => exact isProper_of_get? proper found

theorem isProper_orEmpty {value : Json} (proper : value.isProper = true) : value.orEmpty.isProper = true := by
  rw [orEmpty]
  split
  · exact proper
  · rfl

theorem isProper_field {entries : Bindings LooseText Json} (proper : entriesProper entries = true) (name : String) :
    (key name entries).orEmpty.isProper = true :=
  isProper_orEmpty (isProper_key proper name)

theorem allProper_map {α : Type} {f : α → Json} (each : ∀ item, (f item).isProper = true) (items : List α) :
    allProper (items.map f) = true := by
  induction items with
  | nil => rfl
  | cons item rest ih => simp [allProper, each, ih]

end Json

theorem RawText.isProper_of_sublist {text other : RawText} (part : other.Sublist text)
    (proper : text.isProper = true) : other.isProper = true :=
  RawText.isProper_iff.mpr fun point present => RawText.isProper_iff.mp proper point (part.subset present)

theorem CodePoint.trim_sublist (points : List CodePoint) : (CodePoint.trim points).Sublist points :=
  (Text.dropEndWhile_sublist _ _).trans (List.dropWhile_sublist _)

namespace Author

theorem sublist_of_upTo? {mark : Char} {text inside after : List CodePoint}
    (found : upTo? mark text = some (inside, after)) : inside.Sublist text ∧ after.Sublist text := by
  induction text generalizing inside with
  | nil => cases found
  | cons point rest ih =>
    rw [upTo?] at found
    split at found
    · cases found
      exact ⟨List.nil_sublist _, List.sublist_cons_self _ _⟩
    · obtain ⟨⟨inside', after'⟩, later, same⟩ := Option.map_eq_some_iff.mp found
      cases same
      exact ⟨(ih later).1.cons_cons point, (ih later).2.cons point⟩

theorem sublist_of_url? {text url : List CodePoint} (found : url? text = some url) : url.Sublist text := by
  have trimmed : (CodePoint.trimStart text).Sublist text := List.dropWhile_sublist _
  rw [url?] at found
  split at found
  · cases found
    exact List.nil_sublist _
  · rename_i rest opened
    split at found
    · rename_i inside after closed
      split at found
      · cases found
        rw [opened] at trimmed
        exact (sublist_of_upTo? closed).1.trans ((List.sublist_cons_self _ _).trans trimmed)
      · cases found
    · cases found
  · cases found

theorem sublist_of_parts? {text : List CodePoint} {parts : Parts} (found : parts? text = some parts) :
    parts.name.Sublist text ∧ parts.email.Sublist text ∧ parts.url.Sublist text := by
  have name : (CodePoint.trim (text.takeWhile isNamePoint)).Sublist text :=
    (CodePoint.trim_sublist _).trans (List.takeWhile_sublist _)
  have remains : (text.dropWhile isNamePoint).Sublist text := List.dropWhile_sublist _
  rw [parts?] at found
  split at found
  · rename_i rest opened
    rw [opened] at remains
    have inner := (List.sublist_cons_self (CodePoint.char '<') rest).trans remains
    split at found
    · rename_i email after closed
      obtain ⟨url, ending, rfl⟩ := Option.map_eq_some_iff.mp found
      obtain ⟨inside, behind⟩ := sublist_of_upTo? closed
      exact ⟨name, inside.trans inner, (sublist_of_url? ending).trans (behind.trans inner)⟩
    · cases found
  · obtain ⟨url, ending, rfl⟩ := Option.map_eq_some_iff.mp found
    exact ⟨name, List.nil_sublist _, (sublist_of_url? ending).trans remains⟩

theorem sublist_partsOf (text : List CodePoint) :
    (partsOf text).name.Sublist text ∧ (partsOf text).email.Sublist text ∧ (partsOf text).url.Sublist text := by
  rw [partsOf]
  cases found : parts? text with
  | none => exact ⟨CodePoint.trim_sublist text, List.nil_sublist _, List.nil_sublist _⟩
  | some parts => exact sublist_of_parts? found

theorem isProper_ofJson {value : Json} (proper : value.isProper = true) : (ofJson value).toJson.isProper = true := by
  cases value with
  | object entries =>
    have field := Json.isProper_field proper
    simp [ofJson, toJson, Json.isProper, Json.entriesProper, field]
  | text text =>
    have whole := (LooseText.isProper_points text).trans proper
    obtain ⟨name, email, url⟩ := sublist_partsOf text.points
    have part : ∀ points : List CodePoint, points.Sublist text.points → (LooseText.ofPoints points).isProper = true :=
      fun points inside => (LooseText.isProper_ofPoints points).trans (RawText.isProper_of_sublist inside whole)
    simp [ofJson, ofParts, toJson, Json.isProper, Json.entriesProper, part _ name, part _ email, part _ url]
  | _ => rfl

end Author

structure Manifest.IsProper (manifest : Manifest) : Prop where
  version : manifest.version.isProper = true
  description : manifest.description.isProper = true
  homePage : manifest.homePage.isProper = true
  author : manifest.author.toJson.isProper = true
  license : manifest.license.isProper = true
  settings : manifest.settings.isProper = true

theorem Manifest.isProper_empty : Manifest.empty.IsProper := ⟨rfl, rfl, rfl, rfl, rfl, rfl⟩

theorem Manifest.isProper_ofEntries {entries : Bindings LooseText Json} (proper : Json.entriesProper entries = true) :
    (Manifest.ofEntries entries).IsProper := by
  have field := Json.isProper_field proper
  have author := Author.isProper_ofJson (Json.isProper_key proper "author")
  refine ⟨field _, field _, ?_, author, field _, Json.isProper_key proper _⟩
  rw [Manifest.ofEntries]
  dsimp only
  split
  · exact Json.isProper_key proper _
  · exact field _

theorem NamedType.isProper_listToJson (entries : Option (List NamedType)) :
    (NamedType.listToJson entries).isProper = true := by
  cases entries with
  | none => rfl
  | some entries => exact Json.allProper_map (fun _ => rfl) entries

theorem PropDoc.isProper_toJson (prop : PropDoc) : prop.toJson.isProper = true := by
  simp [PropDoc.toJson, Json.isProper, Json.entriesProper, NamedType.isProper_listToJson]

theorem Component.isProper_toJson (component : Component) :
    component.toJson.isProper = component.sourcePath.isProper := by
  simp [Component.toJson, Json.raw, Json.isProper, Json.entriesProper, Json.allProper_map PropDoc.isProper_toJson,
    LooseText.isProper_ofPoints]

/-- Only the paths of the source files can keep a list of components from being written. -/
theorem isProper_componentsToJson (components : List Component) :
    (componentsToJson components).isProper = components.all fun component => component.sourcePath.isProper := by
  rw [componentsToJson, Json.isProper]
  induction components with
  | nil => rfl
  | cons component rest ih =>
    rw [List.map_cons, Json.allProper, Component.isProper_toJson, ih]
    rfl

end ComponentDocs
