import ComponentDocs.Proofs.Run.WalkOrder
import ComponentDocs.Proofs.Text.Raw
import ComponentDocs.Proofs.Success
import Mathlib.Data.List.Nodup

namespace ComponentDocs

namespace Text

variable {α : Type}

theorem splitAt_eq_splitOn [DecidableEq α] (separator : α) (text : List α) : splitAt separator text = text.splitOn separator := by
  induction text with
  | nil => rfl
  | cons item rest ih =>
    rw [splitAt, List.splitOn_cons_eq_if_modifyHead, ih]
    by_cases same : item = separator
    · simp [same]
    · cases split : rest.splitOn separator with
      | nil => exact absurd split (List.splitOn_ne_nil separator rest)
      | cons piece more => simp [same]

theorem joinWith_eq_intercalate (separator : α) (pieces : List (List α)) :
    joinWith separator pieces = [separator].intercalate pieces := by
  fun_induction joinWith separator pieces with
  | case1 => rfl
  | case2 piece => simp
  | case3 piece more notLast ih =>
    rw [ih, List.intercalate_cons_of_ne_nil notLast, List.append_assoc, List.singleton_append]

theorem joinWith_cons_of_ne_nil (separator : α) (piece : List α) {more : List (List α)} (nonempty : more ≠ []) :
    joinWith separator (piece :: more) = piece ++ separator :: joinWith separator more := by
  rw [joinWith]
  exact nonempty

theorem joinWith_append_of_ne_nil (separator : α) {front back : List (List α)} (nonempty : front ≠ [])
    (nonempty' : back ≠ []) :
    joinWith separator (front ++ back) = joinWith separator front ++ separator :: joinWith separator back := by
  induction front with
  | nil => exact absurd rfl nonempty
  | cons piece more ih =>
    by_cases last : more = []
    · rw [last, List.singleton_append, joinWith_cons_of_ne_nil separator piece nonempty']
      rfl
    · rw [List.cons_append, joinWith_cons_of_ne_nil separator piece (by simp [last]),
        joinWith_cons_of_ne_nil separator piece last, ih last, List.append_assoc, List.cons_append]

end Text

namespace Path

open Text (splitAt joinWith)

/-- A segment leads down: it is neither empty nor dots, and has no slash in it. -/
def Descends (segment : RawText) : Prop := segment ≠ [] ∧ segment ≠ [dot] ∧ segment ≠ [dot, dot] ∧ slash ∉ segment

instance (segment : RawText) : Decidable (Descends segment) :=
  inferInstanceAs (Decidable (segment ≠ [] ∧ segment ≠ [dot] ∧ segment ≠ [dot, dot] ∧ slash ∉ segment))

theorem push_descending (rooted : Bool) (reversed : List RawText) {segment : RawText} (descends : Descends segment) :
    push rooted reversed segment = segment :: reversed := by
  obtain ⟨notEmpty, notDot, notDots, -⟩ := descends
  unfold push
  rw [if_neg (not_or.mpr ⟨notEmpty, notDot⟩), if_neg notDots]

theorem foldl_push_descending (rooted : Bool) (reversed : List RawText) {segments : List RawText}
    (down : ∀ segment ∈ segments, Descends segment) :
    segments.foldl (push rooted) reversed = segments.reverse ++ reversed := by
  induction segments generalizing reversed with
  | nil => rfl
  | cons first rest ih =>
    obtain ⟨here, later⟩ := List.forall_mem_cons.mp down
    rw [List.foldl_cons, push_descending rooted reversed here, ih _ later]
    simp

theorem splitAt_joinWith {segments : List RawText} (down : ∀ segment ∈ segments, Descends segment)
    (nonempty : segments ≠ []) : splitAt slash (joinWith slash segments) = segments := by
  rw [Text.splitAt_eq_splitOn, Text.joinWith_eq_intercalate]
  exact List.splitOn_intercalate slash (fun segment member => (down segment member).2.2.2) nonempty

theorem eq_of_joinWith_eq {segments segments' : List RawText} (down : ∀ segment ∈ segments, Descends segment)
    (nonempty : segments ≠ []) (down' : ∀ segment ∈ segments', Descends segment) (nonempty' : segments' ≠ [])
    (same : joinWith slash segments = joinWith slash segments') : segments = segments' := by
  rw [← splitAt_joinWith down nonempty, same, splitAt_joinWith down' nonempty']

theorem relative_of_first {first : RawText} (rest : List RawText) (filled : first ≠ []) (whole : slash ∉ first) :
    ∃ point more, joinWith slash (first :: rest) = point :: more ∧ point ≠ slash := by
  obtain ⟨point, more, rfl⟩ := List.exists_cons_of_ne_nil filled
  refine ⟨point, joinWith slash (more :: rest), ?_, ?_⟩
  · cases rest <;> rfl
  · rintro rfl
    exact whole List.mem_cons_self

theorem relative_of_descending {segments : List RawText} (down : ∀ segment ∈ segments, Descends segment)
    (nonempty : segments ≠ []) : ∃ point rest, joinWith slash segments = point :: rest ∧ point ≠ slash := by
  cases segments with
  | nil => exact absurd rfl nonempty
  | cons first rest =>
    obtain ⟨notEmpty, -, -, noSlash⟩ := down first List.mem_cons_self
    exact relative_of_first rest notEmpty noSlash

def Opens (opening : RawText) : Prop := opening = [] ∨ ∃ front, opening = front ++ [slash]

theorem splitAt_opening {opening : RawText} (opens : Opens opening) :
    ∃ before, ∀ path, splitAt slash (opening ++ path) = before ++ splitAt slash path := by
  rcases opens with rfl | ⟨front, rfl⟩
  · exact ⟨[], fun path => rfl⟩
  · refine ⟨splitAt slash front, ?_⟩
    intro path
    simp only [Text.splitAt_eq_splitOn, List.append_assoc, List.singleton_append]
    exact List.splitOn_append_cons_self front path

theorem rootOf_append (opening : RawText) {point : CodePoint} (notSlash : point ≠ slash) (rest : RawText) :
    rootOf (opening ++ point :: rest) = rootOf opening := by
  have same : (opening ++ point :: rest).takeWhile (· == slash) = opening.takeWhile (· == slash) := by
    rw [List.takeWhile_append]
    split
    · rename_i all
      have whole := List.takeWhile_prefix (· == slash) (l := opening) |>.eq_of_length all
      simp [whole, notSlash]
    · rfl
  rw [rootOf, rootOf, same]

theorem joinWith_append (before : List RawText) :
    ∃ start, ∀ pieces, pieces ≠ [] → joinWith slash (before ++ pieces) = start ++ joinWith slash pieces := by
  by_cases none : before = []
  · exact ⟨[], fun pieces _ => by rw [none]; rfl⟩
  · refine ⟨joinWith slash before ++ [slash], ?_⟩
    intro pieces nonempty
    rw [Text.joinWith_append_of_ne_nil slash none nonempty, List.append_assoc, List.singleton_append]

theorem normalize_descending {opening : RawText} (opens : Opens opening) :
    ∃ start, ∀ segments : List RawText, (∀ segment ∈ segments, Descends segment) → segments ≠ [] →
      normalize (opening ++ joinWith slash segments) = start ++ joinWith slash segments := by
  obtain ⟨before, split⟩ := splitAt_opening opens
  obtain ⟨start, joined⟩ := joinWith_append (before.foldl (push (rootOf opening != [])) []).reverse
  refine ⟨rootOf opening ++ start, ?_⟩
  intro segments down nonempty
  obtain ⟨point, rest, text, notSlash⟩ := relative_of_descending down nonempty
  have root : rootOf (opening ++ joinWith slash segments) = rootOf opening := by
    rw [text]
    exact rootOf_append opening notSlash rest
  simp only [normalize, root, split, splitAt_joinWith down nonempty, List.foldl_append, foldl_push_descending _ _ down,
    List.reverse_append, List.reverse_reverse]
  rw [joined _ nonempty, if_neg (by simp [text]), List.append_assoc]

def opening (folder : RawText) : RawText :=
  if folder == [] || folder.getLast? == some slash then folder else folder ++ [slash]

theorem opening_opens (folder : RawText) : Opens (opening folder) := by
  rw [opening]
  split
  · rename_i ends
    rcases Bool.or_eq_true_iff.mp ends with empty | last
    · exact .inl (eq_of_beq empty)
    · exact .inr (List.getLast?_eq_some_iff.mp (eq_of_beq last))
  · exact .inr ⟨folder, rfl⟩

theorem join_of_relative (folder : RawText) {path : RawText} {point : CodePoint} {rest : RawText}
    (text : path = point :: rest) (notSlash : point ≠ slash) : join folder path = opening folder ++ path := by
  rw [join, opening, text, if_neg (by simp [notSlash])]
  split <;> simp

theorem isAbsolute_join (folder : RawText) {path : RawText} {point : CodePoint} {rest : RawText}
    (text : path = point :: rest) (notSlash : point ≠ slash) :
    isAbsolute (join folder path) = ((opening folder).head? == some slash) := by
  rw [isAbsolute, join_of_relative folder text notSlash, text]
  cases opening folder with
  | nil => simp [notSlash]
  | cons first more => rfl

theorem Opens.append {first second : RawText} (opens : Opens first) (opens' : Opens second) :
    Opens (first ++ second) := by
  rcases opens' with rfl | ⟨front, rfl⟩
  · simpa using opens
  · exact .inr ⟨first ++ front, by simp⟩

end Path

open ComponentDocs.Path (Descends Opens)

/-- What stands in front of the segments below a folder is the same for all of them. -/
theorem Disk.absolute_descending (disk : Disk) (folder : RawText) :
    ∃ start, ∀ (segments : List RawText) (path : RawText), (∀ segment ∈ segments, Descends segment) → segments ≠ [] →
      disk.absolute (Path.join folder (Text.joinWith slash segments)) = .ok path →
        path = start ++ Text.joinWith slash segments := by
  have opens := Path.opening_opens folder
  cases rooted : (Path.opening folder).head? == some slash with
  | true =>
    obtain ⟨start, normal⟩ := Path.normalize_descending opens
    refine ⟨start, ?_⟩
    intro segments path down nonempty computed
    obtain ⟨point, rest, text, notSlash⟩ := Path.relative_of_descending down nonempty
    rw [Disk.absolute, Path.isAbsolute_join folder text notSlash, rooted] at computed
    cases computed
    rw [← normal segments down nonempty, ← Path.join_of_relative folder text notSlash]
  | false =>
    -- the path is seen from the working folder, whose own opening comes in front
    cases working : disk.workingPath with
    | error problem =>
      refine ⟨[], ?_⟩
      intro segments path down nonempty computed
      obtain ⟨point, rest, text, notSlash⟩ := Path.relative_of_descending down nonempty
      rw [Disk.absolute, Path.isAbsolute_join folder text notSlash, rooted, working] at computed
      cases computed
    | ok here =>
      obtain ⟨start, normal⟩ := Path.normalize_descending ((Path.opening_opens here).append opens)
      refine ⟨start, ?_⟩
      intro segments path down nonempty computed
      obtain ⟨point, rest, text, notSlash⟩ := Path.relative_of_descending down nonempty
      have joined := Path.join_of_relative folder text notSlash
      have below := Path.isAbsolute_join folder text notSlash
      rw [Disk.absolute, below, rooted, working] at computed
      cases computed
      obtain ⟨first, more, joinedText⟩ :
          ∃ first more, Path.join folder (Text.joinWith slash segments) = first :: more :=
        List.exists_cons_of_ne_nil (by rw [joined, text]; simp)
      have firstNotSlash : first ≠ slash := by
        rintro rfl
        simp [Path.isAbsolute, joinedText, rooted] at below
      rw [Path.absolute, ← normal segments down nonempty, List.append_assoc, ← joined,
        ← Path.join_of_relative here joinedText firstNotSlash]

theorem Name.descends_text (name : Name) : Descends name.text := by
  obtain ⟨notEmpty, notDot, notDots, noSlash, -⟩ := name.isName
  have written := RawText.bytes?_ofBytes name.bytes
  rw [← Name.text] at written
  refine ⟨?_, ?_, ?_, ?_⟩
  · intro same
    rw [same] at written
    exact notEmpty (Option.some.inj written).symm
  · intro same
    rw [same] at written
    exact notDot (Option.some.inj written).symm
  · intro same
    rw [same] at written
    exact notDots (Option.some.inj written).symm
  · intro present
    exact noSlash (RawText.byte_mem_of_bytes? written present)

def Store.Proper (store : Store) : Prop := (store.entries.map (·.1)).Nodup

instance (store : Store) : Decidable store.Proper := inferInstanceAs (Decidable (store.entries.map (·.1)).Nodup)

theorem Store.mem_filesBelow {store : Store} {location : Location} {file : Location × Utf8.Bytes}
    (present : file ∈ store.filesBelow location) :
    file.1 ≠ [] ∧ (location ++ file.1, Entry.file file.2) ∈ store.entries := by
  obtain ⟨⟨place, content⟩, listed, chosen⟩ := List.mem_filterMap.mp present
  cases content with
  | folder => cases chosen
  | file bytes =>
    dsimp only at chosen
    split at chosen
    · rename_i inside
      cases chosen
      obtain ⟨below, apart⟩ := Bool.and_eq_true_iff.mp inside
      obtain ⟨rest, rfl⟩ := List.isPrefixOf_iff_prefix.mp below
      rw [List.drop_left]
      refine ⟨?_, listed⟩
      rintro rfl
      simp at apart
    · cases chosen

theorem Store.filesBelow_sublist (store : Store) (location : Location) :
    ((store.filesBelow location).map fun file => location ++ file.1).Sublist (store.entries.map (·.1)) := by
  rw [Store.filesBelow]
  induction store.entries with
  | nil => exact .slnil
  | cons entry rest ih =>
    obtain ⟨place, _ | bytes⟩ := entry
    · exact ih.cons _
    · rw [List.filterMap_cons, List.map_cons]
      dsimp only
      by_cases inside : (location.isPrefixOf place && place != location) = true
      · obtain ⟨suffix, rfl⟩ := List.isPrefixOf_iff_prefix.mp (Bool.and_eq_true_iff.mp inside).1
        rw [if_pos inside, List.drop_left]
        exact ih.cons_cons _
      · rw [if_neg inside]
        exact ih.cons _

theorem Store.Proper.nodup_filesBelow {store : Store} (proper : store.Proper) (location : Location) :
    ((store.filesBelow location).map (·.1)).Nodup := by
  have distinct := List.Nodup.sublist (store.filesBelow_sublist location) proper
  refine List.Nodup.of_map (location ++ ·) ?_
  rw [List.map_map]
  exact distinct

theorem nodup_of_mapM {ε α β : Type} {f : α → Except ε β} {items : List α} {results : List β}
    (computed : items.mapM f = .ok results) (distinct : items.Nodup)
    (injective : ∀ a ∈ items, ∀ b ∈ items, ∀ c, f a = .ok c → f b = .ok c → a = b) : results.Nodup := by
  have each : List.Forall₂ (fun item result => item ∈ items ∧ f item = .ok result) items results :=
    (List.forall₂_and_left items results).mpr ⟨fun _ member => member, forall₂_of_mapM computed⟩
  refine (List.rel_nodup ⟨?_, ?_⟩ each).mp distinct
  · intro a b c here there
    exact injective a here.1 b there.1 c here.2 there.2
  · intro a b c here there
    exact Except.ok.inj (here.2.symm.trans there.2)

theorem names_of_relativePath {disk : Disk} {folder path : RawText} (present : path ∈ relativePaths disk folder) :
    ∃ names : List Name, names ≠ [] ∧ path = Text.joinWith slash (names.map Name.text) := by
  rw [relativePaths] at present
  split at present
  · split at present
    · obtain ⟨file, below, rfl⟩ := List.mem_map.mp present
      exact ⟨file.1, (Store.mem_filesBelow below).1, rfl⟩
    · cases present
  · cases present

theorem Name.descends_of_mem {names : List Name} {segment : RawText} (member : segment ∈ names.map Name.text) :
    Descends segment := by
  obtain ⟨name, -, rfl⟩ := List.mem_map.mp member
  exact name.descends_text

theorem eq_of_spelt_alike {names names' : List Name} (nonempty : names ≠ []) (nonempty' : names' ≠ [])
    (same : Text.joinWith slash (names.map Name.text) = Text.joinWith slash (names'.map Name.text)) :
    names = names' := by
  refine List.map_injective_iff.mpr Name.text_injective ?_
  exact Path.eq_of_joinWith_eq (fun _ => Name.descends_of_mem) (by simpa using nonempty)
    (fun _ => Name.descends_of_mem) (by simpa using nonempty') same

theorem Store.Proper.nodup_relativePaths {disk : Disk} (proper : disk.store.Proper) (folder : RawText) :
    (relativePaths disk folder).Nodup := by
  rw [relativePaths]
  split
  · split
    · rename_i place _
      have distinct := proper.nodup_filesBelow place.location
      rw [show (fun file : Location × Utf8.Bytes => Text.joinWith slash (file.1.map Name.text)) =
        (fun names => Text.joinWith slash (names.map Name.text)) ∘ Prod.fst from rfl, ← List.map_map]
      refine distinct.map_on ?_
      intro names here names' there same
      obtain ⟨file, present, rfl⟩ := List.mem_map.mp here
      obtain ⟨file', present', rfl⟩ := List.mem_map.mp there
      exact eq_of_spelt_alike (Store.mem_filesBelow present).1 (Store.mem_filesBelow present').1 same
    · exact .nil
  · exact .nil

theorem Config.scan_nodup {frontend : Frontend} {disk : Disk} {config : Config} {scanned : List RawText}
    (computed : config.scan frontend disk = .ok scanned) (proper : disk.store.Proper) : scanned.Nodup := by
  rw [Config.scan] at computed
  obtain ⟨includes, -, computed⟩ := ok_of_bind computed
  obtain ⟨excludes, -, computed⟩ := ok_of_bind computed
  obtain ⟨ignored, -, computed⟩ := ok_of_bind computed
  obtain ⟨paths, absolutes, computed⟩ := ok_of_bind computed
  cases computed
  refine (List.mergeSort_perm paths _).nodup_iff.mpr ?_
  refine nodup_of_mapM absolutes ((proper.nodup_relativePaths config.baseFolder).filter _) ?_
  obtain ⟨start, below⟩ := disk.absolute_descending config.baseFolder
  intro path here path' there found computed computed'
  obtain ⟨names, nonempty, rfl⟩ := names_of_relativePath (List.mem_filter.mp here).1
  obtain ⟨names', nonempty', rfl⟩ := names_of_relativePath (List.mem_filter.mp there).1
  have spelt := below _ found (fun _ => Name.descends_of_mem) (by simpa using nonempty) (ok_of_mapError computed)
  have spelt' := below _ found (fun _ => Name.descends_of_mem) (by simpa using nonempty') (ok_of_mapError computed')
  exact List.append_cancel_left (spelt.symm.trans spelt')

end ComponentDocs
