import ComponentDocs.Proofs.Run.Saving
import ComponentDocs.Proofs.Run.ScannedPaths

namespace ComponentDocs

theorem Text.separator_not_mem {α : Type} [DecidableEq α] {separator : α} {text piece : List α}
    (present : piece ∈ splitAt separator text) : separator ∉ piece := by
  induction text generalizing piece with
  | nil => simp_all [splitAt]
  | cons item rest ih =>
    rw [splitAt] at present
    split at present
    · rcases List.mem_cons.mp present with rfl | later
      · exact List.not_mem_nil
      · exact ih later
    · rename_i apart
      split at present
      · simpa [List.mem_singleton.mp present] using Ne.symm apart
      · rename_i first more split
        rw [split] at ih
        rcases List.mem_cons.mp present with rfl | later
        · have inner := ih List.mem_cons_self
          simpa [inner] using Ne.symm apart
        · exact ih (List.mem_cons_of_mem _ later)

namespace Path

open Text (splitAt joinWith)

/-- One slash or two, and then segments that lead down, with a slash between any two of them. -/
structure Spells (path : RawText) (segments : List RawText) : Prop where
  down : ∀ segment ∈ segments, Descends segment
  text : ∃ root, (root = [slash] ∨ root = [slash, slash]) ∧ path = root ++ joinWith slash segments

theorem Spells.isAbsolute {path : RawText} {segments : List RawText} (spells : Spells path segments) :
    isAbsolute path = true := by
  obtain ⟨root, slashes, rfl⟩ := spells.text
  rcases slashes with rfl | rfl <;> rfl

theorem push_descends {reversed : List RawText} {segment : RawText} (down : ∀ piece ∈ reversed, Descends piece)
    (whole : slash ∉ segment) : ∀ piece ∈ push true reversed segment, Descends piece := by
  unfold push
  split
  · exact down
  · rename_i stays
    split
    · cases reversed with
      | nil => simp
      | cons last before =>
        dsimp only
        split
        · rename_i climbs
          exact absurd climbs (down last List.mem_cons_self).2.2.1
        · exact fun piece present => down piece (List.mem_cons_of_mem _ present)
    · rename_i climbs
      intro piece present
      rcases List.mem_cons.mp present with rfl | before
      · exact ⟨fun empty => stays (.inl empty), fun stop => stays (.inr stop), climbs, whole⟩
      · exact down piece before

theorem foldl_push_descends {pieces reversed : List RawText} (whole : ∀ piece ∈ pieces, slash ∉ piece)
    (down : ∀ piece ∈ reversed, Descends piece) : ∀ piece ∈ pieces.foldl (push true) reversed, Descends piece := by
  induction pieces generalizing reversed with
  | nil => exact down
  | cons first rest ih =>
    apply ih (fun piece present => whole piece (List.mem_cons_of_mem _ present))
    exact push_descends down (whole first List.mem_cons_self)

theorem rootOf_of_isAbsolute {path : RawText} (absolute : isAbsolute path = true) :
    rootOf path = [slash] ∨ rootOf path = [slash, slash] := by
  rw [isAbsolute] at absolute
  rw [rootOf]
  cases path with
  | nil => simp at absolute
  | cons point rest =>
    have first : point = slash := by simpa using absolute
    rw [first]
    simp only [List.takeWhile_cons, beq_self_eq_true, if_true]
    split <;> simp_all

theorem spells_normalize {path : RawText} (absolute : isAbsolute path = true) :
    ∃ segments, Spells (normalize path) segments := by
  have root := rootOf_of_isAbsolute absolute
  have nonempty : rootOf path ≠ [] := by
    rcases root with single | double
    · simp [single]
    · simp [double]
  have rooted : (rootOf path != []) = true := by simpa using nonempty
  have down : ∀ piece ∈ (splitAt slash path).foldl (push true) [], Descends piece :=
    foldl_push_descends (fun _ present => Text.separator_not_mem present) (by simp)
  refine ⟨((splitAt slash path).foldl (push true) []).reverse, ?_, _, root, ?_⟩
  · exact fun segment present => down segment (List.mem_reverse.mp present)
  · rw [normalize]
    simp only [rooted]
    rw [if_neg (by simp [nonempty])]

theorem splitAt_slash (text : RawText) : splitAt slash (slash :: text) = [] :: splitAt slash text := by
  rw [splitAt, if_pos rfl]

theorem Spells.segments {path : RawText} {segments : List RawText} (spells : Spells path segments) :
    ∃ count, Disk.segments path = List.replicate count [] ++ segments := by
  obtain ⟨root, slashes, rfl⟩ := spells.text
  rw [Disk.segments]
  cases segments with
  | nil =>
    rcases slashes with rfl | rfl
    · exact ⟨2, rfl⟩
    · exact ⟨3, rfl⟩
  | cons first rest =>
    have split := splitAt_joinWith spells.down (by simp)
    rcases slashes with rfl | rfl
    · exact ⟨1, by rw [List.singleton_append, splitAt_slash, split]; rfl⟩
    · exact ⟨2, by rw [List.cons_append, List.singleton_append, splitAt_slash, splitAt_slash, split]; rfl⟩

theorem Spells.spelt {path : RawText} {segments : List RawText} (spells : Spells path segments) :
    Disk.spelt path = segments := by
  obtain ⟨count, split⟩ := spells.segments
  have kept : segments.filter (· != []) = segments := by
    apply List.filter_eq_self.mpr
    intro segment present
    simpa using (spells.down segment present).1
  rw [Disk.spelt, split, List.filter_append, kept]
  simp

theorem Spells.no_dots {path : RawText} {segments : List RawText} (spells : Spells path segments) :
    [dot, dot] ∉ Disk.segments path := by
  obtain ⟨count, split⟩ := spells.segments
  rw [split, List.mem_append, List.mem_replicate]
  rintro (⟨-, empty⟩ | present)
  · cases empty
  · exact (spells.down _ present).2.2.1 rfl

theorem Spells.getLast?_ne_slash {path : RawText} {segments : List RawText} (spells : Spells path segments)
    (nonempty : segments ≠ []) : path.getLast? ≠ some slash := by
  intro ending
  obtain ⟨front, ends⟩ := List.getLast?_eq_some_iff.mp ending
  obtain ⟨count, split⟩ := spells.segments
  have lastEmpty : (Disk.segments path).getLast? = some [] := by
    rw [Disk.segments, ends, Text.splitAt_eq_splitOn, List.splitOn_append_cons_self, List.splitOn_nil,
      List.getLast?_append]
    rfl
  rw [split, List.getLast?_append_of_ne_nil _ nonempty] at lastEmpty
  exact (spells.down [] (List.mem_of_getLast? lastEmpty)).1 rfl

theorem Spells.join {path : RawText} {segments rest : List RawText} (spells : Spells path segments)
    (down : ∀ segment ∈ rest, Descends segment) (nonempty : rest ≠ []) :
    Spells (Path.join path (joinWith slash rest)) (segments ++ rest) := by
  refine ⟨fun segment present => (List.mem_append.mp present).elim (spells.down segment) (down segment), ?_⟩
  obtain ⟨root, slashes, text⟩ := spells.text
  obtain ⟨point, more, below, notSlash⟩ := relative_of_descending down nonempty
  refine ⟨root, slashes, ?_⟩
  rw [join_of_relative path below notSlash, opening]
  by_cases atRoot : segments = []
  · have ends : path.getLast? == some slash := by
      rw [text, atRoot]
      rcases slashes with rfl | rfl <;> rfl
    rw [ends, Bool.or_true, if_pos rfl, text, atRoot]
    simp [joinWith]
  · have notEmpty : (path == []) = false := by
      apply beq_false_of_ne
      rintro rfl
      rcases slashes with rfl | rfl <;> cases text
    have inner : (path.getLast? == some slash) = false := beq_false_of_ne (spells.getLast?_ne_slash atRoot)
    rw [notEmpty, inner, Bool.false_or, if_neg Bool.false_ne_true, text,
      Text.joinWith_append_of_ne_nil slash atRoot nonempty]
    simp

theorem Spells.join_segment {path segment : RawText} {segments : List RawText} (spells : Spells path segments)
    (descends : Descends segment) : Spells (Path.join path segment) (segments ++ [segment]) := by
  have joined : Spells (Path.join path (joinWith slash [segment])) (segments ++ [segment]) :=
    spells.join (by simpa using descends) (by simp)
  exact joined

theorem Spells.rootOf {path : RawText} {segments : List RawText} (spells : Spells path segments) :
    ∃ root, (root = [slash] ∨ root = [slash, slash]) ∧ path = root ++ joinWith slash segments ∧
      rootOf path = root := by
  obtain ⟨root, slashes, text⟩ := spells.text
  refine ⟨root, slashes, text, ?_⟩
  rw [text]
  by_cases atRoot : segments = []
  · rw [atRoot]
    rcases slashes with rfl | rfl <;> rfl
  · obtain ⟨point, more, below, notSlash⟩ := relative_of_descending spells.down atRoot
    rw [below, rootOf_append root notSlash more]
    rcases slashes with rfl | rfl <;> rfl

theorem foldl_push_empty (rooted : Bool) (count : Nat) (reversed : List RawText) :
    (List.replicate count []).foldl (push rooted) reversed = reversed := by
  induction count with
  | zero => rfl
  | succ count ih =>
    have skipped : push rooted reversed [] = reversed := by
      unfold push
      rw [if_pos (.inl rfl)]
    rw [List.replicate_succ, List.foldl_cons, skipped, ih]

theorem Spells.normalize {path : RawText} {segments : List RawText} (spells : Spells path segments) :
    normalize path = path := by
  obtain ⟨root, slashes, text, rootKept⟩ := spells.rootOf
  obtain ⟨count, split⟩ := spells.segments
  rw [Disk.segments] at split
  have nonempty : root ≠ [] := by
    rcases slashes with rfl | rfl <;> simp
  simp only [Path.normalize, rootKept, split, List.foldl_append, foldl_push_empty,
    foldl_push_descending _ _ spells.down, List.append_nil, List.reverse_reverse]
  rw [if_neg (by simp [nonempty]), text]

theorem isAbsolute_join_of_isAbsolute {folder : RawText} (path : RawText) (absolute : isAbsolute folder = true) :
    isAbsolute (join folder path) = true := by
  rw [isAbsolute] at absolute ⊢
  have first : folder.head? = some slash := eq_of_beq absolute
  have front : ∀ behind : RawText, (folder ++ behind).head? = some slash := by
    intro behind
    rw [List.head?_append, first]
    rfl
  rw [join]
  split
  · assumption
  · split
    · simp [front]
    · simp [front]

end Path

open ComponentDocs.Path (Descends Spells)

theorem Store.spells_pathOf (location : Location) : Spells (Store.pathOf location) (location.map Name.text) :=
  ⟨fun _ => Name.descends_of_mem, [slash], .inl rfl, rfl⟩

theorem Disk.absolute_of_isAbsolute (disk : Disk) {path : RawText} (rooted : Path.isAbsolute path = true) :
    disk.absolute path = .ok (Path.normalize path) := by
  rw [Disk.absolute, if_pos rooted]
  rfl

theorem Disk.spells_absolute {disk : Disk} {path found : RawText} (computed : disk.absolute path = .ok found) :
    ∃ segments, Spells found segments := by
  rw [Disk.absolute] at computed
  split at computed
  · rename_i rooted
    cases computed
    exact Path.spells_normalize rooted
  · rw [Disk.workingPath] at computed
    split at computed
    · cases computed
      exact Path.spells_normalize (Path.isAbsolute_join_of_isAbsolute _ (Store.spells_pathOf _).isAbsolute)
    · cases computed

theorem Place.toward_descending {segment : RawText} {place next : Place} (descends : Descends segment)
    (leads : place.toward segment = .ok next) :
    ∃ name, Name.ofText segment = .ok name ∧ next = ⟨place.location ++ [name], 0⟩ := by
  rw [Place.toward, if_neg (not_or.mpr ⟨descends.1, descends.2.1⟩), if_neg descends.2.2.1, Place.child] at leads
  split at leads
  · obtain ⟨name, named, rfl⟩ := ok_of_map leads
    exact ⟨name, named, rfl⟩
  · cases leads

theorem Disk.location_of_walk {store : Store} {place target : Place} {segments : List RawText}
    (down : ∀ segment ∈ segments, Descends segment) (present : place.lost = 0)
    (followed : Disk.walk store place segments = .ok target) :
    ∃ names, segments.mapM Name.ofText = .ok names ∧ target = ⟨place.location ++ names, 0⟩ := by
  induction segments generalizing place with
  | nil =>
    cases followed
    exact ⟨[], rfl, by rw [List.append_nil, ← present]⟩
  | cons first rest ih =>
    obtain ⟨-, next, leads, later⟩ := Disk.walk_cons_iff.mp followed
    obtain ⟨name, named, rfl⟩ := Place.toward_descending (down first List.mem_cons_self) leads
    obtain ⟨names, spelt, rfl⟩ := ih (fun segment member => down segment (List.mem_cons_of_mem _ member)) rfl later
    refine ⟨name :: names, ?_, by rw [List.append_assoc, List.singleton_append]⟩
    rw [List.mapM_cons, named, spelt]
    rfl

theorem Disk.walk_root_empty (store : Store) (count : Nat) (segments : List RawText) :
    Disk.walk store .root (List.replicate count [] ++ segments) = Disk.walk store .root segments := by
  induction count with
  | zero => rfl
  | succ count ih =>
    have folder : Place.root.lookup store = some .folder := rfl
    rw [List.replicate_succ, List.cons_append, Disk.walk, folder]
    dsimp only
    rw [if_pos (.inl rfl), ih]

theorem Disk.follow_of_spells {path : RawText} {segments : List RawText} (disk : Disk)
    (spells : Spells path segments) : disk.follow path = Disk.walk disk.store .root segments := by
  obtain ⟨count, split⟩ := spells.segments
  rw [Disk.follow, spells.isAbsolute, if_pos rfl, split, Disk.walk_root_empty]

theorem Disk.isFolder_iff {disk : Disk} {path : RawText} :
    disk.isFolder path = true ↔ Store.pathProblem? path = none ∧
      ∃ place, disk.follow path = .ok place ∧ place.lookup disk.store = some .folder := by
  rw [Disk.isFolder, Disk.lookup, Disk.locate]
  cases Store.pathProblem? path with
  | some problem => simp
  | none =>
    cases disk.follow path with
    | error problem => simp
    | ok place => simp

theorem Disk.walk_append {store : Store} {place middle target : Place} {front back : List RawText}
    (first : Disk.walk store place front = .ok middle) (second : Disk.walk store middle back = .ok target) :
    Disk.walk store place (front ++ back) = .ok target := by
  induction front generalizing place with
  | nil =>
    cases first
    exact second
  | cons segment rest ih =>
    obtain ⟨folder, next, leads, later⟩ := Disk.walk_cons_iff.mp first
    exact Disk.walk_cons_iff.mpr ⟨folder, next, leads, ih later⟩

theorem Place.toward_name {segment : RawText} {name : Name} (descends : Descends segment)
    (named : Name.ofText segment = .ok name) (location : Location) :
    Place.toward segment ⟨location, 0⟩ = .ok ⟨location ++ [name], 0⟩ := by
  rw [Place.toward, if_neg (not_or.mpr ⟨descends.1, descends.2.1⟩), if_neg descends.2.2.1, Place.child, if_pos rfl,
    named]
  rfl

structure Disk.FolderAt (disk : Disk) (path : RawText) (segments : List RawText) (location : Location) : Prop where
  spells : Spells path segments
  spelt : segments.mapM Name.ofText = .ok location
  there : disk.isFolder path = true

namespace Disk.FolderAt

variable {disk : Disk} {path : RawText} {segments : List RawText} {location : Location}
  (folder : disk.FolderAt path segments location)

include folder

theorem found : disk.locate path = .ok ⟨location, 0⟩ ∧ Disk.walk disk.store .root segments = .ok ⟨location, 0⟩ ∧
    disk.store.get? location = some .folder := by
  obtain ⟨fits, place, followed, found⟩ := Disk.isFolder_iff.mp folder.there
  have walked := followed
  rw [disk.follow_of_spells folder.spells] at walked
  obtain ⟨names, spelt, rfl⟩ := Disk.location_of_walk folder.spells.down rfl walked
  cases spelt.symm.trans folder.spelt
  rw [Disk.locate, fits]
  exact ⟨followed, walked, found⟩

theorem follow_join {segment : RawText} {name : Name} (descends : Descends segment)
    (named : Name.ofText segment = .ok name) :
    disk.follow (Path.join path segment) = .ok ⟨location ++ [name], 0⟩ := by
  obtain ⟨-, walked, there⟩ := folder.found
  rw [disk.follow_of_spells (folder.spells.join_segment descends)]
  apply Disk.walk_append walked
  exact Disk.walk_cons_iff.mpr ⟨there, _, Place.toward_name descends named location, rfl⟩

theorem join_names {rest : Location} (nonempty : rest ≠ []) :
    Spells (Path.join path (Text.joinWith slash (rest.map Name.text))) (segments ++ rest.map Name.text) ∧
      (segments ++ rest.map Name.text).mapM Name.ofText = .ok (location ++ rest) := by
  refine ⟨folder.spells.join (fun _ => Name.descends_of_mem) (by simpa using nonempty), ?_⟩
  rw [List.mapM_append, folder.spelt, Name.mapM_ofText_text]
  rfl

end Disk.FolderAt

end ComponentDocs
