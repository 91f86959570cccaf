import ComponentDocs.Component.Listing
import ComponentDocs.Docs
import ComponentDocs.Proofs.Run.ParsedFiles
import ComponentDocs.Proofs.Run.SpeltPaths

namespace ComponentDocs

namespace Path

open Text (splitAt joinWith)

abbrev backslash : CodePoint := .char '\\'

/-- What can stand between two slashes of either kind. Dots are segments as well. -/
def IsSegment (segment : RawText) : Prop := segment ≠ [] ∧ slash ∉ segment ∧ backslash ∉ segment

instance (segment : RawText) : Decidable (IsSegment segment) :=
  inferInstanceAs (Decidable (segment ≠ [] ∧ slash ∉ segment ∧ backslash ∉ segment))

/-- A slash before each segment. Unlike its path, the stem of the root is empty. -/
def stem (segments : List RawText) : RawText := segments.flatMap (slash :: ·)

/-- The path is that of the folder, or of something below it. -/
def LiesIn (base : List RawText) (path : RawText) : Prop := [] :: base <+: Disk.segments path

instance (base : List RawText) (path : RawText) : Decidable (LiesIn base path) :=
  inferInstanceAs (Decidable ([] :: base <+: Disk.segments path))

variable {base dirs : List RawText}

theorem stem_append (front back : List RawText) : stem (front ++ back) = stem front ++ stem back :=
  List.flatMap_append

theorem stem_concat (segments : List RawText) (last : RawText) :
    stem (segments ++ [last]) = stem segments ++ slash :: last := by
  rw [stem_append]
  simp [stem]

theorem stem_of_nonempty (nonempty : dirs ≠ []) : stem dirs = slash :: joinWith slash dirs := by
  induction dirs with
  | nil => exact absurd rfl nonempty
  | cons first rest ih =>
    have unfolded : stem (first :: rest) = slash :: first ++ stem rest := rfl
    by_cases last : rest = []
    · simp [last, stem, joinWith]
    · rw [unfolded, ih last, Text.joinWith_cons_of_ne_nil slash first last]
      simp

theorem ofNames_of_nonempty (nonempty : dirs ≠ []) : ofNames dirs = stem dirs := (stem_of_nonempty nonempty).symm

theorem splitAt_stem (whole : ∀ segment ∈ base, slash ∉ segment) : splitAt slash (stem base) = [] :: base := by
  induction base using List.reverseRecOn with
  | nil => rfl
  | append_singleton front last ih =>
    have lastWhole : slash ∉ last := whole last (by simp)
    rw [stem_concat, Text.splitAt_eq_splitOn, List.splitOn_append_cons_self, List.splitOn_eq_singleton lastWhole,
      ← Text.splitAt_eq_splitOn, ih fun segment present => whole segment (List.mem_append_left _ present)]
    simp

theorem getLast?_stem (proper : ∀ segment ∈ base, IsSegment segment) : (stem base).getLast? ≠ some slash := by
  rcases List.eq_nil_or_concat base with rfl | ⟨front, last, rfl⟩
  · simp [stem]
  · obtain ⟨filled, whole, -⟩ := proper last (by simp)
    rw [List.concat_eq_append, stem_concat, List.getLast?_append_of_ne_nil _ (by simp),
      List.getLast?_cons_of_ne_nil filled]
    exact fun ends => whole (List.mem_of_getLast? ends)

theorem dropSlashes_append {text : RawText} (count : Nat) (solid : text.getLast? ≠ some slash) :
    dropSlashes (text ++ List.replicate count slash) = text := by
  have kept : text.reverse.dropWhile (· == slash) = text.reverse := by
    rw [← List.head?_reverse] at solid
    cases points : text.reverse with
    | nil => rfl
    | cons point rest =>
      have apart : (point == slash) = false := by simpa [points] using solid
      rw [List.dropWhile_cons, apart, if_neg Bool.false_ne_true]
  rw [dropSlashes, List.reverse_append, List.dropWhile_append_of_pos (by simp), kept, List.reverse_reverse]

theorem unify_of_whole {text : RawText} (whole : backslash ∉ text) : unify text = text := by
  have kept : ∀ point ∈ text, (if point = backslash then slash else point) = point := by
    intro point present
    refine if_neg ?_
    rintro rfl
    exact whole present
  exact (List.map_congr_left kept).trans (List.map_id' text)

theorem backslash_not_mem_stem (proper : ∀ segment ∈ base, IsSegment segment) : backslash ∉ stem base := by
  intro present
  obtain ⟨segment, member, inside⟩ := List.mem_flatMap.mp present
  rcases List.mem_cons.mp inside with same | inside
  · exact absurd same (by decide)
  · exact (proper segment member).2.2 inside

/-- Slashes at the end of a base folder, the one that the root consists of included, are no part of its stem. -/
theorem stem_of_base (slashes : Nat) (proper : ∀ segment ∈ base, IsSegment segment) :
    dropSlashes (unify (ofNames base ++ List.replicate slashes slash)) = stem base := by
  have trailing : ∃ count, ofNames base ++ List.replicate slashes slash =
      stem base ++ List.replicate count slash := by
    by_cases root : base = []
    · exact ⟨slashes + 1, by simp [root, ofNames, stem, joinWith, List.replicate_succ]⟩
    · exact ⟨slashes, by rw [ofNames_of_nonempty root]⟩
  obtain ⟨count, text⟩ := trailing
  have whole : backslash ∉ stem base ++ List.replicate count slash := by
    simpa using backslash_not_mem_stem proper
  rw [text, unify_of_whole whole, dropSlashes_append count (getLast?_stem proper)]

theorem relativeTo_stem {given path : RawText} (stripped : dropSlashes (unify given) = stem base)
    (text : path = stem (base ++ dirs)) : relativeTo given path = joinWith slash dirs := by
  rw [stem_append] at text
  by_cases direct : dirs = []
  · have same : path = stem base := by simpa [direct, stem] using text
    rw [relativeTo, stripped, if_pos same, direct]
    rfl
  · have below : path = stem base ++ [slash] ++ joinWith slash dirs := by
      rw [text, stem_of_nonempty direct, List.append_assoc, List.singleton_append]
    have apart : path ≠ stem base := by simp [below]
    have opens : (stem base ++ [slash]).isPrefixOf path = true := by
      rw [below]
      exact List.isPrefixOf_iff_prefix.mpr (List.prefix_append _ _)
    have size : (stem base).length + 1 = (stem base ++ [slash]).length := by simp
    rw [relativeTo, stripped, if_neg apart, if_pos opens, below, size, List.drop_left]

theorem relativeTo_elsewhere {given path : RawText} (stripped : dropSlashes (unify given) = stem base)
    (whole : ∀ segment ∈ base, slash ∉ segment) (elsewhere : ¬ LiesIn base path) :
    relativeTo given path = path := by
  have segments : ∀ rest, splitAt slash path = splitAt slash (stem base) ++ rest → LiesIn base path := by
    intro rest split
    refine ⟨rest, ?_⟩
    rw [Disk.segments, split, splitAt_stem whole]
  rw [relativeTo, stripped]
  split
  · rename_i same
    exact absurd (segments [] (by rw [same, List.append_nil])) elsewhere
  · split
    · rename_i opens
      obtain ⟨rest, text⟩ := List.isPrefixOf_iff_prefix.mp opens
      refine absurd (segments (splitAt slash rest) ?_) elsewhere
      rw [← text, List.append_assoc, List.singleton_append, Text.splitAt_eq_splitOn, Text.splitAt_eq_splitOn,
        Text.splitAt_eq_splitOn, List.splitOn_append_cons_self]
    · rfl

theorem splitLast_slash (head : RawText) {name : RawText} (whole : slash ∉ name) :
    splitLast (head ++ slash :: name) = (head ++ [slash], name) := by
  have kept : ∀ point ∈ name.reverse, (point != slash) = true := by
    intro point present
    rw [bne_iff_ne]
    rintro rfl
    exact whole (List.mem_reverse.mp present)
  have last : (head ++ slash :: name).reverse.takeWhile (· != slash) = name.reverse := by
    rw [List.reverse_append, List.reverse_cons, List.append_assoc, List.takeWhile_append_of_pos kept]
    simp
  have size : (head ++ slash :: name).length - name.length = (head ++ [slash]).length := by
    simp
    omega
  rw [splitLast, last, List.reverse_reverse, size, List.append_cons head slash name, List.take_left]

theorem nameAndFolder_ofNames {name : RawText} (proper : ∀ segment ∈ dirs ++ [name], IsSegment segment) :
    nameAndFolder (ofNames (dirs ++ [name])) = (name, stem dirs) := by
  have named : IsSegment name := proper name (by simp)
  rw [nameAndFolder, ofNames_of_nonempty (by simp), unify_of_whole (backslash_not_mem_stem proper)]
  dsimp only
  rw [if_neg (by simpa using getLast?_stem proper), stem_concat, splitLast_slash _ named.2.1]
  simp

theorem opening_of_opens {folder : RawText} (opens : Opens folder) : opening folder = folder := by
  rw [opening, if_pos]
  rcases opens with rfl | ⟨front, ends⟩
  · rfl
  · simp [ends]

theorem opening_of_solid {folder : RawText} (filled : folder ≠ []) (solid : folder.getLast? ≠ some slash) :
    opening folder = folder ++ [slash] := by
  rw [opening, if_neg]
  simp [filled, solid]

theorem opening_ofNames (proper : ∀ segment ∈ base, IsSegment segment) :
    opening (ofNames base) = stem base ++ [slash] := by
  by_cases root : base = []
  · rw [root]
    rfl
  · have filled : ofNames base ≠ [] := by simp [ofNames]
    have text := ofNames_of_nonempty root
    rw [opening_of_solid filled (by rw [text]; exact getLast?_stem proper), text]

theorem join_join (folder : RawText) {name : RawText} (proper : ∀ segment ∈ dirs, IsSegment segment)
    (filled : name ≠ []) (whole : slash ∉ name) :
    join (join folder (joinWith slash dirs)) name = opening folder ++ joinWith slash (dirs ++ [name]) := by
  obtain ⟨point, rest, text, notSlash⟩ := relative_of_first [] filled whole
  rw [joinWith] at text
  rw [join_of_relative _ text notSlash]
  cases dirs with
  | nil =>
    have joined : join folder (joinWith slash []) = opening folder := by
      rw [join, opening, joinWith, if_neg (by simp)]
      split <;> simp
    have opens : Opens (join folder (joinWith slash [])) := by
      rw [joined]
      exact opening_opens folder
    rw [opening_of_opens opens, joined]
    rfl
  | cons first more =>
    obtain ⟨firstFilled, firstWhole, -⟩ := proper first List.mem_cons_self
    obtain ⟨d, others, below, apart⟩ := relative_of_first more firstFilled firstWhole
    have joined := join_of_relative folder below apart
    have solid : (join folder (joinWith slash (first :: more))).getLast? ≠ some slash := by
      have ends := getLast?_stem proper
      rw [stem_of_nonempty (by simp), List.getLast?_cons_of_ne_nil (by simp [below])] at ends
      rwa [joined, List.getLast?_append_of_ne_nil _ (by simp [below])]
    have nonempty : join folder (joinWith slash (first :: more)) ≠ [] := by
      rw [joined, below]
      simp
    rw [opening_of_solid nonempty solid, joined, Text.joinWith_append_of_ne_nil slash (by simp) (by simp)]
    simp [joinWith]

theorem join_ofNames {name : RawText} (properBase : ∀ segment ∈ base, IsSegment segment)
    (proper : ∀ segment ∈ dirs, IsSegment segment) (named : IsSegment name) :
    join (join (ofNames base) (joinWith slash dirs)) name = ofNames (base ++ dirs ++ [name]) := by
  have below : stem (dirs ++ [name]) = slash :: joinWith slash (dirs ++ [name]) := stem_of_nonempty (by simp)
  rw [join_join _ proper named.1 named.2.1, opening_ofNames properBase, ofNames_of_nonempty (by simp),
    List.append_assoc base, stem_append, below, List.append_assoc, List.singleton_append]

end Path

section

variable {κ : Type} [DecidableEq κ] {catalog : Catalog κ}

theorem SourceFile.result_componentsAt (file : SourceFile κ) (path : RawText) :
    (file.componentsAt catalog path).result.1 =
      (file.components catalog (Path.nameAndFolder path).2).mapError .malformed := rfl

theorem Component.relativeTo_of_elsewhere {base : RawText} {component : Component}
    (kept : Path.relativeTo base component.sourcePath = component.sourcePath) (before after : List Component) :
    Component.relativeTo base (before ++ component :: after) =
      Component.relativeTo base before ++ component :: Component.relativeTo base after := by
  simp only [Component.relativeTo, List.map_append, List.map_cons, kept]

theorem RawText.slash_mem_ofString {text : String} : slash ∈ (text : RawText) ↔ '/' ∈ text.toList := by
  rw [List.mem_map]
  constructor
  · rintro ⟨c, present, same⟩
    cases same
    exact present
  · exact fun present => ⟨'/', present, rfl⟩

theorem Component.docsPath_eq (docsFolder : RawText) {component : Component} {dirs : List RawText}
    (proper : ∀ segment ∈ dirs, Path.IsSegment segment) (relative : component.sourcePath = Text.joinWith slash dirs)
    (whole : '/' ∉ component.name.toList) :
    component.docsPath docsFolder =
      Path.opening docsFolder ++ Text.joinWith slash (dirs ++ [((component.name ++ ".md" : String) : RawText)]) := by
  rw [Component.docsPath, relative]
  refine Path.join_join docsFolder proper (by simp) ?_
  rw [RawText.slash_mem_ofString]
  simpa using whole

theorem Path.prefix_opening (folder : RawText) : folder <+: Path.opening folder := by
  rw [Path.opening]
  split
  · exact List.prefix_rfl
  · exact List.prefix_append _ _

/-- A source path together with the base folder and the name of the file is the path of the file again. -/
theorem source_path_lossless (catalog : Catalog κ) (file : SourceFile κ) (base dirs : List RawText) (name : RawText)
    (slashes : Nat) (proper : ∀ segment ∈ base ++ dirs ++ [name], Path.IsSegment segment) :
    let path := Path.ofNames (base ++ dirs ++ [name])
    let relative := Text.joinWith slash dirs
    let given := Path.ofNames base ++ List.replicate slashes slash
    (Path.nameAndFolder path).1 = name ∧ Path.isAbsolute relative = false ∧
      Path.join (Path.join (Path.ofNames base) relative) name = path ∧
      (∀ components, (file.componentsAt catalog path).result.1 = .ok components →
        Component.relativeTo given components =
          components.map fun component => { component with sourcePath := relative }) ∧
      (∀ (docsFolder : RawText) (component : Component), component.sourcePath = relative →
        '/' ∉ component.name.toList → docsFolder <+: component.docsPath docsFolder) ∧
      ∀ (before after : List Component) (component : Component), ¬ Path.LiesIn base component.sourcePath →
        Component.relativeTo given (before ++ component :: after) =
          Component.relativeTo given before ++ component :: Component.relativeTo given after := by
  intro path relative given
  have properFolder : ∀ segment ∈ base ++ dirs, Path.IsSegment segment := fun segment present =>
    proper segment (List.mem_append_left _ present)
  have properBase : ∀ segment ∈ base, Path.IsSegment segment := fun segment present =>
    properFolder segment (List.mem_append_left _ present)
  have properDirs : ∀ segment ∈ dirs, Path.IsSegment segment := fun segment present =>
    properFolder segment (List.mem_append_right _ present)
  have named : Path.IsSegment name := proper name (by simp)
  have split := Path.nameAndFolder_ofNames proper
  have stripped : Path.dropSlashes (Path.unify given) = Path.stem base := Path.stem_of_base slashes properBase
  refine ⟨by rw [split], ?_, ?_, ?_, ?_, ?_⟩
  · cases dirs with
    | nil => rfl
    | cons first rest =>
      obtain ⟨filled, whole, -⟩ := properDirs first List.mem_cons_self
      obtain ⟨point, more, text, notSlash⟩ := Path.relative_of_first rest filled whole
      simp [relative, Path.isAbsolute, text, notSlash]
  · exact Path.join_ofNames properBase properDirs named
  · intro components computed
    rw [SourceFile.result_componentsAt, split] at computed
    have folder := SourceFile.sourcePath_of_components (ok_of_mapError computed)
    apply List.map_congr_left
    intro component present
    rw [folder component present, Path.relativeTo_stem stripped rfl]
  · intro docsFolder component below whole
    rw [Component.docsPath_eq docsFolder properDirs below whole]
    exact (Path.prefix_opening docsFolder).trans (List.prefix_append _ _)
  · intro before after component elsewhere
    have whole : ∀ segment ∈ base, slash ∉ segment := fun segment present => (properBase segment present).2.1
    exact Component.relativeTo_of_elsewhere (Path.relativeTo_elsewhere stripped whole elsewhere) before after

def linkFile : SourceFile Kind :=
  ⟨.node "program", [⟨.node "function_declaration", [], [⟨.keyword "export", "export"⟩],
    .function (some ⟨.node "identifier", "Link"⟩) []
      (some ⟨.node "statement_block", [⟨.node "return_statement", [], [],
        .returning (some ⟨.node "jsx_self_closing_element", "<a/>", .plain⟩)⟩]⟩)⟩], "Link.tsx"⟩

def linkAt (sourcePath : RawText) : Component := ⟨"Link", sourcePath, .functionBased, "", [], ""⟩

theorem link_source_path_lossless :
    (linkFile.componentsAt tsxCatalog "/lib/a/b/Link.tsx").result.1 = .ok [linkAt "/lib/a/b"] ∧
      Component.relativeTo "/lib//" [linkAt "/lib/a/b"] = [linkAt "a/b"] ∧
      Path.join (Path.join "/lib" "a/b") "Link.tsx" = ("/lib/a/b/Link.tsx" : RawText) ∧
      ("docs" : RawText) <+: (linkAt "a/b").docsPath "docs" ∧
      Component.relativeTo "/lib//" [linkAt "/library"] = [linkAt "/library"] := by
  have extracted : (linkFile.componentsAt tsxCatalog "/lib/a/b/Link.tsx").result.1 = .ok [linkAt "/lib/a/b"] := by
    decide +kernel
  let dirs : List RawText := ["a", "b"]
  have path : Path.ofNames ([("lib" : RawText)] ++ dirs ++ [("Link.tsx" : RawText)]) =
      ("/lib/a/b/Link.tsx" : RawText) := by decide
  have base : Path.ofNames ["lib"] = ("/lib" : RawText) := by decide
  have given : ("/lib" : RawText) ++ List.replicate 2 slash = ("/lib//" : RawText) := by decide
  have lossless := source_path_lossless tsxCatalog linkFile ["lib"] dirs "Link.tsx" 2 (by decide)
  dsimp only at lossless
  rw [path, base, given] at lossless
  obtain ⟨-, -, joined, relative, documented, elsewhere⟩ := lossless
  exact ⟨extracted, relative _ extracted, joined, documented "docs" (linkAt "a/b") rfl (by decide),
    elsewhere [] [] (linkAt "/library") (by decide)⟩

end

end ComponentDocs
