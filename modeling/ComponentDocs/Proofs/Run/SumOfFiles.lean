import ComponentDocs.Glob.Pattern
import ComponentDocs.Proofs.Run.Outcome
import ComponentDocs.Proofs.Run.ScannedPaths
import ComponentDocs.Text.Encoding
import Mathlib.Data.List.Dedup

namespace ComponentDocs

/-- The component is what a statement of a scanned file yields, and the file can be parsed. -/
def Origin.Arises (frontend : Frontend) (disk : Disk) (scanned : List RawText) (origin : Origin) : Prop :=
  origin.path ∈ scanned ∧ ∃ file statement, frontend.parseFile disk origin.path = .ok file ∧
    file.statements[origin.position]? = some statement ∧
      statement.component tsxCatalog file (Path.nameAndFolder origin.path).2 = .ok (some origin.component)

/-- The document shows the component of an origin: only its source path and its documentation may differ. -/
def Origin.Shows (base : RawText) (origin : Origin) (shown : Component) : Prop :=
  ∃ docs, shown =
    { origin.component with sourcePath := Path.relativeTo base origin.component.sourcePath, docs := docs }

/-- How the components of a document come about. -/
structure SumOfFiles (frontend : Frontend) (disk : Disk) (config : Config) (document : Json) (scanned : List RawText)
    (shares : List (List Component)) (origins : List Origin) (documented : List Component) : Prop where
  scans : config.scan frontend disk = .ok scanned
  ascending : scanned.Pairwise (· ≤ ·)
  distinct : disk.store.Proper → scanned.Nodup
  alone : scanned.dedup.mapM (frontend.share disk) = .ok shares
  attached : attachDocs disk config.docsFolder
    (Component.relativeTo config.baseFolder (Component.sortByName shares.flatten)) = .ok documented
  published : ∃ fields, document = .object fields ∧ Json.key "components" fields = componentsToJson documented
  ordered : origins.Pairwise Origin.Before
  complete : ∀ origin, origin ∈ origins ↔ origin.Arises frontend disk scanned
  shown : List.Forall₂ (Origin.Shows config.baseFolder) origins documented

theorem flatMap_filter {α β : Type} {keeps : α → Bool} {f : α → List β}
    (silent : ∀ item, keeps item = false → f item = []) (items : List α) :
    (items.filter keeps).flatMap f = items.flatMap f := by
  induction items with
  | nil => rfl
  | cons item rest ih =>
    rw [List.filter_cons, List.flatMap_cons]
    cases kept : keeps item with
    | true => rw [if_pos rfl, List.flatMap_cons, ih]
    | false => rw [if_neg Bool.false_ne_true, ih, silent item kept, List.nil_append]

variable {frontend : Frontend} {disk : Disk}

section Table

variable {scanned : List RawText} {table : Bindings RawText (SourceFile Kind)} (lists : frontend.Lists disk scanned table)
  (read : ∀ entry ∈ table, ∃ found, entry.2.components tsxCatalog (Path.nameAndFolder entry.1).2 = .ok found)

include lists

theorem Frontend.Lists.ascending (sorted : scanned.Pairwise (· ≤ ·)) : (table.map (·.1)).Pairwise (· < ·) := by
  refine ((sorted.sublist lists.order).and lists.distinct).imp ?_
  intro first second ⟨atMost, apart⟩
  by_cases below : first < second
  · exact below
  · exact absurd (Std.le_antisymm atMost (Std.not_lt.mp below)) apart

theorem Frontend.Lists.paths (sorted : scanned.Pairwise (· ≤ ·)) :
    table.map (·.1) = scanned.dedup.filter fun path => (frontend.parseFile disk path).isOk := by
  have sameMembers : ∀ path, path ∈ table.map (·.1) ↔
      path ∈ scanned.dedup.filter fun path => (frontend.parseFile disk path).isOk := by
    intro path
    rw [List.mem_map, List.mem_filter, List.mem_dedup]
    constructor
    · rintro ⟨⟨_, file⟩, member, rfl⟩
      obtain ⟨present, parsed⟩ := (lists.entries _ file).mp member
      exact ⟨present, by rw [parsed]; rfl⟩
    · rintro ⟨present, parses⟩
      cases parsed : frontend.parseFile disk path with
      | error failure =>
        rw [parsed] at parses
        cases parses
      | ok file => exact ⟨(path, file), (lists.entries path file).mpr ⟨present, parsed⟩, rfl⟩
  have perm := (List.perm_ext_iff_of_nodup lists.distinct ((List.nodup_dedup scanned).filter _)).mpr sameMembers
  refine List.Perm.eq_of_pairwise ?_ (sorted.sublist lists.order) ?_ perm
  · intro first second _ _ below above
    exact Std.le_antisymm below above
  · exact sorted.sublist (List.filter_sublist.trans (List.dedup_sublist scanned))

include read

theorem Origin.mem_ofFiles_iff (origin : Origin) :
    origin ∈ Origin.ofFiles tsxCatalog table ↔ origin.Arises frontend disk scanned := by
  rw [Origin.ofFiles, List.mem_flatMap]
  constructor
  · rintro ⟨⟨path, file⟩, member, here⟩
    obtain ⟨rfl, statement, placed, yielded⟩ := Origin.mem_ofFile.mp here
    obtain ⟨present, parsed⟩ := (lists.entries _ file).mp member
    obtain ⟨found, computed⟩ := read _ member
    have component := (SourceFile.yields_of_components computed).1 statement (List.mem_of_getElem? placed)
    exact ⟨present, file, statement, parsed, placed, component.trans (congrArg Except.ok yielded)⟩
  · rintro ⟨present, file, statement, parsed, placed, component⟩
    have member := (lists.entries origin.path file).mpr ⟨present, parsed⟩
    exact ⟨_, member, Origin.mem_ofFile.mpr ⟨rfl, statement, placed, Statement.yield_of_component component⟩⟩

theorem Frontend.Lists.share_of_mem {path : RawText} {file : SourceFile Kind} (member : (path, file) ∈ table) :
    frontend.share disk path = .ok ((Origin.ofFile tsxCatalog path file).map (·.component)) := by
  have parsed := ((lists.entries path file).mp member).2
  obtain ⟨found, computed⟩ := read _ member
  have yielded := (SourceFile.yields_of_components computed).2
  rw [Frontend.share, parsed]
  dsimp only
  rw [Frontend.result_processFile parsed, computed, Origin.map_component_ofFile, yielded]
  rfl

theorem Frontend.Lists.shares (sorted : scanned.Pairwise (· ≤ ·)) :
    ∃ shares, scanned.dedup.mapM (frontend.share disk) = .ok shares ∧
      shares.flatten = (Origin.ofFiles tsxCatalog table).map (·.component) := by
  let given (path : RawText) : List Component := (frontend.share disk path).toOption.getD []
  have given_of_share : ∀ path components, frontend.share disk path = .ok components → given path = components := by
    intro path components shared
    simp only [given, shared]
    rfl
  have each : ∀ path ∈ scanned.dedup, frontend.share disk path = .ok (given path) := by
    intro path present
    cases parsed : frontend.parseFile disk path with
    | error failure =>
      have shared := Frontend.share_of_error parsed
      rw [shared, given_of_share path [] shared]
    | ok file =>
      have member := (lists.entries path file).mpr ⟨List.mem_dedup.mp present, parsed⟩
      have shared := lists.share_of_mem read member
      rw [shared, given_of_share path _ shared]
  refine ⟨scanned.dedup.map given, mapM_eq_ok_map each, ?_⟩
  calc (scanned.dedup.map given).flatten
      = scanned.dedup.flatMap given := rfl
    _ = (scanned.dedup.filter fun path => (frontend.parseFile disk path).isOk).flatMap given := by
      refine (flatMap_filter ?_ _).symm
      intro path fails
      cases parsed : frontend.parseFile disk path with
      | error failure => exact given_of_share path [] (Frontend.share_of_error parsed)
      | ok file =>
        rw [parsed] at fails
        cases fails
    _ = (table.map (·.1)).flatMap given := by rw [lists.paths sorted]
    _ = table.flatMap fun entry => given entry.1 := List.flatMap_map ..
    _ = table.flatMap fun entry => (Origin.ofFile tsxCatalog entry.1 entry.2).map (·.component) := by
      refine List.flatMap_congr ?_
      intro entry member
      exact given_of_share entry.1 _ (lists.share_of_mem read member)
    _ = (Origin.ofFiles tsxCatalog table).map (·.component) := by rw [Origin.ofFiles, List.map_flatMap]

end Table

theorem docs_of_withDocs {docsFolder : RawText} {component shown : Component}
    (computed : component.withDocs disk docsFolder = .ok shown) : ∃ docs, shown = { component with docs := docs } := by
  rw [Component.withDocs] at computed
  split at computed
  · obtain ⟨text, -, computed⟩ := ok_of_bind computed
    cases computed
    exact ⟨_, rfl⟩
  · cases computed
    exact ⟨component.docs, rfl⟩

theorem docs_of_attachDocs {docsFolder : RawText} {components documented : List Component}
    (attached : attachDocs disk docsFolder components = .ok documented) :
    List.Forall₂ (fun component shown => ∃ docs, shown = { component with docs := docs }) components documented := by
  rw [attachDocs] at attached
  split at attached
  · cases attached
    exact List.forall₂_same.mpr fun component _ => ⟨component.docs, rfl⟩
  · exact (forall₂_of_mapM attached).imp fun _ _ computed => docs_of_withDocs computed

theorem shows_of_attachDocs {docsFolder base : RawText} {origins : List Origin} {documented : List Component}
    (attached : attachDocs disk docsFolder (Component.relativeTo base (origins.map (·.component))) = .ok documented) :
    List.Forall₂ (Origin.Shows base) origins documented := by
  have changed := docs_of_attachDocs attached
  rw [Component.relativeTo, List.map_map, List.forall₂_map_left_iff] at changed
  exact changed

theorem components_of_payload {config : Config} {components : List Component} {document : Json}
    (computed : config.payload disk components = .ok document) :
    ∃ fields, document = .object fields ∧ Json.key "components" fields = componentsToJson components := by
  obtain ⟨docs, -, computed⟩ := ok_of_bind computed
  cases computed
  exact ⟨_, rfl, rfl⟩

theorem ascending_of_scan {config : Config} {scanned : List RawText} (scans : config.scan frontend disk = .ok scanned) :
    scanned.Pairwise (· ≤ ·) := by
  rw [Config.scan] at scans
  obtain ⟨includes, -, scans⟩ := ok_of_bind scans
  obtain ⟨excludes, -, scans⟩ := ok_of_bind scans
  obtain ⟨ignored, -, scans⟩ := ok_of_bind scans
  obtain ⟨paths, -, scans⟩ := ok_of_bind scans
  cases scans
  exact pairwise_mergeSort_key (fun path => path) paths

theorem sumOfFiles_of_stages {folder output : Option RawText} {before after : List Notice} {publication : Publication}
    (stages : Publication.Stages frontend disk folder output publication before after) :
    ∃ shares origins, SumOfFiles frontend disk stages.config publication.document stages.scanned shares origins
      stages.documented := by
  have sorted := ascending_of_scan stages.scans
  have lists := Frontend.lists_of_parseFiles stages.parses
  obtain ⟨read, found⟩ := components_of_componentsOfFiles stages.extracts
  obtain ⟨shares, alone, summed⟩ := lists.shares read sorted
  have attached := stages.attaches
  refine ⟨shares, Origin.sortByName (Origin.ofFiles tsxCatalog stages.table), ?_⟩
  exact {
    scans := stages.scans
    ascending := sorted
    distinct := Config.scan_nodup stages.scans
    alone := alone
    attached := by rw [summed, ← found, attached]
    published := components_of_payload stages.composes
    ordered := Origin.sortByName_ordered (Origin.ofFiles_ordered (lists.ascending sorted))
    complete := fun origin => by
      rw [Origin.sortByName, List.mem_mergeSort]
      exact Origin.mem_ofFiles_iff lists read origin
    shown := by
      rw [found, ← Origin.map_component_sortByName] at attached
      exact shows_of_attachDocs attached }

theorem prepare_of_publish {folder output : Option RawText} {path : RawText}
    (published : (publish frontend disk folder output).1.1 = .ok path) :
    ∃ publication notices, (Publication.prepare frontend disk folder output).Runs [] publication notices ∧
      notices.all frontend.prints = true ∧ (publication.save disk).2 = .ok () ∧
      frontend.prints (.written publication.path) = true ∧ publication.path = path := by
  rcases publish_cases frontend disk folder output with ⟨failure, failed, -⟩ | ⟨publication, notices, ran, printed⟩
  · cases published.symm.trans failed
  · rw [(publish_of_runs ran printed).1] at published
    obtain ⟨⟨⟩, saved, published⟩ := ok_of_bind published
    split at published
    · rename_i told
      cases published
      exact ⟨publication, notices, ran, printed, saved, told, rfl⟩
    · cases published

/-- A run that publishes gives the sum of what runs over single files find, and does so in whatever order the disk lists
its files. -/
theorem published_sum_of_files {folder output : Option RawText} {path : RawText}
    (published : (publish frontend disk folder output).1.1 = .ok path) :
    ∃ config document scanned shares origins documented, (Config.load disk folder).result.1 = .ok config ∧
      (Publication.prepare frontend disk folder output).result.1 = .ok ⟨path, document⟩ ∧
      SumOfFiles frontend disk config document scanned shares origins documented ∧
      ∀ other, disk.Reenumerates other →
        Publication.prepare frontend other folder output = Publication.prepare frontend disk folder output ∧
          (publish frontend other folder output).1 = (publish frontend disk folder output).1 := by
  obtain ⟨publication, notices, ran, -, -, -, rfl⟩ := prepare_of_publish published
  obtain ⟨stages⟩ := Publication.prepare_runs_iff.mp ran
  obtain ⟨shares, origins, sum⟩ := sumOfFiles_of_stages stages
  refine ⟨stages.config, publication.document, stages.scanned, shares, origins, stages.documented, stages.load_result,
    congrArg Prod.fst ran, sum, ?_⟩
  intro other same
  exact ⟨(same.prepare frontend folder output).symm, (same.publish frontend folder output).symm⟩

def functionTree : Tree :=
  ⟨.node "program", none, 0, 35,
    [⟨.node "export_statement", none, 0, 35,
        [⟨.keyword "export", none, 0, 6, []⟩,
          ⟨.node "function_declaration", some "declaration", 7, 35,
            [⟨.keyword "function", none, 7, 15, []⟩, ⟨.node "identifier", some "name", 16, 17, []⟩,
              ⟨.node "formal_parameters", some "parameters", 17, 19, []⟩,
              ⟨.node "statement_block", some "body", 20, 35,
                [⟨.node "return_statement", none, 22, 33,
                    [⟨.keyword "return", none, 22, 28, []⟩,
                      ⟨.node "jsx_self_closing_element", none, 29, 33, []⟩]⟩]⟩]⟩]⟩]⟩

def functionSource : Utf8.Bytes := Utf8.encode "export function A() { return <p/> }".toList

def foreignSource : Utf8.Bytes := [0xC4, 0xE3, 0xC6, 0xF7]

def libraryFrontend : Frontend where
  detect bytes := if bytes = foreignSource then some "EUC-TW" else some "ascii"
  decode := Encoding.decodeNamed
  compile := Glob.compile
  parse _ := functionTree
  prints _ := true

/-- Two files with a component of one name and a file that cannot be decoded, listed in no order. -/
def libraryDisk : Disk where
  store := ⟨[(.of "lib/b.tsx", .file functionSource), (.of "lib", .folder),
    (.of "lib/c.ts", .file foreignSource), (.of "lib/a.tsx", .file functionSource)]⟩
  working := .root

def reversedLibraryDisk : Disk := { libraryDisk with store := ⟨libraryDisk.store.entries.reverse⟩ }

def libraryConfig : Config := { Config.plain "/lib" with title := .text "lib", configFolder := "/lib" }

def libraryComponent (sourcePath : RawText) : Component := ⟨"A", sourcePath, .functionBased, "", [], ""⟩

theorem libraryDisk_proper : libraryDisk.store.Proper := by decide

theorem libraryDisk_reversed : libraryDisk.Reenumerates reversedLibraryDisk :=
  Disk.reenumerates_of_perm libraryDisk_proper rfl (List.reverse_perm _).symm

theorem libraryDisk_loaded : (Config.load libraryDisk (some "lib")).result.1 = .ok libraryConfig := by
  rw [(Config.load_gives libraryDisk (some "lib")).result]
  rfl

theorem sortPaths_eq (paths : List RawText) :
    (paths.mergeSort fun a b => decide (a ≤ b)) = paths.insertionSort fun a b => a ≤ b :=
  mergeSort_eq_insertionSort (fun path => path) paths

theorem Component.sortByName_eq (components : List Component) :
    sortByName components = components.insertionSort fun a b => a.name ≤ b.name :=
  mergeSort_eq_insertionSort Component.name components

theorem library_published :
    (publish libraryFrontend libraryDisk (some "lib") none).1.1 = .ok "/lib/components.json" := by
  simp only [publish, Publication.prepare, Config.scan, sortPaths_eq, Component.sortByName_eq]
  decide +kernel

theorem library_scanned :
    libraryConfig.scan libraryFrontend libraryDisk = .ok ["/lib/a.tsx", "/lib/b.tsx", "/lib/c.ts"] := by
  simp only [Config.scan, sortPaths_eq]
  decide +kernel

theorem library_sum_of_files :
    (publish libraryFrontend libraryDisk (some "lib") none).1.1 = .ok "/lib/components.json" ∧
      libraryDisk.store.Proper ∧ libraryDisk.Reenumerates reversedLibraryDisk ∧
      (Config.load libraryDisk (some "lib")).result.1 = .ok libraryConfig ∧
      ∃ document origins,
        (Publication.prepare libraryFrontend libraryDisk (some "lib") none).result.1 =
          .ok ⟨"/lib/components.json", document⟩ ∧
        SumOfFiles libraryFrontend libraryDisk libraryConfig document ["/lib/a.tsx", "/lib/b.tsx", "/lib/c.ts"]
          [[libraryComponent "/lib"], [libraryComponent "/lib"], []] origins
          [libraryComponent "", libraryComponent ""] ∧
        ∀ other, libraryDisk.Reenumerates other →
          Publication.prepare libraryFrontend other (some "lib") none =
              Publication.prepare libraryFrontend libraryDisk (some "lib") none ∧
            (publish libraryFrontend other (some "lib") none).1 =
              (publish libraryFrontend libraryDisk (some "lib") none).1 := by
  obtain ⟨config, document, scanned, shares, origins, documented, loaded, prepared, sum, reenumerated⟩ :=
    published_sum_of_files library_published
  cases loaded.symm.trans libraryDisk_loaded
  cases sum.scans.symm.trans library_scanned
  have alone : ["/lib/a.tsx", "/lib/b.tsx", "/lib/c.ts"].dedup.mapM (libraryFrontend.share libraryDisk) =
      .ok [[libraryComponent "/lib"], [libraryComponent "/lib"], []] := by decide +kernel
  cases sum.alone.symm.trans alone
  have attached : attachDocs libraryDisk libraryConfig.docsFolder (Component.relativeTo libraryConfig.baseFolder
      (Component.sortByName [[libraryComponent "/lib"], [libraryComponent "/lib"], []].flatten)) =
      .ok [libraryComponent "", libraryComponent ""] := by
    simp only [Component.sortByName_eq]
    decide +kernel
  cases sum.attached.symm.trans attached
  exact ⟨library_published, libraryDisk_proper, libraryDisk_reversed, libraryDisk_loaded, document, origins, prepared,
    sum, reenumerated⟩

end ComponentDocs
