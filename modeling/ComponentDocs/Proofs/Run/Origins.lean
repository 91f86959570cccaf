import ComponentDocs.Component.Listing
import ComponentDocs.Proofs.Sorting
import ComponentDocs.Proofs.Yields

namespace ComponentDocs

/-- A component, the path of its file, and the position of its statement there. -/
structure Origin where
  path : RawText
  position : Nat
  component : Component

namespace Origin

def Precedes (first second : Origin) : Prop :=
  first.path < second.path ∨ first.path = second.path ∧ first.position < second.position

/-- The order by name, then by place. -/
def Before (first second : Origin) : Prop :=
  first.component.name < second.component.name ∨
    first.component.name = second.component.name ∧ first.Precedes second

variable {κ : Type} [DecidableEq κ] {catalog : Catalog κ}

/-- What the statements of a file yield, with their positions. -/
def ofFile (catalog : Catalog κ) (path : RawText) (file : SourceFile κ) : List Origin :=
  file.statements.zipIdx.filterMap fun (statement, position) =>
    (statement.yield catalog file (Path.nameAndFolder path).2).map (Origin.mk path position)

theorem mem_ofFile {path : RawText} {file : SourceFile κ} {origin : Origin} :
    origin ∈ ofFile catalog path file ↔ origin.path = path ∧ ∃ statement,
      file.statements[origin.position]? = some statement ∧
        statement.yield catalog file (Path.nameAndFolder path).2 = some origin.component := by
  rw [ofFile, List.mem_filterMap]
  constructor
  · rintro ⟨⟨statement, position⟩, placed, found⟩
    obtain ⟨component, yielded, rfl⟩ := Option.map_eq_some_iff.mp found
    exact ⟨rfl, statement, List.mk_mem_zipIdx_iff_getElem?.mp placed, yielded⟩
  · rintro ⟨rfl, statement, placed, yielded⟩
    refine ⟨(statement, origin.position), List.mk_mem_zipIdx_iff_getElem?.mpr placed, ?_⟩
    exact Option.map_eq_some_iff.mpr ⟨origin.component, yielded, rfl⟩

theorem map_component_ofFile (path : RawText) (file : SourceFile κ) :
    (ofFile catalog path file).map (·.component) =
      file.statements.filterMap (Statement.yield catalog file (Path.nameAndFolder path).2) := by
  rw [ofFile, List.map_filterMap]
  have forget : (fun entry : Statement κ × Nat =>
      ((entry.1.yield catalog file (Path.nameAndFolder path).2).map (Origin.mk path entry.2)).map (·.component)) =
      Statement.yield catalog file (Path.nameAndFolder path).2 ∘ Prod.fst := by
    funext entry
    simp [Option.map_map, Function.comp_def]
  rw [forget, ← List.filterMap_map, List.zipIdx_map_fst]

theorem ofFile_ordered (path : RawText) (file : SourceFile κ) : (ofFile catalog path file).Pairwise Precedes := by
  have positions : file.statements.zipIdx.Pairwise fun a b => a.2 < b.2 := by
    apply List.pairwise_map.mp
    rw [List.zipIdx_map_snd]
    exact List.pairwise_lt_range'
  rw [ofFile, List.pairwise_filterMap]
  refine positions.imp ?_
  rintro ⟨statement, i⟩ ⟨statement', j⟩ earlier origin found origin' found'
  obtain ⟨component, -, rfl⟩ := Option.map_eq_some_iff.mp found
  obtain ⟨component', -, rfl⟩ := Option.map_eq_some_iff.mp found'
  exact .inr ⟨rfl, earlier⟩

def ofFiles (catalog : Catalog κ) (table : Bindings RawText (SourceFile κ)) : List Origin :=
  table.flatMap fun (path, file) => ofFile catalog path file

theorem ofFiles_ordered {table : Bindings RawText (SourceFile κ)} (ascending : (table.map (·.1)).Pairwise (· < ·)) :
    (ofFiles catalog table).Pairwise Precedes := by
  rw [ofFiles, List.pairwise_flatMap]
  constructor
  · rintro ⟨path, file⟩ _
    exact ofFile_ordered path file
  · refine (List.pairwise_map.mp ascending).imp ?_
    rintro ⟨path, file⟩ ⟨path', file'⟩ earlier origin here origin' there
    have placed := (mem_ofFile.mp here).1
    have placed' := (mem_ofFile.mp there).1
    left
    rw [placed, placed']
    exact earlier

def sortByName (origins : List Origin) : List Origin :=
  origins.mergeSort fun a b => decide (a.component.name ≤ b.component.name)

theorem map_component_sortByName (origins : List Origin) :
    (sortByName origins).map (·.component) = Component.sortByName (origins.map (·.component)) :=
  List.map_mergeSort fun _ _ _ _ => rfl

theorem sortByName_ordered {origins : List Origin} (ordered : origins.Pairwise Precedes) :
    (sortByName origins).Pairwise Before := by
  have sorted := pairwise_mergeSort_stable (fun origin : Origin => origin.component.name) ordered
  exact sorted

end Origin

end ComponentDocs
