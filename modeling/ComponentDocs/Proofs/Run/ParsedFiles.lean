import ComponentDocs.Proofs.Run.Origins
import ComponentDocs.Proofs.Run.Reporting
import ComponentDocs.Sources
import Mathlib.Data.List.Induction

namespace ComponentDocs

open Reporting (Gives Runs)

namespace Bindings

variable {ν α : Type} [DecidableEq ν] {table : Bindings ν α} {name : ν} {value : α}

theorem put_eq_append (fresh : name ∉ table.map (·.1)) : table.put name value = table ++ [(name, value)] := by
  induction table with
  | nil => rfl
  | cons entry rest ih =>
    obtain ⟨key, old⟩ := entry
    have apart : key ≠ name := by
      rintro rfl
      exact fresh (by simp)
    have later : name ∉ rest.map (·.1) := fun present => fresh (List.mem_cons_of_mem _ present)
    rw [put, if_neg apart, ih later]
    rfl

theorem put_eq_self (present : name ∈ table.map (·.1)) (settled : ∀ old, (name, old) ∈ table → old = value) :
    table.put name value = table := by
  induction table with
  | nil => cases present
  | cons entry rest ih =>
    obtain ⟨key, old⟩ := entry
    by_cases same : key = name
    · subst same
      have unchanged : old = value := settled old List.mem_cons_self
      rw [put, if_pos rfl, unchanged]
    · have later : name ∈ rest.map (·.1) := by
        rcases List.mem_cons.mp present with here | later
        · exact absurd here.symm same
        · exact later
      rw [put, if_neg same, ih later fun old member => settled old (List.mem_cons_of_mem _ member)]

end Bindings

namespace Frontend

variable {frontend : Frontend} {disk : Disk}

def afterFile (frontend : Frontend) (disk : Disk) (table : Bindings RawText (SourceFile Kind)) (path : RawText) :
    Bindings RawText (SourceFile Kind) :=
  match frontend.parseFile disk path with
  | .ok file => table.put path file
  | .error _ => table

/-- The table holds those of the paths that can be parsed, in their order and each once. -/
structure Lists (frontend : Frontend) (disk : Disk) (paths : List RawText)
    (table : Bindings RawText (SourceFile Kind)) : Prop where
  entries : ∀ path file, (path, file) ∈ table ↔ path ∈ paths ∧ frontend.parseFile disk path = .ok file
  order : (table.map (·.1)).Sublist paths
  distinct : (table.map (·.1)).Nodup

theorem Lists.afterFile {paths : List RawText} {table : Bindings RawText (SourceFile Kind)}
    (lists : frontend.Lists disk paths table) (path : RawText) :
    frontend.Lists disk (paths ++ [path]) (frontend.afterFile disk table path) := by
  have longer : (table.map (·.1)).Sublist (paths ++ [path]) := lists.order.trans (List.sublist_append_left _ _)
  rw [Frontend.afterFile]
  cases parsed : frontend.parseFile disk path with
  | error failure =>
    refine ⟨?_, longer, lists.distinct⟩
    intro other found
    rw [lists.entries, List.mem_append, List.mem_singleton, or_and_right]
    refine (or_iff_left ?_).symm
    rintro ⟨rfl, here⟩
    cases parsed.symm.trans here
  | ok file =>
    dsimp only
    by_cases present : path ∈ table.map (·.1)
    · -- a path that comes again is parsed to the same file
      have settled : ∀ old, (path, old) ∈ table → old = file := by
        intro old member
        exact Except.ok.inj (((lists.entries path old).mp member).2.symm.trans parsed)
      rw [Bindings.put_eq_self present settled]
      refine ⟨?_, longer, lists.distinct⟩
      intro other found
      rw [lists.entries, List.mem_append, List.mem_singleton, or_and_right]
      refine (or_iff_left_of_imp ?_).symm
      rintro ⟨rfl, here⟩
      exact ⟨lists.order.subset present, here⟩
    · rw [Bindings.put_eq_append present]
      have keys : ((table ++ [(path, file)]).map (·.1)) = table.map (·.1) ++ [path] := by simp
      constructor
      · intro other found
        rw [List.mem_append, lists.entries, List.mem_append, List.mem_singleton, List.mem_singleton, or_and_right,
          Prod.mk.injEq]
        apply or_congr_right
        constructor
        · rintro ⟨rfl, rfl⟩
          exact ⟨rfl, parsed⟩
        · rintro ⟨rfl, here⟩
          exact ⟨rfl, Except.ok.inj (here.symm.trans parsed)⟩
      · rw [keys]
        exact lists.order.append (.refl _)
      · rw [keys]
        exact List.nodup_append.mpr ⟨lists.distinct, by simp, by grind⟩

theorem lists_foldl (frontend : Frontend) (disk : Disk) (paths : List RawText) :
    frontend.Lists disk paths (paths.foldl (frontend.afterFile disk) []) := by
  induction paths using List.reverseRecOn with
  | nil => exact ⟨by simp, .slnil, .nil⟩
  | append_singleton paths path ih =>
    rw [List.foldl_append]
    exact ih.afterFile path

theorem addParsed_gives (frontend : Frontend) (disk : Disk) (table : Bindings RawText (SourceFile Kind))
    (path : RawText) : (frontend.addParsed disk table path).Gives (.ok (frontend.afterFile disk table path)) := by
  rw [Frontend.addParsed, Frontend.afterFile]
  cases frontend.parseFile disk path with
  | ok file => exact .pure _
  | error failure => exact (Gives.report _).andThen ((Gives.report _).andThen (.pure table))

theorem parseFiles_gives (frontend : Frontend) (disk : Disk) (paths : List RawText) :
    (frontend.parseFiles disk paths).Gives (.ok (paths.foldl (frontend.afterFile disk) [])) := by
  apply (Gives.foldlM (frontend.addParsed_gives disk)).bind
  intro table
  exact (Gives.report _).andThen (.pure table)

theorem lists_of_parseFiles {paths : List RawText} {before after : List Notice}
    {table : Bindings RawText (SourceFile Kind)} (ran : (frontend.parseFiles disk paths).Runs before table after) :
    frontend.Lists disk paths table := by
  rw [← Except.ok.inj ((frontend.parseFiles_gives disk paths).eq_ok ran)]
  exact lists_foldl frontend disk paths

/-- What a file adds to a run: nothing if it cannot be parsed, else what a run over it alone finds. -/
def share (frontend : Frontend) (disk : Disk) (path : RawText) : Except Failure (List Component) :=
  match frontend.parseFile disk path with
  | .ok _ => (frontend.processFile disk path).result.1
  | .error _ => .ok []

theorem share_of_error {path : RawText} {failure : Failure} (fails : frontend.parseFile disk path = .error failure) :
    frontend.share disk path = .ok [] := by
  rw [share, fails]

theorem result_processFile {path : RawText} {file : SourceFile Kind} (parsed : frontend.parseFile disk path = .ok file) :
    (frontend.processFile disk path).result.1 =
      (file.components tsxCatalog (Path.nameAndFolder path).2).mapError .malformed := by
  rw [Frontend.processFile, parsed]
  rfl

end Frontend

section

variable {κ : Type} [DecidableEq κ] {catalog : Catalog κ}

theorem SourceFile.components_of_componentsAt {file : SourceFile κ} {path : RawText} {found : List Component}
    {before after : List Notice} (ran : (file.componentsAt catalog path).Runs before found after) :
    file.components catalog (Path.nameAndFolder path).2 = .ok found := by
  obtain ⟨-, between, -, ran⟩ := Runs.bind_iff.mp ran
  exact ok_of_mapError (Runs.lift_iff.mp ran).1

theorem flatten_of_mapM {table : Bindings RawText (SourceFile κ)} {found : List (List Component)}
    {before after : List Notice}
    (ran : (table.mapM fun entry : RawText × SourceFile κ => entry.2.componentsAt catalog entry.1).Runs before found
      after) :
    (∀ entry ∈ table, ∃ found, entry.2.components catalog (Path.nameAndFolder entry.1).2 = .ok found) ∧
      found.flatten = (Origin.ofFiles catalog table).map (·.component) := by
  have each := ran.of_mapM
  clear ran
  induction each with
  | nil => exact ⟨by simp, rfl⟩
  | @cons entry result rest others here _ ih =>
    obtain ⟨before, after, ran⟩ := here
    have computed := SourceFile.components_of_componentsAt ran
    have yields := (SourceFile.yields_of_components computed).2
    refine ⟨List.forall_mem_cons.mpr ⟨⟨result, computed⟩, ih.1⟩, ?_⟩
    rw [List.flatten_cons, ih.2, yields, Origin.ofFiles, Origin.ofFiles, List.flatMap_cons, List.map_append,
      Origin.map_component_ofFile]

theorem components_of_componentsOfFiles {table : Bindings RawText (SourceFile κ)} {components : List Component}
    {before after : List Notice} (ran : (componentsOfFiles catalog table).Runs before components after) :
    (∀ entry ∈ table, ∃ found, entry.2.components catalog (Path.nameAndFolder entry.1).2 = .ok found) ∧
      components = (Origin.ofFiles catalog table).map (·.component) := by
  obtain ⟨found, between, ranAll, ran⟩ := Runs.bind_iff.mp ran
  obtain ⟨-, between', -, ran⟩ := Runs.bind_iff.mp ran
  obtain ⟨-, between'', -, ran⟩ := Runs.bind_iff.mp ran
  cases ran
  exact flatten_of_mapM ranAll

end

end ComponentDocs
