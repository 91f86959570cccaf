import ComponentDocs.Component.Extraction
import ComponentDocs.Proofs.Success

namespace ComponentDocs

variable {κ : Type} [DecidableEq κ] {catalog : Catalog κ}

namespace Statement

structure ClassParts (catalog : Catalog κ) (file : SourceFile κ) (path : RawText) (statement : Statement κ)
    (heritage : List (HeritageClause κ)) (members : List (Member κ)) (entry : HeritageEntry κ)
    (defaults : Bindings String String) (propsMembers : List (Member κ)) (component : Component) : Prop where
  form : ∃ name, statement.form = .classOf name heritage members
  base : HeritageEntry.findComponent catalog file (heritageEntries heritage) = .ok (some entry)
  stated : Member.defaults catalog members = .ok defaults
  resolved : entry.propsMembers catalog file = .ok propsMembers
  documented : Member.props catalog defaults propsMembers = .ok component.props
  sourcePath : component.sourcePath = path

theorem parts_of_classComponent {file : SourceFile κ} {path : RawText} {statement : Statement κ} {component : Component}
    (computed : statement.classComponent catalog file path = .ok (some component)) :
    ∃ heritage members entry defaults propsMembers,
      statement.ClassParts catalog file path heritage members entry defaults propsMembers component := by
  obtain ⟨exported, -, computed⟩ := ok_of_bind computed
  split at computed
  · split at computed
    · rename_i name heritage members form
      split at computed
      · cases computed
      · obtain ⟨rendering, -, computed⟩ := ok_of_bind computed
        split at computed
        · obtain ⟨found, base, computed⟩ := ok_of_bind computed
          split at computed
          · cases computed
          · rename_i entry
            obtain ⟨defaults, stated, computed⟩ := ok_of_bind computed
            obtain ⟨propsMembers, resolved, computed⟩ := ok_of_bind computed
            obtain ⟨name, -, computed⟩ := ok_of_bind computed
            obtain ⟨props, documented, computed⟩ := ok_of_bind computed
            cases computed
            exact ⟨heritage, members, entry, defaults, propsMembers, ⟨_, form⟩, base, stated, resolved, documented, rfl⟩
        · cases computed
    · cases computed
  · cases computed

theorem parts_of_functionComponent {file : SourceFile κ} {path : RawText} {statement : Statement κ}
    {component : Component} (computed : statement.functionComponent catalog file path = .ok (some component)) :
    component.sourcePath = path ∧ component.props = [] := by
  obtain ⟨exported, -, computed⟩ := ok_of_bind computed
  split at computed
  · split at computed
    · obtain ⟨yields, -, computed⟩ := ok_of_bind computed
      split at computed
      · cases computed
        exact ⟨rfl, rfl⟩
      · cases computed
    · cases computed
    · cases computed
  · cases computed

theorem sourcePath_of_component {file : SourceFile κ} {path : RawText} {statement : Statement κ} {component : Component}
    (computed : statement.component catalog file path = .ok (some component)) : component.sourcePath = path := by
  rw [Statement.component] at computed
  split at computed
  · obtain ⟨heritage, members, entry, defaults, propsMembers, parts⟩ := parts_of_classComponent computed
    exact parts.sourcePath
  · split at computed
    · exact (parts_of_functionComponent computed).1
    · cases computed

end Statement

/-- The component that a statement yields. A statement that cannot be read yields none. -/
def Statement.yield (catalog : Catalog κ) (file : SourceFile κ) (path : RawText) (statement : Statement κ) :
    Option Component :=
  (statement.component catalog file path).toOption.join

theorem Statement.yield_of_component {file : SourceFile κ} {path : RawText} {statement : Statement κ}
    {found : Option Component} (computed : statement.component catalog file path = .ok found) :
    statement.yield catalog file path = found := by
  rw [Statement.yield, computed]
  rfl

theorem SourceFile.components_eq_filterMap {file : SourceFile κ} {path : RawText}
    {yield : Statement κ → Option Component}
    (each : ∀ statement ∈ file.statements, statement.component catalog file path = .ok (yield statement)) :
    file.components catalog path = .ok (file.statements.filterMap yield) := by
  rw [SourceFile.components, mapM_eq_ok_map each]
  simp [bind, Except.bind, pure, Except.pure, List.filterMap_map]

theorem SourceFile.yields_of_components {file : SourceFile κ} {path : RawText} {components : List Component}
    (computed : file.components catalog path = .ok components) :
    (∀ statement ∈ file.statements,
        statement.component catalog file path = .ok (statement.yield catalog file path)) ∧
      components = file.statements.filterMap (Statement.yield catalog file path) := by
  obtain ⟨found, read, -⟩ := ok_of_bind computed
  have each : ∀ statement ∈ file.statements,
      statement.component catalog file path = .ok (statement.yield catalog file path) := by
    intro statement member
    obtain ⟨result, here⟩ := exists_of_mapM read member
    rw [here, Statement.yield_of_component here]
  refine ⟨each, ?_⟩
  rw [SourceFile.components_eq_filterMap each] at computed
  exact (Except.ok.inj computed).symm

theorem SourceFile.sourcePath_of_components {file : SourceFile κ} {path : RawText} {components : List Component}
    (computed : file.components catalog path = .ok components) :
    ∀ component ∈ components, component.sourcePath = path := by
  intro component present
  obtain ⟨each, yields⟩ := SourceFile.yields_of_components computed
  rw [yields] at present
  obtain ⟨statement, member, yielded⟩ := List.mem_filterMap.mp present
  have found : statement.component catalog file path = .ok (some component) := by
    rw [each statement member, yielded]
  exact Statement.sourcePath_of_component found

end ComponentDocs
