import ComponentDocs.Proofs.Reordering.Lookups
import ComponentDocs.Proofs.Shape.Conversion
import ComponentDocs.Proofs.Yields

namespace ComponentDocs

variable {κ : Type} [DecidableEq κ] {catalog : Catalog κ}

section Answers

variable {file other : SourceFile κ} (alike : file.AnswersAlike catalog other)

include alike

theorem BaseClass.isComponent_congr (base : BaseClass) :
    base.isComponent catalog file = base.isComponent catalog other := by
  simp only [BaseClass.isComponent, alike.importPath]

theorem HeritageEntry.findComponent_congr (entries : List (HeritageEntry κ)) :
    HeritageEntry.findComponent catalog file entries = HeritageEntry.findComponent catalog other entries := by
  induction entries with
  | nil => rfl
  | cons first rest ih => simp only [HeritageEntry.findComponent, BaseClass.isComponent_congr alike, ih]

theorem HeritageEntry.propsMembers_congr (entry : HeritageEntry κ) :
    entry.propsMembers catalog file = entry.propsMembers catalog other := by
  simp only [HeritageEntry.propsMembers, alike.membersOf]

theorem Statement.isExported_congr (statement : Statement κ) :
    statement.isExported catalog file = statement.isExported catalog other := by
  simp only [Statement.isExported, alike.exports]

theorem Statement.component_congr (path : RawText) (statement : Statement κ) :
    statement.component catalog file path = statement.component catalog other path := by
  simp only [Statement.component, Statement.classComponent, Statement.functionComponent,
    Statement.isExported_congr alike, HeritageEntry.findComponent_congr alike, HeritageEntry.propsMembers_congr alike]

end Answers

/-- Every statement has one yield wherever it stands, so a reordered file has the components of the file in the new
order of their declarations. -/
theorem reordered_components {file : SourceFile κ} (shaped : file.Shaped catalog) (bindsOnce : file.BindsOnce catalog)
    (declaresOnce : file.DeclaresOnce catalog) {statements : List (Statement κ)}
    (perm : file.statements.Perm statements) (path : RawText) :
    ∃ yield : Statement κ → Option Component,
      (∀ statement ∈ file.statements, statement.component catalog file path = .ok (yield statement) ∧
        statement.component catalog (file.withStatements statements) path = .ok (yield statement)) ∧
      file.components catalog path = .ok (file.statements.filterMap yield) ∧
      (file.withStatements statements).components catalog path = .ok (statements.filterMap yield) := by
  have alike : file.AnswersAlike catalog (file.withStatements statements) :=
    SourceFile.answersAlike_reordered perm shaped bindsOnce declaresOnce
  have here : ∀ statement ∈ file.statements,
      statement.component catalog file path = .ok (statement.yield catalog file path) := by
    intro statement member
    obtain ⟨found, computed, -⟩ := Statement.component_succeeds shaped path (shaped statement member)
    rw [computed, Statement.yield_of_component computed]
  have there : ∀ statement ∈ file.statements,
      statement.component catalog (file.withStatements statements) path = .ok (statement.yield catalog file path) := by
    intro statement member
    rw [← Statement.component_congr alike]
    exact here statement member
  refine ⟨Statement.yield catalog file path, ?_, ?_, ?_⟩
  · intro statement member
    exact ⟨here statement member, there statement member⟩
  · exact SourceFile.components_eq_filterMap here
  · exact SourceFile.components_eq_filterMap fun statement member => there statement (perm.mem_iff.mpr member)

/-- `class Panel extends React.Component<Props> { render() }`, in front of all that it is read against. -/
def panelClass : Statement Kind :=
  ⟨.node "class_declaration", [], [], .classOf (some ⟨.node "type_identifier", "Panel"⟩)
    [⟨.node "class_heritage", [⟨.node "extends_clause",
      some ⟨.node "member_expression", "",
        .access (some ⟨.node "identifier", "React", .plain⟩) (some ⟨.node "property_identifier", "Component"⟩)⟩,
      [some ⟨.node "type_identifier", some "Props", [], none, [], none, [], ""⟩]⟩]⟩]
    [⟨.node "method_definition", some ⟨.node "property_identifier", "render"⟩, none, false, [], none, []⟩]⟩

def interfaceOf (name member : String) (bases : List (HeritageClause Kind)) : Statement Kind :=
  ⟨.node "interface_declaration", [], [], .interface (some ⟨.node "type_identifier", name⟩) bases
    [⟨.node "property_signature", some ⟨.node "property_identifier", member⟩, none, false, [], none, []⟩]⟩

def panelProps : Statement Kind :=
  interfaceOf "Props" "title" [⟨.node "extends_type_clause",
    [⟨.node "extends_type_clause", some ⟨.node "type_identifier", "Base", .plain⟩, []⟩]⟩]

def panelImport : Statement Kind :=
  ⟨.node "import_statement", [], [],
    .importFrom (some ⟨.node "import_clause", some ⟨.node "identifier", "React"⟩, none, []⟩) "react"⟩

def panelExport : Statement Kind :=
  ⟨.node "export_statement", [], [], .exportValue (some ⟨.node "identifier", "Panel", .plain⟩)⟩

def panelFile : SourceFile Kind :=
  ⟨.node "program", [panelClass, panelProps, interfaceOf "Base" "size" [], panelImport, panelExport], "Panel.tsx"⟩

namespace Conversion

theorem plain_shaped (kind : Kind) (text : String) (sort : (ExprSort.of kind.name).Fits .plain) :
    (⟨kind, text, .plain⟩ : Expr Kind).Shaped tsxCatalog := .node (announced_of_exprSort sort) nofun

theorem panelClass_shaped : panelClass.Shaped tsxCatalog := by
  have announced : panelClass.Announced tsxCatalog := announced_of_sorts trivial ⟨_, _, _, rfl⟩
  refine .node announced nofun ?_ ?_ nofun nofun
  · intro entry present
    cases List.mem_singleton.mp present
    refine ⟨?_, ?_⟩
    · rintro base ⟨⟩
      refine .node (announced_of_exprSort ⟨_, _, rfl⟩) ?_
      intro part inside
      cases List.mem_singleton.mp inside
      exact plain_shaped _ _ trivial
    · intro type present
      cases List.mem_singleton.mp present
      exact .node ⟨nofun, nofun⟩ nofun nofun
  · intro member present
    cases List.mem_singleton.mp present
    exact ⟨nofun, nofun⟩

theorem interfaceOf_shaped (name member : String) {bases : List (HeritageClause Kind)}
    (shaped : ∀ entry ∈ heritageEntries bases, entry.Shaped tsxCatalog) :
    (interfaceOf name member bases).Shaped tsxCatalog := by
  have announced : (interfaceOf name member bases).Announced tsxCatalog := announced_of_sorts trivial ⟨_, _, _, rfl⟩
  refine .node announced nofun shaped ?_ nofun nofun
  intro member present
  cases List.mem_singleton.mp present
  exact ⟨nofun, nofun⟩

theorem panelFile_shaped : panelFile.Shaped tsxCatalog := by
  have props : panelProps.Shaped tsxCatalog := by
    refine interfaceOf_shaped "Props" "title" ?_
    intro entry present
    cases List.mem_singleton.mp present
    refine ⟨?_, nofun⟩
    rintro base ⟨⟩
    exact plain_shaped _ _ trivial
  have imports : panelImport.Shaped tsxCatalog :=
    .node (announced_of_sorts ⟨_, _, rfl⟩ trivial) nofun nofun nofun nofun nofun
  have exports : panelExport.Shaped tsxCatalog := by
    refine .node (announced_of_sorts trivial trivial) ?_ nofun nofun nofun nofun
    intro value present
    cases List.mem_singleton.mp present
    exact plain_shaped _ _ trivial
  have base : (interfaceOf "Base" "size" []).Shaped tsxCatalog := by
    refine interfaceOf_shaped "Base" "size" ?_
    simp [heritageEntries]
  simp [SourceFile.Shaped, panelFile, panelClass_shaped, props, base, imports, exports]

end Conversion

def panelComponent : Component :=
  ⟨"Panel", "src", .classBased, "", [⟨"title", .unknown, true, "", ""⟩, ⟨"size", .unknown, true, "", ""⟩], ""⟩

theorem panelClass_component : panelClass.component tsxCatalog panelFile "src" = .ok (some panelComponent) := by
  decide +kernel

theorem reordered_panel :
    panelFile.Shaped tsxCatalog ∧ panelFile.BindsOnce tsxCatalog ∧ panelFile.DeclaresOnce tsxCatalog ∧
      ∃ yield : Statement Kind → Option Component,
        (∀ statement ∈ panelFile.statements, statement.component tsxCatalog panelFile "src" = .ok (yield statement) ∧
          statement.component tsxCatalog (panelFile.withStatements panelFile.statements.reverse) "src" =
            .ok (yield statement)) ∧
        panelFile.components tsxCatalog "src" = .ok (panelFile.statements.filterMap yield) ∧
        (panelFile.withStatements panelFile.statements.reverse).components tsxCatalog "src" =
          .ok (panelFile.statements.reverse.filterMap yield) ∧
        yield panelClass = some panelComponent := by
  have fromReact : ∀ statement ∈ panelFile.statements, ∀ name library,
      statement.Binds tsxCatalog name library → library = "react" := by
    intro statement member name library binds
    obtain ⟨imported, clause, form, -⟩ := binds
    simp only [panelFile, List.mem_cons, List.not_mem_nil, or_false] at member
    rcases member with rfl | rfl | rfl | rfl | rfl <;> cases form
    rfl
  have bindsOnce : panelFile.BindsOnce tsxCatalog := by
    intro first inFile second inFile' name library library' binds binds'
    rw [fromReact first inFile name library binds, fromReact second inFile' name library' binds']
  have declaresOnce : panelFile.DeclaresOnce tsxCatalog := by
    simp [SourceFile.DeclaresOnce, panelFile, Statement.DeclareApart, Statement.Named, Statement.name?, panelClass,
      panelProps, interfaceOf, panelImport, panelExport]
  have shaped := Conversion.panelFile_shaped
  obtain ⟨yield, each, inFront, reversed⟩ :=
    reordered_components shaped bindsOnce declaresOnce (List.reverse_perm _).symm "src"
  have panel := (each panelClass List.mem_cons_self).1.symm.trans panelClass_component
  exact ⟨shaped, bindsOnce, declaresOnce, yield, each, inFront, reversed, Except.ok.inj panel⟩

end ComponentDocs
