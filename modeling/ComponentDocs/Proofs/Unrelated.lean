import ComponentDocs.Proofs.Members.Depth
import ComponentDocs.Proofs.Reordering.Components

/-! Declarations that others are not read against. A file may get one more of them anywhere, under any name, without a
change to what the others yield. -/

namespace ComponentDocs

variable {κ : Type} [DecidableEq κ] {catalog : Catalog κ}

/-- The statement neither imports nor exports for others, and declares no type. -/
structure Statement.Unrelated (catalog : Catalog κ) (statement : Statement κ) : Prop where
  notImport : catalog.isImport statement.kind = false
  notExportValue : catalog.isExportValue statement = false
  notExportNames : catalog.isExportNames statement = false
  notInterface : catalog.isInterface statement.kind = false
  notTypeAlias : catalog.isTypeAlias statement.kind = false

theorem SourceFile.imports_eq_map (file : SourceFile κ) :
    file.imports catalog =
      ((file.statements.mapM (Statement.imports catalog)).map List.flatten).map Bindings.ofPairs := by
  rw [SourceFile.imports]
  cases file.statements.mapM (Statement.imports catalog) <;> rfl

theorem Statement.component_of_shaped {file : SourceFile κ} (shaped : file.Shaped catalog) (path : RawText)
    (statement : Statement κ) (member : statement ∈ file.statements) :
    statement.component catalog file path = .ok (statement.yield catalog file path) := by
  obtain ⟨found, computed, -⟩ := Statement.component_succeeds shaped path (shaped statement member)
  rw [computed, Statement.yield_of_component computed]

namespace Statement.Unrelated

variable {extra : Statement κ} (unrelated : extra.Unrelated catalog)

include unrelated

theorem imports_eq_nil : extra.imports catalog = .ok [] := by
  rw [Statement.imports, unrelated.notImport, if_neg Bool.false_ne_true]

theorem exports_eq_false (name : String) : extra.exports catalog name = .ok false := by
  have notValue := unrelated.notExportValue
  have notNames := unrelated.notExportNames
  rw [Catalog.isExportValue] at notValue
  rw [Catalog.isExportNames] at notNames
  rw [Statement.exports]
  cases form : extra.form with
  | exportValue value =>
    have silent : catalog.isExport extra.kind = false := by simpa [form] using notValue
    simp [silent]
  | exportNames names library =>
    have silent : catalog.isExport extra.kind = false := by simpa [form] using notNames
    simp [silent]
  | _ => rfl

theorem memberSource?_eq_none : extra.memberSource? catalog = .ok none := by
  rw [Statement.memberSource?, unrelated.notInterface, unrelated.notTypeAlias, if_neg Bool.false_ne_true,
    if_neg Bool.false_ne_true]

variable (before after : List (Statement κ))

theorem anyExports_insert (name : String) :
    Statement.anyExports catalog name (before ++ extra :: after) =
      Statement.anyExports catalog name (before ++ after) := by
  induction before with
  | nil =>
    rw [List.nil_append, List.nil_append, Statement.anyExports, unrelated.exports_eq_false]
    rfl
  | cons first rest ih => rw [List.cons_append, List.cons_append, Statement.anyExports, Statement.anyExports, ih]

theorem findMembers_insert (name : String) :
    Statement.findMembers catalog name (before ++ extra :: after) =
      Statement.findMembers catalog name (before ++ after) := by
  induction before with
  | nil =>
    rw [List.nil_append, List.nil_append, Statement.findMembers, unrelated.memberSource?_eq_none]
    by_cases named : extra.name?.any fun token => token.text == name
    · rw [if_pos named]
      rfl
    · rw [if_neg named]
  | cons first rest ih => rw [List.cons_append, List.cons_append, Statement.findMembers, Statement.findMembers, ih]

theorem mapM_imports_insert :
    ((before ++ extra :: after).mapM (Statement.imports catalog)).map List.flatten =
      ((before ++ after).mapM (Statement.imports catalog)).map List.flatten := by
  rw [List.mapM_append, List.mapM_append, List.mapM_cons, unrelated.imports_eq_nil]
  cases before.mapM (Statement.imports catalog) with
  | error problem => rfl
  | ok pairs =>
    cases after.mapM (Statement.imports catalog) with
    | error problem => rfl
    | ok others => simp [bind, Except.bind, pure, Except.pure, Except.map]

variable {before after} {file other : SourceFile κ} (placed : file.statements = before ++ after)
  (inserted : other.statements = before ++ extra :: after)

include placed inserted

theorem fileImports_insert : file.imports catalog = other.imports catalog := by
  have same := congrArg (Except.map Bindings.ofPairs) (unrelated.mapM_imports_insert before after)
  rw [SourceFile.imports_eq_map, SourceFile.imports_eq_map, placed, inserted]
  exact same.symm

theorem answersAlike_insert : file.AnswersAlike catalog other where
  importPath := by
    intro name
    rw [SourceFile.importPath, SourceFile.importPath, unrelated.fileImports_insert placed inserted]
  exports := by
    intro name
    rw [SourceFile.exports, SourceFile.exports, placed, inserted, unrelated.anyExports_insert before after]
  membersOf := by
    intro name
    have sameTypes : ∀ name, Statement.findMembers catalog name file.statements =
        Statement.findMembers catalog name other.statements := by
      intro name
      rw [placed, inserted, unrelated.findMembers_insert before after]
    have longer : other.statements.length = file.statements.length + 1 := by
      rw [placed, inserted, List.length_append, List.length_append, List.length_cons]
      omega
    rw [SourceFile.membersOf, SourceFile.membersOf, ← unrelated.fileImports_insert placed inserted, longer]
    cases file.imports catalog with
    | error problem => rfl
    | ok table =>
      have here : file.statements.length < file.statements.length + 2 := by omega
      have there : file.statements.length < file.statements.length + 1 + 2 := by omega
      have sameMembers : file.localMembers catalog table (file.statements.length + 2) name [] =
          other.localMembers catalog table (file.statements.length + 1 + 2) name [] := by
        rw [← SourceFile.localMembers_congr (fun _ => rfl) sameTypes, SourceFile.localMembers_of_enough here,
          SourceFile.localMembers_of_enough there]
      dsimp only [bind, Except.bind]
      rw [sameMembers]

end Statement.Unrelated

/-- A declaration that others are not read against can be put anywhere in a file: every other statement yields what it
did, and the components of the file are those it had with at most the new one among them, at its place. -/
theorem unrelated_declaration_inserted {file other : SourceFile κ} {extra : Statement κ}
    {before after : List (Statement κ)} (shaped : file.Shaped catalog) (extraShaped : extra.Shaped catalog)
    (unrelated : extra.Unrelated catalog) (placed : file.statements = before ++ after)
    (inserted : other.statements = before ++ extra :: after) (path : RawText) :
    ∃ (yield : Statement κ → Option Component) (own : Option Component),
      (∀ statement ∈ before ++ after, statement.component catalog file path = .ok (yield statement) ∧
        statement.component catalog other path = .ok (yield statement)) ∧
      extra.component catalog other path = .ok own ∧
      file.components catalog path = .ok (before.filterMap yield ++ after.filterMap yield) ∧
      other.components catalog path = .ok (before.filterMap yield ++ own.toList ++ after.filterMap yield) := by
  have alike := unrelated.answersAlike_insert placed inserted
  have otherShaped : other.Shaped catalog := by
    intro statement member
    rw [inserted] at member
    rw [SourceFile.Shaped, placed] at shaped
    rcases List.mem_append.mp member with early | late
    · exact shaped statement (List.mem_append_left _ early)
    · rcases List.mem_cons.mp late with rfl | late
      · exact extraShaped
      · exact shaped statement (List.mem_append_right _ late)
  have here := Statement.component_of_shaped shaped path
  have there := Statement.component_of_shaped otherShaped path
  have sameYield : ∀ statement : Statement κ,
      statement.yield catalog other path = statement.yield catalog file path := by
    intro statement
    rw [Statement.yield, Statement.yield, Statement.component_congr alike]
  have added : extra ∈ other.statements := by
    rw [inserted]
    exact List.mem_append_right _ List.mem_cons_self
  refine ⟨Statement.yield catalog file path, extra.yield catalog file path, ?_, ?_, ?_, ?_⟩
  · intro statement member
    rw [← placed] at member
    exact ⟨here statement member, (Statement.component_congr alike path statement).symm.trans (here statement member)⟩
  · rw [there extra added, sameYield]
  · rw [SourceFile.components_eq_filterMap here, placed, List.filterMap_append]
  · rw [SourceFile.components_eq_filterMap there, inserted, funext sameYield, List.filterMap_append,
      List.append_assoc, List.filterMap_cons]
    cases extra.yield catalog file path <;> rfl

/-- `export function Props() { return <p/> }`, a component that has the name of a props type. -/
def propsFunction : Statement Kind :=
  ⟨.node "function_declaration", [], [⟨.keyword "export", "export"⟩],
    .function (some ⟨.node "identifier", "Props"⟩) []
      (some ⟨.node "statement_block", [⟨.node "return_statement", [], [],
        .returning (some ⟨.node "jsx_self_closing_element", "", .plain⟩)⟩]⟩)⟩

theorem Conversion.propsFunction_shaped : propsFunction.Shaped tsxCatalog := by
  refine .node (announced_of_sorts trivial ⟨_, _, _, rfl⟩) nofun nofun nofun nofun ?_
  intro inner member
  cases List.mem_singleton.mp member
  refine .node (announced_of_sorts ⟨_, rfl⟩ trivial) ?_ nofun nofun nofun nofun
  intro value present
  cases List.mem_singleton.mp present
  exact plain_shaped _ _ trivial

def crowdedPanelFile : SourceFile Kind :=
  panelFile.withStatements ([panelClass] ++ propsFunction :: panelFile.statements.tail)

theorem panel_beside_propsFunction :
    panelFile.Shaped tsxCatalog ∧ propsFunction.Shaped tsxCatalog ∧ propsFunction.Unrelated tsxCatalog ∧
      panelFile.statements = [panelClass] ++ panelFile.statements.tail ∧
      ∃ (yield : Statement Kind → Option Component) (own : Option Component),
        (∀ statement ∈ [panelClass] ++ panelFile.statements.tail,
          statement.component tsxCatalog panelFile "src" = .ok (yield statement) ∧
            statement.component tsxCatalog crowdedPanelFile "src" = .ok (yield statement)) ∧
        propsFunction.component tsxCatalog crowdedPanelFile "src" = .ok own ∧
        panelFile.components tsxCatalog "src" =
          .ok ([panelClass].filterMap yield ++ panelFile.statements.tail.filterMap yield) ∧
        crowdedPanelFile.components tsxCatalog "src" =
          .ok ([panelClass].filterMap yield ++ own.toList ++ panelFile.statements.tail.filterMap yield) ∧
        yield panelClass = some panelComponent ∧ own = some ⟨"Props", "src", .functionBased, "", [], ""⟩ := by
  have unrelated : propsFunction.Unrelated tsxCatalog := by constructor <;> decide
  have shaped := Conversion.panelFile_shaped
  have extraShaped := Conversion.propsFunction_shaped
  obtain ⟨yield, own, each, added, without, within⟩ :=
    @unrelated_declaration_inserted Kind _ tsxCatalog panelFile crowdedPanelFile propsFunction [panelClass]
      panelFile.statements.tail shaped extraShaped unrelated rfl rfl "src"
  have panel := (each panelClass List.mem_cons_self).1.symm.trans panelClass_component
  have function : propsFunction.component tsxCatalog crowdedPanelFile "src" =
      .ok (some ⟨"Props", "src", .functionBased, "", [], ""⟩) := by decide +kernel
  exact ⟨shaped, extraShaped, unrelated, rfl, yield, own, each, added, without, within, Except.ok.inj panel,
    Except.ok.inj (added.symm.trans function)⟩

end ComponentDocs
