import ComponentDocs.Proofs.Shape.Reading

/-! What declarations are read against: the imports, the exports and the named types of a file. Where the answers are
unique, they do not depend on the order of the statements. -/

namespace ComponentDocs

variable {κ : Type} [DecidableEq κ] {catalog : Catalog κ}

def Statement.Binds (catalog : Catalog κ) (name library : String) (statement : Statement κ) : Prop :=
  catalog.isImport statement.kind ∧ ∃ clause, statement.form = .importFrom (some clause) library ∧ name ∈ clause.names

def Statement.DeclaresMembers (catalog : Catalog κ) (statement : Statement κ) : Prop :=
  catalog.isInterface statement.kind ∨ catalog.isTypeAlias statement.kind ∧
    ∃ name type, statement.form = .typeAlias name (some type) ∧ catalog.isObjectType type.kind

/-- No local name comes from two modules. -/
def SourceFile.BindsOnce (catalog : Catalog κ) (file : SourceFile κ) : Prop :=
  ∀ first ∈ file.statements, ∀ second ∈ file.statements, ∀ name library library',
    first.Binds catalog name library → second.Binds catalog name library' → library = library'

def Statement.Named (name : String) (statement : Statement κ) : Prop := ∃ token ∈ statement.name?, token.text = name

def Statement.DeclareApart (catalog : Catalog κ) (first second : Statement κ) : Prop :=
  first.DeclaresMembers catalog → second.DeclaresMembers catalog → ∀ name, first.Named name → ¬ second.Named name

/-- No two declarations of members share a name. -/
def SourceFile.DeclaresOnce (catalog : Catalog κ) (file : SourceFile κ) : Prop :=
  file.statements.Pairwise (Statement.DeclareApart catalog)

def SourceFile.withStatements (file : SourceFile κ) (statements : List (Statement κ)) : SourceFile κ :=
  { file with statements := statements }

theorem Statement.imports_spec {statement : Statement κ} (announced : statement.Announced catalog) :
    Succeeds (statement.imports catalog) fun pairs =>
      ∀ name library, (name, library) ∈ pairs ↔ statement.Binds catalog name library := by
  rw [Statement.imports]
  by_cases imported : catalog.isImport statement.kind
  · obtain ⟨clause, library, form⟩ := announced.importFrom imported
    rw [if_pos imported, form]
    cases clause with
    | none => exact .ok (by simp [Statement.Binds, form])
    | some clause =>
      refine .ok ?_
      intro name other
      simp only [Statement.Binds, imported, form, List.mem_map, Prod.mk.injEq, StatementForm.importFrom.injEq,
        Option.some.injEq, true_and]
      constructor
      · rintro ⟨_, present, rfl, rfl⟩
        exact ⟨clause, ⟨rfl, rfl⟩, present⟩
      · rintro ⟨_, ⟨rfl, rfl⟩, present⟩
        exact ⟨name, present, rfl, rfl⟩
  · rw [if_neg imported]
    exact .ok (by simp [Statement.Binds, imported])

theorem Statement.mapM_imports_spec (statements : List (Statement κ))
    (shaped : ∀ statement ∈ statements, statement.Shaped catalog) :
    Succeeds (statements.mapM (Statement.imports catalog)) fun pairs =>
      ∀ name library, (name, library) ∈ pairs.flatten ↔
        ∃ statement ∈ statements, statement.Binds catalog name library := by
  induction statements with
  | nil => exact .pure (by simp)
  | cons first rest ih =>
    rw [List.mapM_cons]
    refine .bind (Statement.imports_spec (shaped first List.mem_cons_self).announced) ?_
    intro here bound
    refine .bind (ih fun statement member => shaped statement (List.mem_cons_of_mem _ member)) ?_
    intro later boundLater
    refine .pure ?_
    intro name library
    simp [bound, boundLater]

theorem Bindings.get?_ofPairs_iff {pairs : List (String × String)} {name : String}
    (agree : ∀ value value', (name, value) ∈ pairs → (name, value') ∈ pairs → value = value') (value : String) :
    (Bindings.ofPairs pairs).get? name = some value ↔ (name, value) ∈ pairs := by
  rw [Bindings.get?_ofPairs]
  constructor
  · intro found
    obtain ⟨⟨key, other⟩, last, rfl⟩ := Option.map_eq_some_iff.mp found
    have sameName : key = name := by simpa using List.find?_some last
    have present := List.mem_of_find?_eq_some last
    rw [← sameName]
    exact List.mem_reverse.mp present
  · intro present
    cases last : pairs.reverse.find? fun pair => pair.1 == name with
    | none => simpa using List.find?_eq_none.mp last (name, value) (List.mem_reverse.mpr present)
    | some pair =>
      obtain ⟨key, other⟩ := pair
      have sameName : key = name := by simpa using List.find?_some last
      have listed : (name, other) ∈ pairs := by
        rw [← sameName]
        exact List.mem_reverse.mp (List.mem_of_find?_eq_some last)
      exact congrArg some (agree other value listed present)

theorem SourceFile.imports_spec {file : SourceFile κ} (shaped : file.Shaped catalog) (once : file.BindsOnce catalog) :
    Succeeds (file.imports catalog) fun table =>
      ∀ name library, table.get? name = some library ↔
        ∃ statement ∈ file.statements, statement.Binds catalog name library := by
  refine .bind (Statement.mapM_imports_spec file.statements shaped) ?_
  intro pairs bound
  refine .pure ?_
  intro name library
  rw [Bindings.get?_ofPairs_iff, bound]
  intro value value' here there
  obtain ⟨first, inFile, binds⟩ := (bound name value).mp here
  obtain ⟨second, inFile', binds'⟩ := (bound name value').mp there
  exact once first inFile second inFile' name value value' binds binds'

theorem Statement.anyExports_spec (name : String) (statements : List (Statement κ))
    (shaped : ∀ statement ∈ statements, statement.Shaped catalog) :
    Succeeds (Statement.anyExports catalog name statements) fun found =>
      found = true ↔ ∃ statement ∈ statements, statement.exports catalog name = .ok true := by
  induction statements with
  | nil => exact .ok (by simp)
  | cons first rest ih =>
    rw [Statement.anyExports]
    obtain ⟨found, here, -⟩ := Statement.exports_succeeds name (shaped first List.mem_cons_self)
    rw [here]
    cases found with
    | true => exact .ok (by simp [here])
    | false =>
      refine Succeeds.mono (ih fun statement member => shaped statement (List.mem_cons_of_mem _ member)) ?_
      intro found later
      simp [here, later]

theorem Statement.declaresMembers_of_memberSource? {statement : Statement κ} {source : MemberSource κ}
    (found : statement.memberSource? catalog = .ok (some source)) : statement.DeclaresMembers catalog := by
  rw [Statement.memberSource?] at found
  split at found
  · exact .inl ‹_›
  split at found
  · split at found
    · rename_i name type form
      refine .inr ⟨‹_›, name, type, form, ?_⟩
      by_cases object : catalog.isObjectType type.kind
      · exact object
      · rw [if_neg object] at found
        cases found
    · cases found
    · cases found
  · cases found

def Statement.Describes (catalog : Catalog κ) (name : String) (source : MemberSource κ) (statement : Statement κ) :
    Prop :=
  statement.Named name ∧ statement.memberSource? catalog = .ok (some source)

omit [DecidableEq κ] in
theorem Statement.any_name?_iff (statement : Statement κ) (name : String) :
    (statement.name?.any fun token => token.text == name) = true ↔ statement.Named name := by
  cases present : statement.name? <;> simp [Statement.Named, present]

theorem Statement.findMembers_spec (name : String) (statements : List (Statement κ))
    (shaped : ∀ statement ∈ statements, statement.Shaped catalog)
    (once : statements.Pairwise (Statement.DeclareApart catalog)) :
    Succeeds (Statement.findMembers catalog name statements) fun found =>
      ∀ source, found = some source ↔ ∃ statement ∈ statements, statement.Describes catalog name source := by
  induction statements with
  | nil => exact .ok (by simp)
  | cons first rest ih =>
    obtain ⟨apart, restOnce⟩ := List.pairwise_cons.mp once
    have later := ih (fun statement member => shaped statement (List.mem_cons_of_mem _ member)) restOnce
    -- a first statement that describes nothing leaves the answer to the others
    have skipped (silent : ∀ source, ¬ first.Describes catalog name source) :
        Succeeds (Statement.findMembers catalog name rest) fun found =>
          ∀ source, found = some source ↔ ∃ statement ∈ first :: rest, statement.Describes catalog name source :=
      later.mono fun found holds source => by simp [holds, silent]
    rw [Statement.findMembers]
    by_cases named : first.name?.any fun token => token.text == name
    · rw [if_pos named]
      have here := (first.any_name?_iff name).mp named
      obtain ⟨found, computed, -⟩ := Statement.memberSource?_succeeds (shaped first List.mem_cons_self)
      rw [computed]
      cases found with
      | none =>
        refine skipped ?_
        intro source describes
        cases computed.symm.trans describes.2
      | some source =>
        refine .ok ?_
        intro other
        constructor
        · rintro ⟨⟩
          exact ⟨first, List.mem_cons_self, here, computed⟩
        · rintro ⟨statement, member, there, described⟩
          rcases List.mem_cons.mp member with rfl | member
          · rw [computed] at described
            injection described
          · have declares := Statement.declaresMembers_of_memberSource? computed
            have declaresToo := Statement.declaresMembers_of_memberSource? described
            exact absurd there (apart statement member declares declaresToo name here)
    · rw [if_neg named]
      exact skipped fun source describes => named ((first.any_name?_iff name).mpr describes.1)

/-- Both files give declarations the same answers. -/
structure SourceFile.AnswersAlike (catalog : Catalog κ) (file other : SourceFile κ) : Prop where
  importPath : ∀ name, file.importPath catalog name = other.importPath catalog name
  exports : ∀ name, file.exports catalog name = other.exports catalog name
  membersOf : ∀ name, file.membersOf catalog name = other.membersOf catalog name

section Reordered

variable {file other : SourceFile κ} (perm : file.statements.Perm other.statements)

include perm

theorem SourceFile.Shaped.reordered (shaped : file.Shaped catalog) : other.Shaped catalog :=
  fun statement member => shaped statement (perm.mem_iff.mpr member)

theorem SourceFile.BindsOnce.reordered (once : file.BindsOnce catalog) : other.BindsOnce catalog :=
  fun first inFile second inFile' => once first (perm.mem_iff.mpr inFile) second (perm.mem_iff.mpr inFile')

theorem SourceFile.DeclaresOnce.reordered (once : file.DeclaresOnce catalog) : other.DeclaresOnce catalog := by
  refine (perm.pairwise_iff ?_).mp once
  intro first second apart declares declares' name named named'
  exact apart declares' declares name named' named

theorem SourceFile.imports_reordered (shaped : file.Shaped catalog) (once : file.BindsOnce catalog) :
    ∃ table table', file.imports catalog = .ok table ∧ other.imports catalog = .ok table' ∧
      ∀ name, table.get? name = table'.get? name := by
  obtain ⟨table, computed, bound⟩ := SourceFile.imports_spec shaped once
  obtain ⟨table', computed', bound'⟩ := SourceFile.imports_spec (shaped.reordered perm) (once.reordered perm)
  refine ⟨table, table', computed, computed', ?_⟩
  intro name
  ext library
  rw [bound, bound']
  simp only [perm.mem_iff]

theorem SourceFile.exports_reordered (shaped : file.Shaped catalog) (name : String) :
    file.exports catalog name = other.exports catalog name := by
  rw [SourceFile.exports, SourceFile.exports]
  split
  · rfl
  · obtain ⟨found, computed, exported⟩ := Statement.anyExports_spec name _ shaped
    obtain ⟨found', computed', exported'⟩ := Statement.anyExports_spec name _ (shaped.reordered perm)
    simp only [perm.mem_iff, ← exported'] at exported
    rw [computed, computed', Bool.eq_iff_iff.mpr exported]

theorem SourceFile.findMembers_reordered (shaped : file.Shaped catalog) (once : file.DeclaresOnce catalog)
    (name : String) :
    Statement.findMembers catalog name file.statements = Statement.findMembers catalog name other.statements := by
  obtain ⟨found, computed, described⟩ := Statement.findMembers_spec name _ shaped once
  obtain ⟨found', computed', described'⟩ :=
    Statement.findMembers_spec name _ (shaped.reordered perm) (once.reordered perm)
  simp only [perm.mem_iff, ← described'] at described
  rw [computed, computed', Option.ext described]

omit perm in
/-- Inheritance asks a file only for its imports and its named types. -/
theorem SourceFile.localMembers_congr {table table' : Bindings String String}
    (sameImports : ∀ name, table.get? name = table'.get? name)
    (sameTypes : ∀ name, Statement.findMembers catalog name file.statements =
      Statement.findMembers catalog name other.statements) (depth : Nat) (name : String) (visited : List String) :
    file.localMembers catalog table depth name visited = other.localMembers catalog table' depth name visited := by
  have sameBases : SourceFile.isLocal table = SourceFile.isLocal table' := by
    funext base
    rw [SourceFile.isLocal, SourceFile.isLocal, sameImports]
  induction depth generalizing name visited with
  | zero => rfl
  | succ depth ih => simp only [SourceFile.localMembers, sameTypes, sameBases, ih]

theorem SourceFile.membersOf_reordered (shaped : file.Shaped catalog) (bindsOnce : file.BindsOnce catalog)
    (declaresOnce : file.DeclaresOnce catalog) (name : String) :
    file.membersOf catalog name = other.membersOf catalog name := by
  obtain ⟨table, table', computed, computed', sameImports⟩ := SourceFile.imports_reordered perm shaped bindsOnce
  have sameTypes := SourceFile.findMembers_reordered perm shaped declaresOnce
  rw [SourceFile.membersOf, SourceFile.membersOf, computed, computed', perm.length_eq]
  simp only [bind, Except.bind, sameImports, SourceFile.localMembers_congr sameImports sameTypes]

theorem SourceFile.answersAlike_reordered (shaped : file.Shaped catalog) (bindsOnce : file.BindsOnce catalog)
    (declaresOnce : file.DeclaresOnce catalog) : file.AnswersAlike catalog other where
  importPath := by
    intro name
    obtain ⟨table, table', computed, computed', same⟩ := SourceFile.imports_reordered perm shaped bindsOnce
    rw [SourceFile.importPath, SourceFile.importPath, computed, computed']
    simp only [bind, Except.bind, same]
  exports := SourceFile.exports_reordered perm shaped
  membersOf := SourceFile.membersOf_reordered perm shaped bindsOnce declaresOnce

end Reordered

end ComponentDocs
