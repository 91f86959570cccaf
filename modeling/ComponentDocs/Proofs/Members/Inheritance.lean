import ComponentDocs.Proofs.Members.Depth
import ComponentDocs.Proofs.Members.Merging
import ComponentDocs.Proofs.Members.Visits
import ComponentDocs.Proofs.Reordering.Components

/-! The members that a type has with those it inherits. The search for them visits every type once, which is enough: it
comes to all types that extension leads to, and a member is left out only for an earlier one of its name. -/

namespace ComponentDocs

variable {κ : Type} [DecidableEq κ] {catalog : Catalog κ} {file : SourceFile κ} {imports : Bindings String String}

def MemberSource.bases : MemberSource κ → List String
  | .interface _ bases => bases
  | .object _ => []

def Statement.stated (statement : Statement κ) : MemberSource κ :=
  match statement.form with
  | .interface _ heritage members => .interface members (baseNames heritage)
  | .typeAlias _ (some type) => .object type.members
  | _ => .object []

omit [DecidableEq κ] in
instance (name : String) : DecidablePred (Statement.Named (κ := κ) name) := fun statement =>
  inferInstanceAs (Decidable (∃ token ∈ statement.name?, token.text = name))

instance : DecidablePred (Statement.DeclaresMembers catalog) := fun statement =>
  match form : statement.form with
  | .typeAlias name (some type) =>
    decidable_of_iff (catalog.isInterface statement.kind ∨ catalog.isTypeAlias statement.kind ∧
      catalog.isObjectType type.kind) (by simp [Statement.DeclaresMembers, form])
  | .typeAlias _ none | .plain | .classOf _ _ _ | .function _ _ _ | .interface _ _ _ | .importFrom _ _ | .exportValue _
  | .exportNames _ _ | .returning _ | .expression _ =>
    decidable_of_iff (catalog.isInterface statement.kind) (by simp [Statement.DeclaresMembers, form])

namespace SourceFile

/-- The first statement of a name that is an interface or the alias of an object type. -/
def declarationOf (catalog : Catalog κ) (file : SourceFile κ) (name : String) : Option (Statement κ) :=
  file.statements.find? fun statement => decide (statement.Named name ∧ statement.DeclaresMembers catalog)

def ownMembers (catalog : Catalog κ) (file : SourceFile κ) (name : String) : List (Member κ) :=
  ((file.declarationOf catalog name).map fun declared => declared.stated.members).getD []

/-- The bases of an interface in source order, without those that have no name or come from another module. -/
def localBases (catalog : Catalog κ) (file : SourceFile κ) (name : String) : List String :=
  (((file.declarationOf catalog name).map fun declared => declared.stated.bases).getD []).filter fun base =>
    base != "" && (file.importPath catalog base).toOption == some ""

end SourceFile

theorem Statement.memberSource?_eq {statement : Statement κ} (announced : statement.Announced catalog) :
    statement.memberSource? catalog =
      .ok (if statement.DeclaresMembers catalog then some statement.stated else none) := by
  rw [Statement.memberSource?]
  by_cases interface : catalog.isInterface statement.kind
  · obtain ⟨name, heritage, members, form⟩ := announced.interface interface
    simp [interface, form, Statement.DeclaresMembers, Statement.stated]
  by_cases aliased : catalog.isTypeAlias statement.kind
  · obtain ⟨name, type, form⟩ := announced.typeAlias aliased
    cases type with
    | none => simp [interface, aliased, form, Statement.DeclaresMembers]
    | some type => simp [interface, aliased, form, Statement.DeclaresMembers, Statement.stated]
  · simp [interface, aliased, Statement.DeclaresMembers]

theorem Statement.findMembers_eq (name : String) (statements : List (Statement κ))
    (announced : ∀ statement ∈ statements, statement.Announced catalog) :
    Statement.findMembers catalog name statements =
      .ok ((statements.find? fun statement =>
        decide (statement.Named name ∧ statement.DeclaresMembers catalog)).map Statement.stated) := by
  induction statements with
  | nil => rfl
  | cons first rest ih =>
    have later := ih fun statement member => announced statement (List.mem_cons_of_mem _ member)
    have here := Statement.memberSource?_eq (announced first List.mem_cons_self)
    rw [Statement.findMembers, List.find?_cons]
    by_cases named : first.name?.any fun token => token.text == name
    · have named' := (first.any_name?_iff name).mp named
      by_cases declares : first.DeclaresMembers catalog
      · simp [named, named', declares, here, bind, Except.bind, pure, Except.pure]
      · simp [named, named', declares, here, later, bind, Except.bind]
    · have unnamed : ¬ first.Named name := fun named' => named ((first.any_name?_iff name).mpr named')
      simp [named, unnamed, later]

namespace SourceFile

theorem importPath_eq (read : file.imports catalog = .ok imports) (name : String) :
    file.importPath catalog name = .ok ((imports.get? name).getD "") := by
  rw [importPath, read]
  rfl

theorem localBases_eq (read : file.imports catalog = .ok imports) (name : String) :
    file.localBases catalog name =
      (((file.declarationOf catalog name).map fun declared => declared.stated.bases).getD []).filter
        (isLocal imports) := by
  apply List.filter_congr
  intro base _
  rw [isLocal, importPath_eq read]
  simp [Except.toOption]

omit [DecidableEq κ] in
theorem mem_declaredNames {statement : Statement κ} {name : String} (member : statement ∈ file.statements)
    (named : statement.Named name) : name ∈ file.declaredNames := by
  obtain ⟨token, present, same⟩ := named
  apply List.mem_filterMap.mpr
  exact ⟨statement, member, by rw [present, Option.map_some, same]⟩

theorem declared_of_localBases {name base : String} (extended : base ∈ file.localBases catalog name) :
    name ∈ file.declaredNames := by
  cases declared : file.declarationOf catalog name with
  | none => simp [localBases, declared] at extended
  | some statement =>
    have found := List.find?_some declared
    exact mem_declaredNames (List.mem_of_find?_eq_some declared) (of_decide_eq_true found).1

def addBase (catalog : Catalog κ) (imports : Bindings String String) (file : SourceFile κ) (depth : Nat)
    (state : List (Member κ) × List String) (base : String) : Except Malformed (List (Member κ) × List String) := do
  let (inherited, visited) ← file.localMembers catalog imports depth base state.2
  return (absorb state.1 inherited, visited)

theorem localMembers_fresh (read : file.imports catalog = .ok imports)
    (announced : ∀ statement ∈ file.statements, statement.Announced catalog) (depth : Nat) {name : String}
    {visited : List String} (fresh : name ∉ visited) :
    file.localMembers catalog imports (depth + 1) name visited =
      (file.localBases catalog name).foldlM (addBase catalog imports file depth)
        (file.ownMembers catalog name, name :: visited) := by
  have searched : Statement.findMembers catalog name file.statements =
      .ok ((file.declarationOf catalog name).map Statement.stated) :=
    Statement.findMembers_eq name file.statements announced
  rw [localMembers, if_neg fresh, searched, localBases_eq read, ownMembers]
  cases file.declarationOf catalog name with
  | none => rfl
  | some declared =>
    dsimp only [Option.map_some, Option.getD_some]
    cases declared.stated with
    | interface members bases => rfl
    | object members => rfl

def merged (catalog : Catalog κ) (file : SourceFile κ) : (order : List String) → List (Member κ)
  | [] => []
  | name :: later => absorb (file.ownMembers catalog name) (later.flatMap (file.ownMembers catalog))

/-- Below another type, members that were merged before count like the members of the types one by one. -/
theorem absorb_merged (members : List (Member κ)) (order : List String) :
    absorb members (file.merged catalog order) = absorb members (order.flatMap (file.ownMembers catalog)) := by
  cases order with
  | nil => rfl
  | cons name later => exact absorb_absorb members _ _

def Gathers (catalog : Catalog κ) (file : SourceFile κ) (name : String) (visited : List String)
    (result : List (Member κ) × List String) : Prop :=
  ∃ order, FirstVisits (file.localBases catalog) [name] visited order ∧
    result = (file.merged catalog order, order.reverse ++ visited)

theorem foldlM_addBase {depth : Nat}
    (each : ∀ base visited, file.openNames visited < depth →
      Succeeds (file.localMembers catalog imports depth base visited) (file.Gathers catalog base visited))
    (bases : List String) (members : List (Member κ)) {visited : List String}
    (enough : bases ≠ [] → file.openNames visited < depth) :
    Succeeds (bases.foldlM (addBase catalog imports file depth) (members, visited)) fun result =>
      ∃ order, FirstVisits (file.localBases catalog) bases visited order ∧
        result = (absorb members (order.flatMap (file.ownMembers catalog)), order.reverse ++ visited) := by
  induction bases generalizing members visited with
  | nil => exact .pure ⟨[], .done, rfl⟩
  | cons base rest ih =>
    have bound := enough (List.cons_ne_nil base rest)
    rw [List.foldlM_cons]
    have here : Succeeds (addBase catalog imports file depth (members, visited) base) fun state =>
        ∃ order, FirstVisits (file.localBases catalog) [base] visited order ∧
          state = (absorb members (order.flatMap (file.ownMembers catalog)), order.reverse ++ visited) := by
      apply Succeeds.bind (each base visited bound)
      intro result gathered
      obtain ⟨order, visits, rfl⟩ := gathered
      exact .pure ⟨order, visits, by rw [absorb_merged]⟩
    apply Succeeds.bind here
    intro state found
    obtain ⟨order, visits, rfl⟩ := found
    have grown : visited ⊆ order.reverse ++ visited := List.subset_append_right _ _
    have stillEnough : file.openNames (order.reverse ++ visited) < depth :=
      Nat.lt_of_le_of_lt (file.openNames_anti grown) bound
    apply Succeeds.mono (ih (absorb members (order.flatMap (file.ownMembers catalog))) fun _ => stillEnough)
    intro result found
    obtain ⟨later, visits', rfl⟩ := found
    refine ⟨order ++ later, visits.append visits', ?_⟩
    simp [absorb_append]

/-- A search that may take more steps than there are names left visits depth first, and merges what it finds in this
order. -/
theorem localMembers_gathers (read : file.imports catalog = .ok imports)
    (announced : ∀ statement ∈ file.statements, statement.Announced catalog) (depth : Nat) (name : String)
    (visited : List String) (enough : file.openNames visited < depth) :
    Succeeds (file.localMembers catalog imports depth name visited) (file.Gathers catalog name visited) := by
  induction depth generalizing name visited with
  | zero => omega
  | succ depth ih =>
    by_cases seen : name ∈ visited
    · rw [localMembers, if_pos seen]
      exact .ok ⟨[], .again seen .done, rfl⟩
    rw [localMembers_fresh read announced depth seen]
    have fewer : file.localBases catalog name ≠ [] → file.openNames (name :: visited) < depth := by
      intro extending
      obtain ⟨base, extended⟩ := List.exists_mem_of_ne_nil _ extending
      have taken := openNames_cons_lt (declared_of_localBases extended) seen
      omega
    apply Succeeds.mono (foldlM_addBase ih (file.localBases catalog name) (file.ownMembers catalog name) fewer)
    intro result found
    obtain ⟨order, visits, rfl⟩ := found
    refine ⟨name :: order, visits.singleton seen, ?_⟩
    simp [merged]

def Inherits (catalog : Catalog κ) (file : SourceFile κ) : (name origin : String) → Prop :=
  Relation.ReflTransGen fun name base => base ∈ file.localBases catalog name

theorem membersOf_eq_merged (announced : ∀ statement ∈ file.statements, statement.Announced catalog) {name : String}
    (notImported : file.importPath catalog name = .ok "") :
    ∃ imports later, file.imports catalog = .ok imports ∧
      FirstVisits (file.localBases catalog) [name] [] (name :: later) ∧
      (∀ depth, file.statements.length < depth → ∃ visited,
        file.localMembers catalog imports depth name [] = .ok (file.merged catalog (name :: later), visited)) ∧
      file.membersOf catalog name = .ok (file.merged catalog (name :: later)) := by
  obtain ⟨imports, read, -⟩ := ok_of_bind notImported
  have noModule : (imports.get? name).getD "" = "" := Except.ok.inj ((importPath_eq read name).symm.trans notImported)
  have bound : file.openNames [] < file.statements.length + 1 := Nat.lt_succ_of_le (file.openNames_le_length [])
  obtain ⟨result, computed, order, visits, rfl⟩ :=
    localMembers_gathers read announced (file.statements.length + 1) name [] bound
  -- nothing was visited before, so that the search begins with the name itself
  cases visits with
  | again seen _ => cases seen
  | @first _ _ _ later fresh rest =>
    have everywhere : ∀ depth, file.statements.length < depth → ∃ visited,
        file.localMembers catalog imports depth name [] = .ok (file.merged catalog (name :: later), visited) := by
      intro depth enough
      exact ⟨_, (localMembers_of_enough enough name []).trans computed⟩
    refine ⟨imports, later, read, .first fresh rest, everywhere, ?_⟩
    obtain ⟨visited, found⟩ := everywhere (file.statements.length + 2) (by omega)
    rw [membersOf, read]
    simp only [bind, Except.bind, noModule, found, beq_self_eq_true, if_true]
    rfl

end SourceFile

/-- The search for members ends by itself, whatever the bases are. It gives only members that are declared on the way
from the name, and of every name that a member has there it gives one. -/
theorem inherited_members_complete (announced : ∀ statement ∈ file.statements, statement.Announced catalog)
    {name : String} (notImported : file.importPath catalog name = .ok "") :
    ∃ members, file.membersOf catalog name = .ok members ∧
      (∀ imports, file.imports catalog = .ok imports → ∀ depth, file.statements.length < depth →
        ∃ visited, file.localMembers catalog imports depth name [] = .ok (members, visited)) ∧
      (∀ member ∈ members, ∃ origin, file.Inherits catalog name origin ∧ member ∈ file.ownMembers catalog origin) ∧
      ∀ text, text ∈ memberNames members ↔
        ∃ origin, file.Inherits catalog name origin ∧ text ∈ memberNames (file.ownMembers catalog origin) := by
  obtain ⟨imports, later, read, visits, ended, computed⟩ := SourceFile.membersOf_eq_merged announced notImported
  have visited : ∀ origin, origin ∈ name :: later ↔ file.Inherits catalog name origin :=
    fun origin => visits.mem_iff_reachable
  refine ⟨_, computed, ?_, ?_, ?_⟩
  · intro table read' depth enough
    rw [Except.ok.inj (read'.symm.trans read)]
    exact ended depth enough
  · intro member present
    rcases mem_or_mem_of_mem_absorb present with own | inherited
    · exact ⟨name, .refl, own⟩
    · obtain ⟨origin, visit, inside⟩ := List.mem_flatMap.mp inherited
      exact ⟨origin, (visited origin).mp (List.mem_cons_of_mem _ visit), inside⟩
  · intro text
    rw [SourceFile.merged, mem_memberNames_absorb, memberNames_flatMap]
    simp only [← visited, List.mem_cons, exists_eq_or_imp]

def interfaceWith (name : String) (members bases : List String) : Statement Kind :=
  ⟨.node "interface_declaration", [], [], .interface (some ⟨.node "type_identifier", name⟩)
    [⟨.node "extendingtype_clause",
      bases.map fun base => ⟨.node "extendingtype_clause", some ⟨.node "identifier", base, .plain⟩, []⟩⟩]
    (members.map fun member =>
      ⟨.node "property_signature", some ⟨.node "property_identifier", member⟩, none, false, [], none, []⟩)⟩

/-- The sides of the diamond meet in a type that extends the top again; one base is imported, and one is declared
twice. -/
def diamondFile : SourceFile Kind :=
  ⟨.node "program",
    [interfaceWith "Props" ["title", "title"] ["Left", "React", "Right", "Missing"],
      interfaceWith "Left" ["size"] ["Root"], interfaceWith "Right" ["color", "size", "id"] ["Root"],
      interfaceWith "Root" ["id", "title"] ["Props", "Root"], interfaceWith "Root" ["hidden"] [], panelImport],
    "Diamond.tsx"⟩

theorem diamondFile_announced : ∀ statement ∈ diamondFile.statements, statement.Announced tsxCatalog := by
  have interface (name : String) (members bases : List String) :
      (interfaceWith name members bases).Announced tsxCatalog := Conversion.announced_of_sorts trivial ⟨_, _, _, rfl⟩
  have imported : panelImport.Announced tsxCatalog := Conversion.announced_of_sorts ⟨_, _, rfl⟩ trivial
  simp [diamondFile, interface, imported]

theorem diamond_memberNames : (diamondFile.membersOf tsxCatalog "Props").map memberNames =
    .ok ["title", "title", "size", "id", "color"] := rfl

theorem diamond_members_complete :
    (∀ statement ∈ diamondFile.statements, statement.Announced tsxCatalog) ∧
      diamondFile.importPath tsxCatalog "Props" = .ok "" ∧
      ∃ members, diamondFile.membersOf tsxCatalog "Props" = .ok members ∧
        (∀ imports, diamondFile.imports tsxCatalog = .ok imports → ∀ depth, diamondFile.statements.length < depth →
          ∃ visited, diamondFile.localMembers tsxCatalog imports depth "Props" [] = .ok (members, visited)) ∧
        (∀ member ∈ members, ∃ origin, diamondFile.Inherits tsxCatalog "Props" origin ∧
          member ∈ diamondFile.ownMembers tsxCatalog origin) ∧
        (∀ text, text ∈ memberNames members ↔ ∃ origin, diamondFile.Inherits tsxCatalog "Props" origin ∧
          text ∈ memberNames (diamondFile.ownMembers tsxCatalog origin)) ∧
        memberNames members = ["title", "title", "size", "id", "color"] := by
  have notImported : diamondFile.importPath tsxCatalog "Props" = .ok "" := rfl
  obtain ⟨members, found, ended, declared, named⟩ := inherited_members_complete diamondFile_announced notImported
  have listed : (diamondFile.membersOf tsxCatalog "Props").map memberNames = .ok _ := diamond_memberNames
  rw [found] at listed
  exact ⟨diamondFile_announced, notImported, members, found, ended, declared, named, Except.ok.inj listed⟩

/-- Merging on every level gives what one pass over all members gives: those of the type itself, then those of the types
in the order of their first visits, each unless its name came up before. -/
theorem inherited_members_flat (announced : ∀ statement ∈ file.statements, statement.Announced catalog)
    {name : String} (notImported : file.importPath catalog name = .ok "") :
    ∃ later, FirstVisits (file.localBases catalog) [name] [] (name :: later) ∧
      (∀ order, FirstVisits (file.localBases catalog) [name] [] order → order = name :: later) ∧
      ∃ inherited,
        inherited =
          firstOccurrences (file.ownMembers catalog name) (later.flatMap (file.ownMembers catalog)) ∧
        file.membersOf catalog name = .ok (file.ownMembers catalog name ++ inherited) ∧
        (memberNames inherited).Nodup ∧
        ∀ text ∈ memberNames inherited, text ∉ memberNames (file.ownMembers catalog name) := by
  obtain ⟨-, later, -, visits, -, computed⟩ := SourceFile.membersOf_eq_merged announced notImported
  refine ⟨later, visits, fun order visits' => visits'.unique visits, _, rfl, ?_, ?_, ?_⟩
  · rw [computed, SourceFile.merged, absorb_eq_append]
  · exact firstOccurrences_nodup _ _
  · intro text listed
    exact firstOccurrences_fresh listed

theorem diamond_members_flat :
    (∀ statement ∈ diamondFile.statements, statement.Announced tsxCatalog) ∧
      diamondFile.importPath tsxCatalog "Props" = .ok "" ∧
      ∃ later, FirstVisits (diamondFile.localBases tsxCatalog) ["Props"] [] ("Props" :: later) ∧
        (∀ order, FirstVisits (diamondFile.localBases tsxCatalog) ["Props"] [] order → order = "Props" :: later) ∧
        ∃ inherited,
          inherited = firstOccurrences (diamondFile.ownMembers tsxCatalog "Props")
            (later.flatMap (diamondFile.ownMembers tsxCatalog)) ∧
          diamondFile.membersOf tsxCatalog "Props" =
            .ok (diamondFile.ownMembers tsxCatalog "Props" ++ inherited) ∧
          (memberNames inherited).Nodup ∧
          (∀ text ∈ memberNames inherited, text ∉ memberNames (diamondFile.ownMembers tsxCatalog "Props")) ∧
          memberNames inherited = ["size", "id", "color"] := by
  have notImported : diamondFile.importPath tsxCatalog "Props" = .ok "" := rfl
  obtain ⟨later, visits, unique, inherited, same, found, once, fresh⟩ :=
    inherited_members_flat diamondFile_announced notImported
  have listed : (diamondFile.membersOf tsxCatalog "Props").map memberNames = .ok _ := diamond_memberNames
  rw [found] at listed
  have appended := (memberNames_append _ inherited).symm.trans (Except.ok.inj listed)
  exact ⟨diamondFile_announced, notImported, later, visits, unique, inherited, same, found, once, fresh,
    List.append_cancel_left (appended.trans rfl : _ = ["title", "title"] ++ ["size", "id", "color"])⟩

end ComponentDocs
