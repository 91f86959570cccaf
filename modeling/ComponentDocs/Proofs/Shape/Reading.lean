import ComponentDocs.Component.Extraction
import ComponentDocs.Proofs.Shape.Basic
import ComponentDocs.Proofs.Success

namespace ComponentDocs

variable {κ : Type} [DecidableEq κ] {catalog : Catalog κ}

theorem Statement.Shaped.announced {statement : Statement κ} (shaped : statement.Shaped catalog) :
    statement.Announced catalog := by
  cases shaped with
  | node announced _ _ _ _ _ => exact announced

theorem Expr.anyHands_succeeds (name : String) (values : List (Expr κ))
    (each : ∀ value ∈ values, Returns (value.hands catalog name)) :
    Returns (Expr.anyHands catalog name values) := by
  induction values with
  | nil => exact .ok _
  | cons first rest ih =>
    rw [Expr.anyHands]
    refine .bind (each first List.mem_cons_self) ?_
    intro found
    cases found with
    | true => exact .pure _
    | false => exact ih fun value member => each value (List.mem_cons_of_mem _ member)

theorem Expr.hands_succeeds (name : String) {value : Expr κ} (shaped : value.Shaped catalog) :
    Returns (value.hands catalog name) := by
  induction shaped with
  | @node value announced parts ih =>
    obtain ⟨kind, text, form⟩ := value
    rw [Expr.hands.eq_def]
    dsimp only
    by_cases identifier : catalog.isIdentifier kind
    · rw [if_pos identifier]
      exact .ok _
    rw [if_neg identifier]
    by_cases parenthesized : catalog.isParenthesized kind
    · rw [if_pos parenthesized]
      obtain ⟨inner, rfl⟩ := announced.parenthesized parenthesized
      cases inner with
      | none => exact .ok _
      | some inner => exact ih inner (by simp [ExprForm.parts])
    rw [if_neg parenthesized]
    by_cases call : catalog.isCall kind
    · rw [if_pos call]
      obtain ⟨callee, arguments, rfl⟩ := announced.call call
      have inArguments := Expr.anyHands_succeeds name arguments fun value member =>
        ih value (by simp [ExprForm.parts, member])
      refine .bind inArguments ?_
      intro found
      cases found with
      | true => exact .pure _
      | false =>
        cases callee with
        | none => exact .pure _
        | some callee =>
          rw [if_neg Bool.false_ne_true]
          dsimp only
          split
          · exact ih callee (by simp [ExprForm.parts])
          · exact .pure _
    · rw [if_neg call]
      exact .ok _

theorem Statement.exports_succeeds (name : String) {statement : Statement κ} (shaped : statement.Shaped catalog) :
    Returns (statement.exports catalog name) := by
  cases shaped with
  | node _ values _ _ _ _ =>
    obtain ⟨kind, docs, modifiers, form⟩ := statement
    cases form with
    | exportValue value =>
      dsimp only [Statement.exports]
      by_cases exported : catalog.isExport kind
      · rw [if_pos exported]
        cases value with
        | none => exact .ok _
        | some value => exact Expr.hands_succeeds name (values value (by simp [StatementForm.values]))
      · rw [if_neg exported]
        exact .ok _
    | _ => exact .ok _

theorem Statement.anyExports_succeeds (name : String) (statements : List (Statement κ))
    (shaped : ∀ statement ∈ statements, statement.Shaped catalog) :
    Returns (Statement.anyExports catalog name statements) := by
  induction statements with
  | nil => exact .ok _
  | cons first rest ih =>
    rw [Statement.anyExports]
    refine .bind (Statement.exports_succeeds name (shaped first List.mem_cons_self)) ?_
    intro found
    cases found with
    | true => exact .pure _
    | false => exact ih fun statement member => shaped statement (List.mem_cons_of_mem _ member)

theorem SourceFile.exports_succeeds {file : SourceFile κ} (shaped : file.Shaped catalog) (name : String) :
    Returns (file.exports catalog name) := by
  rw [SourceFile.exports]
  split
  · exact .ok _
  · exact Statement.anyExports_succeeds name file.statements shaped

theorem Statement.imports_succeeds {statement : Statement κ} (announced : statement.Announced catalog) :
    Returns (statement.imports catalog) := by
  rw [Statement.imports]
  by_cases imported : catalog.isImport statement.kind
  · obtain ⟨clause, library, form⟩ := announced.importFrom imported
    rw [if_pos imported, form]
    cases clause <;> exact .ok _
  · rw [if_neg imported]
    exact .ok _

theorem SourceFile.imports_succeeds {file : SourceFile κ} (shaped : file.Shaped catalog) :
    Returns (file.imports catalog) := by
  have each : Returns (file.statements.mapM (Statement.imports catalog)) :=
    .mapM fun statement member => Statement.imports_succeeds (shaped statement member).announced
  exact each.bind fun _ => .pure _

theorem SourceFile.importPath_succeeds {file : SourceFile κ} (shaped : file.Shaped catalog) (name : String) :
    Returns (file.importPath catalog name) :=
  (SourceFile.imports_succeeds shaped).bind fun _ => .pure _

def MemberSource.members : MemberSource κ → List (Member κ)
  | .interface members _ => members
  | .object members => members

theorem TypeNode.Shaped.members {type : TypeNode κ} (shaped : type.Shaped catalog) :
    ∀ member ∈ type.members, member.Shaped catalog := by
  cases shaped with
  | node _ parts values =>
    intro member present
    refine ⟨?_, values member present⟩
    intro inner inside
    have part : inner ∈ type.members.filterMap (·.type) := List.mem_filterMap.mpr ⟨member, present, inside⟩
    exact parts inner (by simp [TypeNode.parts, part])

theorem Statement.memberSource?_succeeds {statement : Statement κ} (shaped : statement.Shaped catalog) :
    Succeeds (statement.memberSource? catalog) fun found =>
      ∀ source ∈ found, ∀ member ∈ source.members, member.Shaped catalog := by
  cases shaped with
  | node announced _ _ members types _ =>
    rw [Statement.memberSource?]
    by_cases interface : catalog.isInterface statement.kind
    · obtain ⟨name, heritage, own, form⟩ := announced.interface interface
      rw [form] at members
      simp only [interface, form, if_true]
      refine .ok ?_
      rintro source ⟨⟩
      exact members
    by_cases aliased : catalog.isTypeAlias statement.kind
    · obtain ⟨name, type, form⟩ := announced.typeAlias aliased
      rw [form] at types
      simp only [interface, aliased, form, if_true, if_false, Bool.false_eq_true]
      cases type with
      | none => exact .ok (by simp)
      | some type =>
        have shaped := types type (by simp [StatementForm.types])
        refine .ok ?_
        intro source found
        split at found
        · cases found
          exact shaped.members
        · cases found
    · simp only [interface, aliased, if_false, Bool.false_eq_true]
      exact .ok (by simp)

theorem Statement.findMembers_succeeds (name : String) (statements : List (Statement κ))
    (shaped : ∀ statement ∈ statements, statement.Shaped catalog) :
    Succeeds (Statement.findMembers catalog name statements) fun found =>
      ∀ source ∈ found, ∀ member ∈ source.members, member.Shaped catalog := by
  induction statements with
  | nil => exact .ok (by simp)
  | cons first rest ih =>
    have later := ih fun statement member => shaped statement (List.mem_cons_of_mem _ member)
    rw [Statement.findMembers]
    split
    · refine .bind (Statement.memberSource?_succeeds (shaped first List.mem_cons_self)) ?_
      intro found holds
      cases found with
      | none => exact later
      | some source => exact .pure holds
    · exact later

omit [DecidableEq κ] in
theorem mem_or_mem_of_mem_absorb {member : Member κ} {members inherited : List (Member κ)}
    (present : member ∈ absorb members inherited) : member ∈ members ∨ member ∈ inherited := by
  induction inherited generalizing members with
  | nil => exact .inl present
  | cons first rest ih =>
    rw [absorb, List.foldl_cons, ← absorb] at present
    rcases ih present with before | later
    · split at before
      · exact .inl before
      · rcases List.mem_append.mp before with old | new
        · exact .inl old
        · exact .inr (by simp [List.mem_singleton.mp new])
    · exact .inr (List.mem_cons_of_mem _ later)

theorem SourceFile.localMembers_succeeds {file : SourceFile κ} (shaped : file.Shaped catalog)
    (imports : Bindings String String) (depth : Nat) (name : String) (visited : List String) :
    Succeeds (file.localMembers catalog imports depth name visited) fun result =>
      ∀ member ∈ result.1, member.Shaped catalog := by
  induction depth generalizing name visited with
  | zero => exact .ok (by simp)
  | succ depth ih =>
    rw [SourceFile.localMembers]
    split
    · exact .ok (by simp)
    refine .bind (Statement.findMembers_succeeds name file.statements shaped) ?_
    intro found holds
    rcases found with _ | ⟨members, bases⟩ | members
    · exact .pure (by simp)
    · -- every base adds members that are shaped by the induction hypothesis
      refine .foldlM (holds _ rfl) ?_
      intro state kept base _
      refine .bind (ih base state.2) ?_
      rintro ⟨inherited, visited⟩ new
      refine .pure ?_
      intro member present
      rcases mem_or_mem_of_mem_absorb present with old | added
      · exact kept member old
      · exact new member added
    · exact .pure (holds _ rfl)

theorem SourceFile.membersOf_succeeds {file : SourceFile κ} (shaped : file.Shaped catalog) (name : String) :
    Succeeds (file.membersOf catalog name) fun members => ∀ member ∈ members, member.Shaped catalog := by
  refine .bind (SourceFile.imports_succeeds shaped) ?_
  intro imports _
  split
  · refine .bind (SourceFile.localMembers_succeeds shaped imports _ name []) ?_
    intro result holds
    exact .pure holds
  · exact .pure (by simp)

theorem baseClassOf_succeeds {base : Option (Expr κ)} (shaped : ∀ value ∈ base, value.Shaped catalog) :
    Returns (baseClassOf catalog base) := by
  cases base with
  | none => exact .ok _
  | some value =>
    rw [baseClassOf, Expr.baseClass]
    by_cases access : catalog.isPropertyAccess value.kind
    · cases shaped value rfl with
      | node announced _ =>
        obtain ⟨object, name, form⟩ := announced.access access
        rw [if_pos access, form]
        exact .ok _
    · rw [if_neg access]
      split <;> exact .ok _

theorem BaseClass.isComponent_succeeds {file : SourceFile κ} (shaped : file.Shaped catalog) (base : BaseClass) :
    Returns (base.isComponent catalog file) := by
  rw [BaseClass.isComponent]
  split
  · exact (SourceFile.importPath_succeeds shaped base.binding).bind fun _ => .pure _
  · exact .ok _

theorem HeritageEntry.findComponent_succeeds {file : SourceFile κ} (shaped : file.Shaped catalog)
    (entries : List (HeritageEntry κ)) (each : ∀ entry ∈ entries, entry.Shaped catalog) :
    Succeeds (HeritageEntry.findComponent catalog file entries) fun found => ∀ entry ∈ found, entry.Shaped catalog := by
  induction entries with
  | nil => exact .ok (by simp)
  | cons first rest ih =>
    have here := each first List.mem_cons_self
    rw [HeritageEntry.findComponent]
    refine .bind (baseClassOf_succeeds here.base) ?_
    intro base _
    refine .bind (BaseClass.isComponent_succeeds shaped base) ?_
    intro matched _
    cases matched with
    | true => exact .pure (by simpa using here)
    | false => exact ih fun entry member => each entry (List.mem_cons_of_mem _ member)

theorem HeritageEntry.propsMembers_succeeds {file : SourceFile κ} (shaped : file.Shaped catalog)
    {entry : HeritageEntry κ} (here : entry.Shaped catalog) :
    Succeeds (entry.propsMembers catalog file) fun members => ∀ member ∈ members, member.Shaped catalog := by
  rw [HeritageEntry.propsMembers]
  split
  · rename_i type rest first
    split
    · exact SourceFile.membersOf_succeeds shaped _
    · refine .ok ?_
      have argument := here.arguments type (by simp [first])
      split
      · exact argument.members
      · simp
  · exact .ok (by simp)

theorem TypeNode.variant_succeeds {branch : TypeNode κ} (announced : branch.Announced catalog) :
    Returns (branch.variant catalog) := by
  rw [TypeNode.variant]
  split
  · exact .ok _
  by_cases literal : catalog.isLiteralType branch.kind
  · rw [if_pos literal]
    have value := announced.literal literal
    refine .bind ?_ fun _ => .pure _
    cases held : branch.literal with
    | none => exact .ok _
    | some inner =>
      have noType := value inner held
      rw [Catalog.literalTypeOfExpr, noType]
      exact .ok _
  · rw [if_neg literal]
    dsimp only
    split <;> exact .ok _

theorem TypeNode.propType_succeeds {type : TypeNode κ} (shaped : type.Shaped catalog) :
    Returns (type.propType catalog) := by
  cases shaped with
  | node announced parts _ =>
    rw [TypeNode.propType]
    split
    · exact .ok _
    dsimp only
    split
    · exact .ok _
    by_cases union : catalog.isUnion type.kind
    · rw [if_pos union]
      refine .bind (.mapM ?_) fun _ => .pure _
      intro branch present
      cases branch with
      | none => exact absurd present (announced.branches union)
      | some branch =>
        cases parts branch (by simp [TypeNode.parts, present]) with
        | node inner _ _ => exact TypeNode.variant_succeeds inner
    · rw [if_neg union]
      split <;> exact .ok _

theorem Member.props_succeeds (defaults : Bindings String String) {members : List (Member κ)}
    (shaped : ∀ member ∈ members, member.Shaped catalog) :
    Returns (Member.props catalog defaults members) := by
  refine .mapM ?_
  intro member present
  obtain ⟨present, named⟩ := List.mem_filter.mp present
  rw [Member.prop]
  cases name : member.name with
  | none => simp [Member.isProp, name] at named
  | some token =>
    dsimp only
    cases type : member.type with
    | none => exact .pure _
    | some inner =>
      have typed := TypeNode.propType_succeeds ((shaped member present).type inner type)
      exact typed.bind fun _ => .pure _

theorem Member.defaults_succeeds {members : List (Member κ)} (shaped : ∀ member ∈ members, member.Shaped catalog) :
    Returns (Member.defaults catalog members) := by
  rw [Member.defaults]
  split
  · exact .ok _
  · rename_i value found
    obtain ⟨member, first, held⟩ := Option.bind_eq_some_iff.mp found
    by_cases object : catalog.isObjectLiteral value.kind
    · cases (shaped member (List.mem_of_find?_eq_some first)).value value held with
      | node announced _ =>
        obtain ⟨properties, form⟩ := announced.object object
        rw [if_pos object, form]
        exact .ok _
    · rw [if_neg object]
      exact .ok _

theorem Expr.isMarkup_succeeds {value : Expr κ} (shaped : value.Shaped catalog) :
    Returns (value.isMarkup catalog) := by
  induction shaped with
  | @node value announced parts ih =>
    obtain ⟨kind, text, form⟩ := value
    rw [Expr.isMarkup.eq_def]
    dsimp only
    split
    · exact .ok _
    by_cases parenthesized : catalog.isParenthesized kind
    · rw [if_pos parenthesized]
      obtain ⟨inner, rfl⟩ := announced.parenthesized parenthesized
      cases inner with
      | none => exact .ok _
      | some inner => exact ih inner (by simp [ExprForm.parts])
    · rw [if_neg parenthesized]
      exact .ok _

theorem Statement.yieldsMarkup_succeeds {statement : Statement κ} (shaped : statement.Shaped catalog) :
    Returns (statement.yieldsMarkup catalog) := by
  cases shaped with
  | node announced values _ _ _ _ =>
    rw [Statement.yieldsMarkup]
    by_cases returned : catalog.isReturn statement.kind
    · rw [if_pos returned]
      obtain ⟨value, form⟩ := announced.returning returned
      rw [form] at values
      simp only [Statement.value, form]
      cases value with
      | none => exact .ok _
      | some value => exact Expr.isMarkup_succeeds (values value (by simp [StatementForm.values]))
    rw [if_neg returned]
    by_cases expression : catalog.isExpressionStatement statement.kind
    · rw [if_pos expression]
      obtain ⟨value, form⟩ := announced.expression expression
      rw [form] at values
      simp only [Statement.value, form]
      cases value with
      | none => exact .ok _
      | some value =>
        change Returns (if _ then _ else _)
        split
        · exact Expr.isMarkup_succeeds (values value (by simp [StatementForm.values]))
        · exact .pure _
    · rw [if_neg expression]
      exact .ok _

theorem Statement.anyYieldsMarkup_succeeds (statements : List (Statement κ))
    (shaped : ∀ statement ∈ statements, statement.Shaped catalog) :
    Returns (Statement.anyYieldsMarkup catalog statements) := by
  induction statements with
  | nil => exact .ok _
  | cons first rest ih =>
    rw [Statement.anyYieldsMarkup]
    refine .bind (Statement.yieldsMarkup_succeeds (shaped first List.mem_cons_self)) ?_
    intro found
    cases found with
    | true => exact .pure _
    | false => exact ih fun statement member => shaped statement (List.mem_cons_of_mem _ member)

theorem Statement.isExported_succeeds {file : SourceFile κ} (shaped : file.Shaped catalog) {statement : Statement κ}
    (named : Returns statement.declaredName) : Returns (statement.isExported catalog file) := by
  refine named.bind ?_
  intro name
  split
  · exact .pure _
  · exact SourceFile.exports_succeeds shaped name

theorem Statement.classComponent_succeeds {file : SourceFile κ} (shaped : file.Shaped catalog) (path : RawText)
    {statement : Statement κ} (here : statement.Shaped catalog) (isClass : catalog.isClass statement.kind) :
    Returns (statement.classComponent catalog file path) := by
  cases here with
  | node announced _ entries members _ _ =>
    obtain ⟨name, heritage, own, form⟩ := announced.classOf isClass
    rw [form] at entries members
    have named : Returns statement.declaredName := by
      rw [Statement.declaredName, form]
      exact .ok _
    refine (Statement.isExported_succeeds shaped named).bind ?_
    intro exported
    split
    · rw [form]
      dsimp only
      split
      · exact .pure _
      have method : Returns (statement.hasMethod catalog "render") := by
        rw [Statement.hasMethod, if_pos isClass, form]
        exact .ok _
      refine method.bind ?_
      intro rendered
      split
      · refine Succeeds.bind (HeritageEntry.findComponent_succeeds shaped _ entries) ?_
        intro found holds
        cases found with
        | none => exact Returns.pure _
        | some entry =>
          refine (Member.defaults_succeeds members).bind ?_
          intro defaults
          refine Succeeds.bind (HeritageEntry.propsMembers_succeeds shaped (holds entry rfl)) ?_
          intro propsMembers propsShaped
          have className : Returns (statement.className catalog) := by
            rw [Statement.className, form]
            dsimp only
            rw [if_pos isClass]
            exact .ok _
          refine className.bind ?_
          intro name
          exact (Member.props_succeeds defaults propsShaped).bind fun _ => .pure _
      · exact .pure _
    · exact .pure _

theorem Statement.functionComponent_succeeds {file : SourceFile κ} (shaped : file.Shaped catalog) (path : RawText)
    {statement : Statement κ} (here : statement.Shaped catalog) (isFunction : catalog.isFunction statement.kind) :
    Returns (statement.functionComponent catalog file path) := by
  cases here with
  | node announced _ _ _ _ inside =>
    obtain ⟨name, parameters, body, form⟩ := announced.function isFunction
    rw [form] at inside
    have named : Returns statement.declaredName := by
      rw [Statement.declaredName, form]
      exact .ok _
    refine (Statement.isExported_succeeds shaped named).bind ?_
    intro exported
    split
    · rw [form]
      cases body with
      | none => exact .pure _
      | some body =>
        refine (Statement.anyYieldsMarkup_succeeds body.statements inside).bind ?_
        intro found
        split <;> exact .pure _
    · exact .pure _

theorem Statement.component_succeeds {file : SourceFile κ} (shaped : file.Shaped catalog) (path : RawText)
    {statement : Statement κ} (here : statement.Shaped catalog) :
    Returns (statement.component catalog file path) := by
  rw [Statement.component]
  split
  · exact Statement.classComponent_succeeds shaped path here ‹_›
  split
  · exact Statement.functionComponent_succeeds shaped path here ‹_›
  · exact .ok _

theorem SourceFile.components_succeeds {file : SourceFile κ} (shaped : file.Shaped catalog) (path : RawText) :
    Returns (file.components catalog path) := by
  have each : Returns (file.statements.mapM (Statement.component catalog file path)) :=
    .mapM fun statement member => Statement.component_succeeds shaped path (shaped statement member)
  exact each.bind fun _ => .pure _

end ComponentDocs
