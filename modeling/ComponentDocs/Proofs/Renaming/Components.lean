import ComponentDocs.Component.Extraction
import ComponentDocs.Proofs.Renaming.Lookups
import ComponentDocs.Proofs.Reordering.Components

/-! Kinds are compared with those of the catalog and with nothing else. So a file whose kinds are renamed together with
those of the catalog yields the same, whatever the kinds are and however roles share them. -/

namespace ComponentDocs

section

variable {κ κ' : Type} [DecidableEq κ] [DecidableEq κ'] {f : κ → κ'} (injective : Function.Injective f)
  {catalog : Catalog κ}

include injective

theorem TypeNode.variant_rename (branch : TypeNode κ) :
    (branch.rename f).variant (catalog.rename f) = branch.variant catalog := by
  have sameText : (branch.literal.map (Expr.rename f)).map (·.text) = branch.literal.map (·.text) := by
    cases branch.literal <;> simp
  rw [TypeNode.variant, TypeNode.variant, TypeNode.rename_name, TypeNode.rename_kind, TypeNode.rename_literal, sameText,
    Catalog.literalTypeOfExpr_rename injective, Catalog.typeName_rename injective]
  simp only [Catalog.isLiteralType, Catalog.isFunctionType, Catalog.plays_rename injective]
  rfl

theorem TypeNode.variantOf_rename (branch : Option (TypeNode κ)) :
    TypeNode.variantOf (catalog.rename f) (branch.map (TypeNode.rename f)) = TypeNode.variantOf catalog branch := by
  cases branch with
  | none => rfl
  | some branch => exact TypeNode.variant_rename injective branch

theorem Parameter.named_rename (parameter : Parameter κ) :
    (parameter.rename f).named (catalog.rename f) = parameter.named catalog := by
  rw [Parameter.named, Parameter.named, Parameter.rename_name, Parameter.rename_type,
    Catalog.typeNameOf_rename injective, Option.map_map]
  rfl

theorem TypeNode.propType_rename (type : TypeNode κ) :
    (type.rename f).propType (catalog.rename f) = type.propType catalog := by
  have branches : (type.rename f).branches.mapM (TypeNode.variantOf (catalog.rename f)) =
      type.branches.mapM (TypeNode.variantOf catalog) := by
    rw [TypeNode.rename_branches, List.mapM_map]
    congr 1
    funext branch
    exact TypeNode.variantOf_rename injective branch
  have parameters : (type.rename f).parameters.map (Parameter.named (catalog.rename f)) =
      type.parameters.map (Parameter.named catalog) := by
    rw [TypeNode.rename_parameters, List.map_map]
    congr 1
    funext parameter
    exact Parameter.named_rename injective parameter
  rw [TypeNode.propType, TypeNode.propType, branches, parameters, TypeNode.rename_name, TypeNode.rename_kind,
    TypeNode.rename_result, Catalog.typeNameOf_rename injective, Catalog.typeName_rename injective]
  simp only [Catalog.isUnion, Catalog.isFunctionType, Catalog.plays_rename injective]
  rfl

theorem Member.prop_rename (defaults : Bindings String String) (member : Member κ) :
    (member.rename f).prop (catalog.rename f) defaults = member.prop catalog defaults := by
  rw [Member.prop, Member.prop, Member.rename_name, Member.rename_type, Member.rename_optional, Member.rename_docs,
    docText_rename]
  cases member.name with
  | none => rfl
  | some name =>
    cases member.type with
    | none => rfl
    | some type =>
      dsimp only [Option.map_some]
      rw [TypeNode.propType_rename injective]
      rfl

theorem Member.props_rename (defaults : Bindings String String) (members : List (Member κ)) :
    Member.props (catalog.rename f) defaults (members.map (Member.rename f)) =
      Member.props catalog defaults members := by
  have sameKept : Member.isProp ∘ Member.rename f = Member.isProp := by
    funext member
    rw [Function.comp_apply, Member.isProp, Member.isProp, Member.rename_name, Option.any_map]
    rfl
  rw [Member.props, Member.props, List.filter_map, sameKept, List.mapM_map]
  congr 1
  funext member
  exact Member.prop_rename injective defaults member

theorem Property.defaultText_rename (property : Property κ) :
    (property.rename f).defaultText (catalog.rename f) = property.defaultText catalog := by
  rw [Property.defaultText, Property.defaultText, Property.rename_value]
  cases property.value with
  | none => rfl
  | some value =>
    dsimp only [Option.map_some]
    rw [Expr.rename_kind, Expr.rename_text, Catalog.plays_rename injective, Catalog.plays_rename injective,
      Catalog.plays_rename injective]

theorem propertyDefaults_rename (properties : List (Property κ)) :
    propertyDefaults (catalog.rename f) (properties.map (Property.rename f)) =
      propertyDefaults catalog properties := by
  rw [propertyDefaults, propertyDefaults, List.filterMap_map]
  congr 2
  funext property
  rw [Function.comp_apply, Property.rename_name, Option.map_map, Property.defaultText_rename injective]
  rfl

theorem Member.defaults_rename (members : List (Member κ)) :
    Member.defaults (catalog.rename f) (members.map (Member.rename f)) = Member.defaults catalog members := by
  have sameHolder : Member.holdsDefaults (catalog.rename f) ∘ Member.rename f = Member.holdsDefaults catalog := by
    funext member
    rw [Function.comp_apply, Member.holdsDefaults, Member.holdsDefaults, Member.rename_name, Member.rename_modifiers,
      Catalog.hasModifier_rename injective, Option.any_map]
    rfl
  have sameValue : ((members.map (Member.rename f)).find? (Member.holdsDefaults (catalog.rename f))).bind (·.value) =
      ((members.find? (Member.holdsDefaults catalog)).bind (·.value)).map (Expr.rename f) := by
    rw [List.find?_map, sameHolder]
    cases members.find? (Member.holdsDefaults catalog) with
    | none => rfl
    | some member => exact Member.rename_value f member
  rw [Member.defaults, Member.defaults, sameValue]
  cases (members.find? (Member.holdsDefaults catalog)).bind (·.value) with
  | none => rfl
  | some value =>
    dsimp only [Option.map_some]
    rw [Catalog.isObjectLiteral, Catalog.isObjectLiteral, Expr.rename_kind, Catalog.plays_rename injective,
      Expr.rename_form]
    cases value.form with
    | object properties =>
      dsimp only [ExprForm.rename]
      rw [Property.renameAll_eq, propertyDefaults_rename injective]
    | _ => rfl

theorem Expr.baseClass_rename (value : Expr κ) :
    (value.rename f).baseClass (catalog.rename f) = value.baseClass catalog := by
  rw [Expr.baseClass, Expr.baseClass, Catalog.isPropertyAccess, Catalog.isPropertyAccess, Catalog.isIdentifier,
    Catalog.isIdentifier, Expr.rename_kind, Expr.rename_text, Catalog.plays_rename injective,
    Catalog.plays_rename injective, Expr.rename_form]
  cases value.form with
  | access object name =>
    have reached : ((Expr.renameOption f object).filter fun object =>
        (catalog.rename f).plays [.identifier] object.kind).map (·.text) =
        (object.filter fun object => catalog.plays [.identifier] object.kind).map (·.text) := by
      cases object with
      | none => rfl
      | some object =>
        dsimp only [Expr.renameOption]
        rw [Option.filter_some, Option.filter_some, Expr.rename_kind, Catalog.plays_rename injective]
        by_cases identifier : catalog.plays [.identifier] object.kind
        · rw [if_pos identifier, if_pos identifier]
          exact congrArg some (Expr.rename_text f object)
        · rw [if_neg identifier, if_neg identifier]
          rfl
    dsimp only [ExprForm.rename]
    rw [reached, Option.map_map]
    rfl
  | _ => rfl

theorem baseClassOf_rename (base : Option (Expr κ)) :
    baseClassOf (catalog.rename f) (base.map (Expr.rename f)) = baseClassOf catalog base := by
  cases base with
  | none => rfl
  | some value => exact Expr.baseClass_rename injective value

theorem BaseClass.isComponent_rename (file : SourceFile κ) (base : BaseClass) :
    base.isComponent (catalog.rename f) (file.rename f) = base.isComponent catalog file := by
  rw [BaseClass.isComponent, BaseClass.isComponent, SourceFile.importPath_rename injective]

theorem HeritageEntry.findComponent_rename (file : SourceFile κ) (entries : List (HeritageEntry κ)) :
    HeritageEntry.findComponent (catalog.rename f) (file.rename f) (entries.map (HeritageEntry.rename f)) =
      (HeritageEntry.findComponent catalog file entries).map (Option.map (HeritageEntry.rename f)) := by
  induction entries with
  | nil => rfl
  | cons first rest ih =>
    have sameBase : baseClassOf (catalog.rename f) (first.rename f).base = baseClassOf catalog first.base :=
      baseClassOf_rename injective first.base
    rw [List.map_cons, HeritageEntry.findComponent, HeritageEntry.findComponent, sameBase, ih]
    cases baseClassOf catalog first.base with
    | error problem => rfl
    | ok base =>
      dsimp only [bind, Except.bind]
      rw [BaseClass.isComponent_rename injective]
      rcases base.isComponent catalog file with problem | _ | _ <;> rfl

omit [DecidableEq κ] [DecidableEq κ'] injective in
theorem heritageEntries_rename (heritage : List (HeritageClause κ)) :
    heritageEntries (heritage.map (HeritageClause.rename f)) =
      (heritageEntries heritage).map (HeritageEntry.rename f) := by
  rw [heritageEntries, heritageEntries, List.flatMap_map, List.map_flatMap]
  rfl

theorem HeritageEntry.propsMembers_rename (file : SourceFile κ) (entry : HeritageEntry κ) :
    Agree (fun members members' => members' = members.map (Member.rename f)) (entry.propsMembers catalog file)
      ((entry.rename f).propsMembers (catalog.rename f) (file.rename f)) := by
  have sameArguments : (entry.rename f).arguments = entry.arguments.map (Option.map (TypeNode.rename f)) :=
    TypeNode.renameBranches_eq f entry.arguments
  rw [HeritageEntry.propsMembers, HeritageEntry.propsMembers, sameArguments]
  rcases entry.arguments with _ | ⟨_ | type, rest⟩
  · exact .ok rfl
  · exact .ok rfl
  · simp only [List.map_cons, Option.map_some, TypeNode.rename_name]
    cases properName? type.name with
    | some name => exact SourceFile.membersOf_rename injective file name
    | none =>
      apply Agree.ok
      rw [Catalog.isObjectType, Catalog.isObjectType, TypeNode.rename_kind, Catalog.plays_rename injective,
        TypeNode.rename_members]
      by_cases object : catalog.plays [.objectType] type.kind
      · rw [if_pos object, if_pos object]
      · rw [if_neg object, if_neg object]
        rfl

omit injective

mutual

theorem Expr.isMarkup_rename (injective : Function.Injective f) :
    (value : Expr κ) → (value.rename f).isMarkup (catalog.rename f) = value.isMarkup catalog
  | ⟨kind, text, .plain⟩ => by
    simp only [Expr.rename, ExprForm.rename, Expr.isMarkup, Catalog.isMarkup, Catalog.isParenthesized,
      Catalog.plays_rename injective]
    rfl
  | ⟨kind, text, .object properties⟩ => by
    simp only [Expr.rename, ExprForm.rename, Expr.isMarkup, Catalog.isMarkup, Catalog.isParenthesized,
      Catalog.plays_rename injective]
    rfl
  | ⟨kind, text, .access inner token⟩ => by
    simp only [Expr.rename, ExprForm.rename, Expr.isMarkup, Catalog.isMarkup, Catalog.isParenthesized,
      Catalog.plays_rename injective, Expr.isMarkupOf_rename injective inner]
    rfl
  | ⟨kind, text, .parenthesized inner⟩ => by
    simp only [Expr.rename, ExprForm.rename, Expr.isMarkup, Catalog.isMarkup, Catalog.isParenthesized,
      Catalog.plays_rename injective, Expr.isMarkupOf_rename injective inner]
    rfl
  | ⟨kind, text, .call inner arguments⟩ => by
    simp only [Expr.rename, ExprForm.rename, Expr.isMarkup, Catalog.isMarkup, Catalog.isParenthesized,
      Catalog.plays_rename injective, Expr.isMarkupOf_rename injective inner]
    rfl

theorem Expr.isMarkupOf_rename (injective : Function.Injective f) : (value : Option (Expr κ)) →
    Expr.isMarkupOf (catalog.rename f) (Expr.renameOption f value) = Expr.isMarkupOf catalog value
  | none => rfl
  | some inner => Expr.isMarkup_rename injective inner

end

include injective

namespace Statement

omit [DecidableEq κ] [DecidableEq κ'] injective in
theorem value_rename (statement : Statement κ) :
    (statement.rename f).value = statement.value.map (Option.map (Expr.rename f)) := by
  rw [Statement.value, Statement.value, Statement.rename_form]
  cases statement.form <;> rfl

theorem yieldsMarkup_rename (statement : Statement κ) :
    (statement.rename f).yieldsMarkup (catalog.rename f) = statement.yieldsMarkup catalog := by
  rw [yieldsMarkup, yieldsMarkup, Catalog.isReturn, Catalog.isReturn, Catalog.isExpressionStatement,
    Catalog.isExpressionStatement, Statement.rename_kind, Catalog.plays_rename injective,
    Catalog.plays_rename injective, value_rename]
  by_cases returns : catalog.plays [.returnStatement] statement.kind
  · rw [if_pos returns, if_pos returns]
    cases statement.value with
    | error problem => rfl
    | ok value =>
      dsimp only [Except.map, bind, Except.bind]
      rw [← Expr.renameOption_eq, Expr.isMarkupOf_rename injective]
  rw [if_neg returns, if_neg returns]
  by_cases stands : catalog.plays [.expressionStatement] statement.kind
  · rw [if_pos stands, if_pos stands]
    rcases statement.value with problem | _ | value
    · rfl
    · rfl
    · dsimp only [Except.map, bind, Except.bind, Option.map_some]
      rw [Catalog.isParenthesized, Catalog.isParenthesized, Expr.rename_kind, Catalog.plays_rename injective,
        Expr.isMarkup_rename injective]
  · rw [if_neg stands, if_neg stands]

theorem anyYieldsMarkup_rename (statements : List (Statement κ)) :
    anyYieldsMarkup (catalog.rename f) (statements.map (Statement.rename f)) =
      anyYieldsMarkup catalog statements := by
  induction statements with
  | nil => rfl
  | cons first rest ih =>
    rw [List.map_cons, anyYieldsMarkup, anyYieldsMarkup, yieldsMarkup_rename injective, ih]

omit [DecidableEq κ] [DecidableEq κ'] injective in
theorem declaredName_rename (statement : Statement κ) : (statement.rename f).declaredName = statement.declaredName := by
  rw [declaredName, declaredName, Statement.rename_form]
  cases statement.form <;> simp [StatementForm.rename, Option.map_map, Function.comp_def]

theorem isExported_rename (file : SourceFile κ) (statement : Statement κ) :
    (statement.rename f).isExported (catalog.rename f) (file.rename f) = statement.isExported catalog file := by
  rw [isExported, isExported, declaredName_rename, Statement.rename_modifiers, Catalog.hasModifier_rename injective]
  simp only [SourceFile.exports_rename injective]

theorem className_rename (statement : Statement κ) :
    (statement.rename f).className (catalog.rename f) = statement.className catalog := by
  rw [className, className, Catalog.isClass, Catalog.isClass, Statement.rename_kind, Catalog.plays_rename injective,
    Statement.rename_form]
  cases statement.form <;> simp [StatementForm.rename, Option.map_map, Function.comp_def]

theorem hasMethod_rename (name : String) (statement : Statement κ) :
    (statement.rename f).hasMethod (catalog.rename f) name = statement.hasMethod catalog name := by
  have sameMethods : ∀ members : List (Member κ),
      Member.anyMethod (catalog.rename f) name (members.map (Member.rename f)) =
        Member.anyMethod catalog name members := by
    intro members
    rw [Member.anyMethod, Member.anyMethod, List.any_map]
    congr 1
    funext member
    rw [Function.comp_apply, Catalog.isMethod_rename injective, Member.rename_name, Option.any_map]
    rfl
  rw [hasMethod, hasMethod, Catalog.isClass, Catalog.isClass, Statement.rename_kind, Catalog.plays_rename injective,
    Statement.rename_form]
  cases statement.form <;> simp [StatementForm.rename, sameMethods]

theorem classComponent_rename (file : SourceFile κ) (path : RawText) (statement : Statement κ) :
    (statement.rename f).classComponent (catalog.rename f) (file.rename f) path =
      statement.classComponent catalog file path := by
  rw [classComponent, classComponent, isExported_rename injective, hasMethod_rename injective,
    className_rename injective, Statement.rename_docs, docText_rename, Statement.rename_form]
  symm
  apply Agree.eq
  apply (Agree.refl (statement.isExported catalog file)).bind
  rintro exported _ rfl
  by_cases shown : exported = true
  · rw [if_pos shown, if_pos shown]
    cases statement.form with
    | classOf name heritage members =>
      dsimp only [StatementForm.rename]
      rw [List.isEmpty_map, heritageEntries_rename, HeritageEntry.findComponent_rename injective,
        Member.defaults_rename injective]
      by_cases bare : heritage.isEmpty = true
      · rw [if_pos bare, if_pos bare]
        exact .refl _
      rw [if_neg bare, if_neg bare]
      apply (Agree.refl (statement.hasMethod catalog "render")).bind
      rintro renders _ rfl
      by_cases drawn : renders = true
      · rw [if_pos drawn, if_pos drawn]
        rcases HeritageEntry.findComponent catalog file (heritageEntries heritage) with problem | _ | entry
        · exact .refl _
        · exact .refl _
        · apply (Agree.refl (Member.defaults catalog members)).bind
          rintro defaults _ rfl
          apply (HeritageEntry.propsMembers_rename injective file entry).bind
          rintro props _ rfl
          rw [Member.props_rename injective]
          exact .refl _
      · rw [if_neg drawn, if_neg drawn]
        exact .refl _
    | _ => exact .refl _
  · rw [if_neg shown, if_neg shown]
    exact .refl _

theorem functionComponent_rename (file : SourceFile κ) (path : RawText) (statement : Statement κ) :
    (statement.rename f).functionComponent (catalog.rename f) (file.rename f) path =
      statement.functionComponent catalog file path := by
  rw [functionComponent, functionComponent, isExported_rename injective, Statement.rename_docs, docText_rename,
    Statement.rename_form]
  cases statement.form with
  | function name parameters body =>
    cases body with
    | none => rfl
    | some body =>
      obtain ⟨kind, statements⟩ := body
      dsimp only [StatementForm.rename, Block.renameOption]
      rw [Statement.renameAll_eq, anyYieldsMarkup_rename injective, Option.map_map]
      rfl
  | _ => rfl

theorem component_rename (file : SourceFile κ) (path : RawText) (statement : Statement κ) :
    (statement.rename f).component (catalog.rename f) (file.rename f) path =
      statement.component catalog file path := by
  rw [component, component, Catalog.isClass, Catalog.isClass, Catalog.isFunction, Catalog.isFunction,
    Statement.rename_kind, Catalog.plays_rename injective, Catalog.plays_rename injective,
    classComponent_rename injective, functionComponent_rename injective]

end Statement

theorem SourceFile.components_rename (file : SourceFile κ) (path : RawText) :
    (file.rename f).components (catalog.rename f) path = file.components catalog path := by
  have each : (file.statements.map (Statement.rename f)).mapM
      (Statement.component (catalog.rename f) (file.rename f) path) =
      file.statements.mapM (Statement.component catalog file path) := by
    rw [List.mapM_map]
    congr 1
    funext statement
    exact Statement.component_rename injective file path statement
  rw [SourceFile.components, SourceFile.components, SourceFile.rename_statements, each]

omit [DecidableEq κ'] injective in
theorem Catalog.plays_eq_false {role : Role} (absent : catalog role = none) (kind : κ) :
    catalog.plays [role] kind = false := by
  simp [Catalog.plays, absent]

/-- Kinds have no meaning of their own: renamed in the file and in the catalog, they give the same components or the
same failure, and a role without a kind is played by none before and after. -/
theorem kinds_opaque (catalog : Catalog κ) (file : SourceFile κ) (path : RawText) :
    (file.rename f).components (catalog.rename f) path = file.components catalog path ∧
      ∀ role, catalog role = none →
        (∀ kind, catalog.plays [role] kind = false) ∧ ∀ kind, (catalog.rename f).plays [role] kind = false := by
  refine ⟨SourceFile.components_rename injective file path, ?_⟩
  intro role absent
  have absentToo : catalog.rename f role = none := by
    rw [Catalog.rename, absent]
    rfl
  exact ⟨Catalog.plays_eq_false absent, Catalog.plays_eq_false absentToo⟩

end

/-- Keywords become nodes of the same name, and nodes keywords: a string literal and the keyword `string` trade
places. -/
def Kind.flip (kind : Kind) : Kind := ⟨kind.name, !kind.named⟩

theorem Kind.flip_injective : Function.Injective Kind.flip := by
  have back : ∀ kind : Kind, kind.flip.flip = kind := fun kind => by simp [Kind.flip]
  exact Function.LeftInverse.injective back

theorem panel_kinds_opaque :
    Function.Injective Kind.flip ∧ tsxCatalog .jsxFragment = none ∧
      (panelFile.rename Kind.flip).components (tsxCatalog.rename Kind.flip) "src" =
        panelFile.components tsxCatalog "src" ∧
      panelFile.components tsxCatalog "src" = .ok [panelComponent] ∧
      ∀ role, tsxCatalog role = none →
        (∀ kind, tsxCatalog.plays [role] kind = false) ∧
          ∀ kind, (tsxCatalog.rename Kind.flip).plays [role] kind = false := by
  obtain ⟨same, unplayed⟩ := kinds_opaque Kind.flip_injective tsxCatalog panelFile "src"
  have extracted : panelFile.components tsxCatalog "src" = .ok [panelComponent] := by decide +kernel
  exact ⟨Kind.flip_injective, rfl, same, extracted, unplayed⟩

end ComponentDocs
