import ComponentDocs.Proofs.Agreement
import ComponentDocs.Proofs.Renaming.Syntax
import ComponentDocs.Syntax.Exports
import ComponentDocs.Syntax.Members
import Mathlib.Logic.Function.Basic

namespace ComponentDocs

variable {κ κ' : Type} [DecidableEq κ] [DecidableEq κ'] {f : κ → κ'} (injective : Function.Injective f)
  {catalog : Catalog κ}

include injective

namespace Catalog

theorem plays_rename (roles : List Role) (kind : κ) :
    (catalog.rename f).plays roles (f kind) = catalog.plays roles kind := by
  rw [plays, plays]
  congr 1
  funext role
  rw [rename]
  cases catalog role with
  | none => rfl
  | some other => simp [injective.eq_iff]

theorem isMethod_rename (member : Member κ) :
    (catalog.rename f).isMethod (member.rename f) = catalog.isMethod member := by
  rw [isMethod, isMethod, Member.rename_kind, plays_rename injective, plays_rename injective, Member.rename_value]
  cases member.value with
  | none => rfl
  | some value => simp [plays_rename injective]

theorem hasModifier_rename (role : Role) (modifiers : List (Token κ)) :
    (catalog.rename f).hasModifier role (modifiers.map (Token.rename f)) = catalog.hasModifier role modifiers := by
  rw [hasModifier, hasModifier, List.any_map]
  congr 1
  funext modifier
  exact plays_rename injective [role] modifier.kind

theorem nameIn_rename (table : List (Role × String)) (kind : κ) :
    (catalog.rename f).nameIn table (f kind) = catalog.nameIn table kind := by
  simp only [nameIn, plays_rename injective]

theorem typeName_rename (kind : κ) : (catalog.rename f).typeName (f kind) = catalog.typeName kind := by
  rw [typeName, typeName, nameIn_rename injective]

theorem typeNameOf_rename (type : Option (TypeNode κ)) :
    (catalog.rename f).typeNameOf (type.map (TypeNode.rename f)) = catalog.typeNameOf type := by
  cases type with
  | none => rfl
  | some type => simp [typeNameOf, typeName_rename injective]

theorem literalTypeOfExpr_rename (value : Option (Expr κ)) :
    (catalog.rename f).literalTypeOfExpr (value.map (Expr.rename f)) = catalog.literalTypeOfExpr value := by
  cases value with
  | none => rfl
  | some value =>
    simp only [Option.map_some, literalTypeOfExpr, isLiteralType, literalTypeName, Expr.rename_kind,
      plays_rename injective, nameIn_rename injective, typeName_rename injective]
    rfl

end Catalog

omit [DecidableEq κ] [DecidableEq κ'] injective in
theorem ImportClause.names_rename (clause : ImportClause κ) : (clause.rename f).names = clause.names := by
  obtain ⟨kind, name, space, elements⟩ := clause
  cases name <;> cases space <;> simp [ImportClause.names, ImportClause.rename]

theorem Statement.imports_rename (statement : Statement κ) :
    (statement.rename f).imports (catalog.rename f) = statement.imports catalog := by
  rw [Statement.imports, Statement.imports, Catalog.isImport, Catalog.isImport, Statement.rename_kind,
    Catalog.plays_rename injective, Statement.rename_form]
  cases statement.form with
  | importFrom clause library =>
    cases clause with
    | none => rfl
    | some clause => simp [StatementForm.rename, ImportClause.names_rename]
  | _ => rfl

theorem SourceFile.imports_rename (file : SourceFile κ) :
    (file.rename f).imports (catalog.rename f) = file.imports catalog := by
  have each : (file.statements.map (Statement.rename f)).mapM (Statement.imports (catalog.rename f)) =
      file.statements.mapM (Statement.imports catalog) := by
    rw [List.mapM_map]
    congr 1
    funext statement
    exact Statement.imports_rename injective statement
  rw [SourceFile.imports, SourceFile.imports, SourceFile.rename_statements, each]

theorem SourceFile.importPath_rename (file : SourceFile κ) (name : String) :
    (file.rename f).importPath (catalog.rename f) name = file.importPath catalog name := by
  rw [SourceFile.importPath, SourceFile.importPath, SourceFile.imports_rename injective]

omit injective

mutual

theorem Expr.hands_rename (injective : Function.Injective f) (name : String) :
    (value : Expr κ) → (value.rename f).hands (catalog.rename f) name = value.hands catalog name
  | ⟨kind, text, .plain⟩ => by
    simp only [Expr.rename, ExprForm.rename, Expr.hands, Catalog.isIdentifier, Catalog.isParenthesized, Catalog.isCall,
      Catalog.plays_rename injective]
    rfl
  | ⟨kind, text, .object properties⟩ => by
    simp only [Expr.rename, ExprForm.rename, Expr.hands, Catalog.isIdentifier, Catalog.isParenthesized, Catalog.isCall,
      Catalog.plays_rename injective]
    rfl
  | ⟨kind, text, .access none token⟩ => by
    simp only [Expr.rename, ExprForm.rename, Expr.renameOption, Expr.hands, Catalog.isIdentifier,
      Catalog.isParenthesized, Catalog.isCall, Catalog.plays_rename injective]
    rfl
  | ⟨kind, text, .access (some inner) token⟩ => by
    simp only [Expr.rename, ExprForm.rename, Expr.renameOption, Expr.hands, Catalog.isIdentifier,
      Catalog.isParenthesized, Catalog.isCall, Catalog.plays_rename injective, Expr.hands_rename injective name inner]
    rfl
  | ⟨kind, text, .parenthesized none⟩ => by
    simp only [Expr.rename, ExprForm.rename, Expr.renameOption, Expr.hands, Catalog.isIdentifier,
      Catalog.isParenthesized, Catalog.isCall, Catalog.plays_rename injective]
    rfl
  | ⟨kind, text, .parenthesized (some inner)⟩ => by
    simp only [Expr.rename, ExprForm.rename, Expr.renameOption, Expr.hands, Catalog.isIdentifier,
      Catalog.isParenthesized, Catalog.isCall, Catalog.plays_rename injective, Expr.hands_rename injective name inner]
    rfl
  | ⟨kind, text, .call none arguments⟩ => by
    simp only [Expr.rename, ExprForm.rename, Expr.renameOption, Expr.hands, Catalog.isIdentifier,
      Catalog.isParenthesized, Catalog.isCall, Catalog.plays_rename injective,
      Expr.anyHands_rename injective name arguments]
    rfl
  | ⟨kind, text, .call (some callee) arguments⟩ => by
    simp only [Expr.rename, ExprForm.rename, Expr.renameOption, Expr.hands, Catalog.isIdentifier,
      Catalog.isParenthesized, Catalog.isCall, Catalog.plays_rename injective, Expr.rename_kind,
      Expr.hands_rename injective name callee, Expr.anyHands_rename injective name arguments]
    rfl

theorem Expr.anyHands_rename (injective : Function.Injective f) (name : String) : (values : List (Expr κ)) →
    Expr.anyHands (catalog.rename f) name (Expr.renameAll f values) = Expr.anyHands catalog name values
  | [] => rfl
  | first :: rest => by
    rw [Expr.renameAll, Expr.anyHands, Expr.anyHands, Expr.hands_rename injective name first,
      Expr.anyHands_rename injective name rest]

end

include injective

theorem Statement.exports_rename (name : String) (statement : Statement κ) :
    (statement.rename f).exports (catalog.rename f) name = statement.exports catalog name := by
  rw [Statement.exports, Statement.exports, Catalog.isExport, Catalog.isExport, Statement.rename_kind,
    Catalog.plays_rename injective, Statement.rename_form]
  cases statement.form with
  | exportValue value =>
    cases value with
    | none => rfl
    | some value => simp only [StatementForm.rename, Option.map_some, Expr.hands_rename injective name value]
  | exportNames names library => simp [StatementForm.rename, Function.comp_def]
  | _ => rfl

theorem Statement.anyExports_rename (name : String) (statements : List (Statement κ)) :
    Statement.anyExports (catalog.rename f) name (statements.map (Statement.rename f)) =
      Statement.anyExports catalog name statements := by
  induction statements with
  | nil => rfl
  | cons first rest ih =>
    rw [List.map_cons, Statement.anyExports, Statement.anyExports, Statement.exports_rename injective, ih]

theorem SourceFile.exports_rename (file : SourceFile κ) (name : String) :
    (file.rename f).exports (catalog.rename f) name = file.exports catalog name := by
  rw [SourceFile.exports, SourceFile.exports, SourceFile.rename_statements, Statement.anyExports_rename injective]

def MemberSource.rename (f : κ → κ') : MemberSource κ → MemberSource κ'
  | .interface members bases => .interface (members.map (Member.rename f)) bases
  | .object members => .object (members.map (Member.rename f))

omit [DecidableEq κ] [DecidableEq κ'] injective in
theorem baseNames_rename (heritage : List (HeritageClause κ)) :
    baseNames (heritage.map (HeritageClause.rename f)) = baseNames heritage := by
  have sameName : HeritageEntry.baseName ∘ HeritageEntry.rename f = HeritageEntry.baseName := by
    funext entry
    rw [Function.comp_apply, HeritageEntry.baseName, HeritageEntry.baseName, HeritageEntry.rename]
    cases entry.base <;> simp
  simp [baseNames, List.flatMap_map, HeritageClause.rename, sameName]

theorem Statement.memberSource?_rename (statement : Statement κ) :
    (statement.rename f).memberSource? (catalog.rename f) =
      (statement.memberSource? catalog).map (Option.map (MemberSource.rename f)) := by
  rw [Statement.memberSource?, Statement.memberSource?, Catalog.isInterface, Catalog.isInterface, Catalog.isTypeAlias,
    Catalog.isTypeAlias, Statement.rename_kind, Catalog.plays_rename injective, Catalog.plays_rename injective,
    Statement.rename_form]
  by_cases declares : catalog.plays [.interfaceDeclaration] statement.kind
  · rw [if_pos declares, if_pos declares]
    cases statement.form with
    | interface name heritage members =>
      dsimp only [StatementForm.rename]
      rw [baseNames_rename]
      rfl
    | classOf name heritage members =>
      dsimp only [StatementForm.rename]
      rw [baseNames_rename]
      rfl
    | _ => rfl
  rw [if_neg declares, if_neg declares]
  by_cases typed : catalog.plays [.typeAlias] statement.kind
  · rw [if_pos typed, if_pos typed]
    cases statement.form with
    | typeAlias name type =>
      cases type with
      | none => rfl
      | some type =>
        dsimp only [StatementForm.rename, Option.map_some]
        rw [Catalog.isObjectType, Catalog.isObjectType, TypeNode.rename_kind, Catalog.plays_rename injective,
          TypeNode.rename_members]
        by_cases object : catalog.plays [.objectType] type.kind
        · rw [if_pos object, if_pos object]
          rfl
        · rw [if_neg object, if_neg object]
          rfl
    | _ => rfl
  · rw [if_neg typed, if_neg typed]
    rfl

omit [DecidableEq κ] [DecidableEq κ'] injective in
theorem Statement.name?_rename (statement : Statement κ) :
    (statement.rename f).name? = statement.name?.map (Token.rename f) := by
  rw [Statement.name?, Statement.name?, Statement.rename_form]
  cases statement.form <;> rfl

theorem Statement.findMembers_rename (name : String) (statements : List (Statement κ)) :
    Statement.findMembers (catalog.rename f) name (statements.map (Statement.rename f)) =
      (Statement.findMembers catalog name statements).map (Option.map (MemberSource.rename f)) := by
  induction statements with
  | nil => rfl
  | cons first rest ih =>
    have sameName : ((first.rename f).name?.any fun token => token.text == name) =
        first.name?.any fun token => token.text == name := by
      rw [Statement.name?_rename, Option.any_map]
      rfl
    rw [List.map_cons, Statement.findMembers, Statement.findMembers, sameName, Statement.memberSource?_rename injective,
      ih]
    by_cases named : first.name?.any fun token => token.text == name
    · rw [if_pos named, if_pos named]
      rcases first.memberSource? catalog with problem | _ | source <;> rfl
    · rw [if_neg named, if_neg named]

omit [DecidableEq κ] [DecidableEq κ'] injective in
theorem Member.occursIn_rename (member : Member κ) (members : List (Member κ)) :
    (member.rename f).occursIn (members.map (Member.rename f)) = member.occursIn members := by
  rw [Member.occursIn, Member.occursIn, Member.rename_name]
  cases member.name with
  | none => rfl
  | some name =>
    dsimp only [Option.map_some]
    rw [List.any_map]
    congr 1
    funext other
    rw [Function.comp_apply, Member.rename_name, Option.any_map]
    rfl

omit [DecidableEq κ] [DecidableEq κ'] injective in
theorem absorb_rename (members inherited : List (Member κ)) :
    absorb (members.map (Member.rename f)) (inherited.map (Member.rename f)) =
      (absorb members inherited).map (Member.rename f) := by
  induction inherited generalizing members with
  | nil => rfl
  | cons first rest ih =>
    rw [absorb, absorb, List.map_cons, List.foldl_cons, List.foldl_cons, Member.occursIn_rename]
    by_cases known : first.occursIn members
    · rw [if_pos known, if_pos known]
      exact ih members
    · rw [if_neg known, if_neg known, ← List.map_singleton, ← List.map_append]
      exact ih (members ++ [first])

theorem SourceFile.localMembers_rename (file : SourceFile κ) (imports : Bindings String String) (depth : Nat)
    (name : String) (visited : List String) :
    Agree (fun found found' => found' = (found.1.map (Member.rename f), found.2))
      (file.localMembers catalog imports depth name visited)
      ((file.rename f).localMembers (catalog.rename f) imports depth name visited) := by
  induction depth generalizing name visited with
  | zero => exact .ok rfl
  | succ depth ih =>
    rw [SourceFile.localMembers, SourceFile.localMembers, SourceFile.rename_statements,
      Statement.findMembers_rename injective]
    by_cases seen : name ∈ visited
    · rw [if_pos seen, if_pos seen]
      exact .ok rfl
    rw [if_neg seen, if_neg seen]
    rcases Statement.findMembers catalog name file.statements with problem | _ | ⟨members, bases⟩ | members
    · exact .error problem
    · exact .ok rfl
    · refine Agree.foldlM ?_ ?_
      · rfl
      apply List.forall₂_same.mpr
      rintro base _ ⟨members, visited⟩ _ rfl
      apply (ih base visited).bind
      rintro ⟨inherited, later⟩ _ rfl
      exact .ok (Prod.ext (absorb_rename members inherited) rfl)
    · exact .ok rfl

theorem SourceFile.membersOf_rename (file : SourceFile κ) (name : String) :
    Agree (fun members members' => members' = members.map (Member.rename f)) (file.membersOf catalog name)
      ((file.rename f).membersOf (catalog.rename f) name) := by
  rw [SourceFile.membersOf, SourceFile.membersOf, SourceFile.imports_rename injective, SourceFile.rename_statements,
    List.length_map]
  apply (Agree.refl (file.imports catalog)).bind
  rintro table _ rfl
  by_cases own : (((table.get? name).getD "") == "") = true
  · rw [if_pos own, if_pos own]
    apply (SourceFile.localMembers_rename injective file table (file.statements.length + 2) name []).bind
    rintro ⟨members, visited⟩ _ rfl
    exact .ok rfl
  · rw [if_neg own, if_neg own]
    exact .ok rfl

end ComponentDocs
