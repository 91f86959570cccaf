import ComponentDocs.Syntax.Catalog

namespace ComponentDocs

variable {κ κ' : Type} (f : κ → κ')

/-- A role without a kind stays without one. -/
def Catalog.rename (catalog : Catalog κ) : Catalog κ' := fun role => (catalog role).map f

def Token.rename (token : Token κ) : Token κ' := ⟨f token.kind, token.text⟩

def DocComment.rename (doc : DocComment κ) : DocComment κ' := ⟨f doc.kind, doc.text⟩

mutual

def Expr.rename : Expr κ → Expr κ'
  | ⟨kind, text, form⟩ => ⟨f kind, text, form.rename⟩

def ExprForm.rename : ExprForm κ → ExprForm κ'
  | .plain => .plain
  | .access object name => .access (Expr.renameOption object) (name.map (Token.rename f))
  | .parenthesized inner => .parenthesized (Expr.renameOption inner)
  | .call callee arguments => .call (Expr.renameOption callee) (Expr.renameAll arguments)
  | .object properties => .object (Property.renameAll properties)

def Expr.renameOption : Option (Expr κ) → Option (Expr κ')
  | none => none
  | some value => some value.rename

def Expr.renameAll : List (Expr κ) → List (Expr κ')
  | [] => []
  | value :: rest => value.rename :: Expr.renameAll rest

def Property.rename : Property κ → Property κ'
  | ⟨kind, name, value⟩ => ⟨f kind, name.map (Token.rename f), Expr.renameOption value⟩

def Property.renameAll : List (Property κ) → List (Property κ')
  | [] => []
  | property :: rest => property.rename :: Property.renameAll rest

end

mutual

def TypeNode.rename : TypeNode κ → TypeNode κ'
  | ⟨kind, name, branches, literal, parameters, result, members, text⟩ =>
    ⟨f kind, name, TypeNode.renameBranches branches, literal.map (Expr.rename f), Parameter.renameAll parameters,
      TypeNode.renameOption result, Member.renameAll members, text⟩

def TypeNode.renameOption : Option (TypeNode κ) → Option (TypeNode κ')
  | none => none
  | some type => some type.rename

def TypeNode.renameBranches : List (Option (TypeNode κ)) → List (Option (TypeNode κ'))
  | [] => []
  | branch :: rest => TypeNode.renameOption branch :: TypeNode.renameBranches rest

def Parameter.rename : Parameter κ → Parameter κ'
  | ⟨kind, name, type, optional⟩ => ⟨f kind, name.map (Token.rename f), TypeNode.renameOption type, optional⟩

def Parameter.renameAll : List (Parameter κ) → List (Parameter κ')
  | [] => []
  | parameter :: rest => parameter.rename :: Parameter.renameAll rest

def Member.rename : Member κ → Member κ'
  | ⟨kind, name, type, optional, modifiers, value, docs⟩ =>
    ⟨f kind, name.map (Token.rename f), TypeNode.renameOption type, optional, modifiers.map (Token.rename f),
      value.map (Expr.rename f), docs.map (DocComment.rename f)⟩

def Member.renameAll : List (Member κ) → List (Member κ')
  | [] => []
  | member :: rest => member.rename :: Member.renameAll rest

end

def HeritageEntry.rename (entry : HeritageEntry κ) : HeritageEntry κ' :=
  ⟨f entry.kind, entry.base.map (Expr.rename f), TypeNode.renameBranches f entry.arguments⟩

def HeritageClause.rename (clause : HeritageClause κ) : HeritageClause κ' :=
  ⟨f clause.kind, clause.entries.map (HeritageEntry.rename f)⟩

def ImportClause.rename (clause : ImportClause κ) : ImportClause κ' :=
  ⟨f clause.kind, clause.name.map (Token.rename f), clause.space.map (Token.rename f),
    clause.elements.map (Token.rename f)⟩

mutual

def Statement.rename : Statement κ → Statement κ'
  | ⟨kind, docs, modifiers, form⟩ =>
    ⟨f kind, docs.map (DocComment.rename f), modifiers.map (Token.rename f), form.rename⟩

def StatementForm.rename : StatementForm κ → StatementForm κ'
  | .plain => .plain
  | .classOf name heritage members =>
    .classOf (name.map (Token.rename f)) (heritage.map (HeritageClause.rename f)) (members.map (Member.rename f))
  | .function name parameters body =>
    .function (name.map (Token.rename f)) (parameters.map (Parameter.rename f)) (Block.renameOption body)
  | .interface name heritage members =>
    .interface (name.map (Token.rename f)) (heritage.map (HeritageClause.rename f)) (members.map (Member.rename f))
  | .typeAlias name type => .typeAlias (name.map (Token.rename f)) (type.map (TypeNode.rename f))
  | .importFrom clause library => .importFrom (clause.map (ImportClause.rename f)) library
  | .exportValue value => .exportValue (value.map (Expr.rename f))
  | .exportNames names library => .exportNames (names.map (Token.rename f)) library
  | .returning value => .returning (value.map (Expr.rename f))
  | .expression value => .expression (value.map (Expr.rename f))

def Block.renameOption : Option (Block κ) → Option (Block κ')
  | none => none
  | some ⟨kind, statements⟩ => some ⟨f kind, Statement.renameAll statements⟩

def Statement.renameAll : List (Statement κ) → List (Statement κ')
  | [] => []
  | statement :: rest => statement.rename :: Statement.renameAll rest

end

def SourceFile.rename (file : SourceFile κ) : SourceFile κ' :=
  ⟨f file.kind, file.statements.map (Statement.rename f), file.fileName⟩

@[simp] theorem Expr.renameOption_eq (value : Option (Expr κ)) :
    Expr.renameOption f value = value.map (Expr.rename f) := by
  cases value <;> rfl

@[simp] theorem Property.renameAll_eq (properties : List (Property κ)) :
    Property.renameAll f properties = properties.map (Property.rename f) := by
  induction properties with
  | nil => rfl
  | cons property rest ih => rw [Property.renameAll, ih, List.map_cons]

@[simp] theorem TypeNode.renameOption_eq (type : Option (TypeNode κ)) :
    TypeNode.renameOption f type = type.map (TypeNode.rename f) := by
  cases type <;> rfl

@[simp] theorem TypeNode.renameBranches_eq (branches : List (Option (TypeNode κ))) :
    TypeNode.renameBranches f branches = branches.map (Option.map (TypeNode.rename f)) := by
  induction branches with
  | nil => rfl
  | cons branch rest ih => rw [TypeNode.renameBranches, ih, TypeNode.renameOption_eq, List.map_cons]

@[simp] theorem Parameter.renameAll_eq (parameters : List (Parameter κ)) :
    Parameter.renameAll f parameters = parameters.map (Parameter.rename f) := by
  induction parameters with
  | nil => rfl
  | cons parameter rest ih => rw [Parameter.renameAll, ih, List.map_cons]

@[simp] theorem Member.renameAll_eq (members : List (Member κ)) :
    Member.renameAll f members = members.map (Member.rename f) := by
  induction members with
  | nil => rfl
  | cons member rest ih => rw [Member.renameAll, ih, List.map_cons]

@[simp] theorem Statement.renameAll_eq (statements : List (Statement κ)) :
    Statement.renameAll f statements = statements.map (Statement.rename f) := by
  induction statements with
  | nil => rfl
  | cons statement rest ih => rw [Statement.renameAll, ih, List.map_cons]

@[simp] theorem Token.rename_text (token : Token κ) : (token.rename f).text = token.text := rfl

@[simp] theorem Expr.rename_kind (value : Expr κ) : (value.rename f).kind = f value.kind := by
  cases value
  rfl

@[simp] theorem Expr.rename_text (value : Expr κ) : (value.rename f).text = value.text := by
  cases value
  rfl

@[simp] theorem Expr.rename_form (value : Expr κ) : (value.rename f).form = value.form.rename f := by
  cases value
  rfl

@[simp] theorem Property.rename_name (property : Property κ) :
    (property.rename f).name = property.name.map (Token.rename f) := by
  cases property
  rfl

@[simp] theorem Property.rename_value (property : Property κ) :
    (property.rename f).value = property.value.map (Expr.rename f) := by
  cases property
  exact Expr.renameOption_eq f _

@[simp] theorem TypeNode.rename_kind (type : TypeNode κ) : (type.rename f).kind = f type.kind := by
  cases type
  rfl

@[simp] theorem TypeNode.rename_name (type : TypeNode κ) : (type.rename f).name = type.name := by
  cases type
  rfl

@[simp] theorem TypeNode.rename_literal (type : TypeNode κ) :
    (type.rename f).literal = type.literal.map (Expr.rename f) := by
  cases type
  rfl

@[simp] theorem TypeNode.rename_branches (type : TypeNode κ) :
    (type.rename f).branches = type.branches.map (Option.map (TypeNode.rename f)) := by
  cases type
  exact TypeNode.renameBranches_eq f _

@[simp] theorem TypeNode.rename_parameters (type : TypeNode κ) :
    (type.rename f).parameters = type.parameters.map (Parameter.rename f) := by
  cases type
  exact Parameter.renameAll_eq f _

@[simp] theorem TypeNode.rename_result (type : TypeNode κ) :
    (type.rename f).result = type.result.map (TypeNode.rename f) := by
  cases type
  exact TypeNode.renameOption_eq f _

@[simp] theorem TypeNode.rename_members (type : TypeNode κ) :
    (type.rename f).members = type.members.map (Member.rename f) := by
  cases type
  exact Member.renameAll_eq f _

@[simp] theorem Parameter.rename_name (parameter : Parameter κ) :
    (parameter.rename f).name = parameter.name.map (Token.rename f) := by
  cases parameter
  rfl

@[simp] theorem Parameter.rename_type (parameter : Parameter κ) :
    (parameter.rename f).type = parameter.type.map (TypeNode.rename f) := by
  cases parameter
  exact TypeNode.renameOption_eq f _

@[simp] theorem Member.rename_kind (member : Member κ) : (member.rename f).kind = f member.kind := by
  cases member
  rfl

@[simp] theorem Member.rename_name (member : Member κ) :
    (member.rename f).name = member.name.map (Token.rename f) := by
  cases member
  rfl

@[simp] theorem Member.rename_type (member : Member κ) :
    (member.rename f).type = member.type.map (TypeNode.rename f) := by
  cases member
  exact TypeNode.renameOption_eq f _

@[simp] theorem Member.rename_optional (member : Member κ) : (member.rename f).optional = member.optional := by
  cases member
  rfl

@[simp] theorem Member.rename_modifiers (member : Member κ) :
    (member.rename f).modifiers = member.modifiers.map (Token.rename f) := by
  cases member
  rfl

@[simp] theorem Member.rename_value (member : Member κ) :
    (member.rename f).value = member.value.map (Expr.rename f) := by
  cases member
  rfl

@[simp] theorem Member.rename_docs (member : Member κ) :
    (member.rename f).docs = member.docs.map (DocComment.rename f) := by
  cases member
  rfl

@[simp] theorem Statement.rename_kind (statement : Statement κ) : (statement.rename f).kind = f statement.kind := by
  cases statement
  rfl

@[simp] theorem Statement.rename_docs (statement : Statement κ) :
    (statement.rename f).docs = statement.docs.map (DocComment.rename f) := by
  cases statement
  rfl

@[simp] theorem Statement.rename_modifiers (statement : Statement κ) :
    (statement.rename f).modifiers = statement.modifiers.map (Token.rename f) := by
  cases statement
  rfl

@[simp] theorem Statement.rename_form (statement : Statement κ) :
    (statement.rename f).form = statement.form.rename f := by
  cases statement
  rfl

@[simp] theorem SourceFile.rename_statements (file : SourceFile κ) :
    (file.rename f).statements = file.statements.map (Statement.rename f) := rfl

@[simp] theorem docText_rename (docs : List (DocComment κ)) :
    docText (docs.map (DocComment.rename f)) = docText docs := by
  rw [docText, docText, List.map_map]
  rfl

end ComponentDocs
