import ComponentDocs.Syntax.Node

/-! Syntax seen through a view of its doc comments. The view that shows none of them leaves what a program says apart
from its documentation. -/

namespace ComponentDocs

variable {κ : Type}

mutual

def TypeNode.mapDocs (view : List (DocComment κ) → List (DocComment κ)) : TypeNode κ → TypeNode κ
  | ⟨kind, name, branches, literal, parameters, result, members, text⟩ =>
    ⟨kind, name, TypeNode.mapDocsBranches view branches, literal, Parameter.mapDocsAll view parameters,
      TypeNode.mapDocsOption view result, Member.mapDocsAll view members, text⟩

def TypeNode.mapDocsOption (view : List (DocComment κ) → List (DocComment κ)) :
    Option (TypeNode κ) → Option (TypeNode κ)
  | none => none
  | some type => some (type.mapDocs view)

def TypeNode.mapDocsBranches (view : List (DocComment κ) → List (DocComment κ)) :
    List (Option (TypeNode κ)) → List (Option (TypeNode κ))
  | [] => []
  | branch :: rest => TypeNode.mapDocsOption view branch :: TypeNode.mapDocsBranches view rest

def Parameter.mapDocs (view : List (DocComment κ) → List (DocComment κ)) : Parameter κ → Parameter κ
  | ⟨kind, name, type, optional⟩ => ⟨kind, name, TypeNode.mapDocsOption view type, optional⟩

def Parameter.mapDocsAll (view : List (DocComment κ) → List (DocComment κ)) :
    List (Parameter κ) → List (Parameter κ)
  | [] => []
  | parameter :: rest => parameter.mapDocs view :: Parameter.mapDocsAll view rest

def Member.mapDocs (view : List (DocComment κ) → List (DocComment κ)) : Member κ → Member κ
  | ⟨kind, name, type, optional, modifiers, value, docs⟩ =>
    ⟨kind, name, TypeNode.mapDocsOption view type, optional, modifiers, value, view docs⟩

def Member.mapDocsAll (view : List (DocComment κ) → List (DocComment κ)) : List (Member κ) → List (Member κ)
  | [] => []
  | member :: rest => member.mapDocs view :: Member.mapDocsAll view rest

end

def HeritageEntry.mapDocs (view : List (DocComment κ) → List (DocComment κ)) (entry : HeritageEntry κ) :
    HeritageEntry κ :=
  { entry with arguments := TypeNode.mapDocsBranches view entry.arguments }

def HeritageClause.mapDocs (view : List (DocComment κ) → List (DocComment κ)) (clause : HeritageClause κ) :
    HeritageClause κ :=
  { clause with entries := clause.entries.map (HeritageEntry.mapDocs view) }

mutual

def Statement.mapDocs (view : List (DocComment κ) → List (DocComment κ)) : Statement κ → Statement κ
  | ⟨kind, docs, modifiers, form⟩ => ⟨kind, view docs, modifiers, form.mapDocs view⟩

def StatementForm.mapDocs (view : List (DocComment κ) → List (DocComment κ)) : StatementForm κ → StatementForm κ
  | .classOf name heritage members =>
    .classOf name (heritage.map (HeritageClause.mapDocs view)) (Member.mapDocsAll view members)
  | .function name parameters body =>
    .function name (Parameter.mapDocsAll view parameters) (Block.mapDocsOption view body)
  | .interface name heritage members =>
    .interface name (heritage.map (HeritageClause.mapDocs view)) (Member.mapDocsAll view members)
  | .typeAlias name type => .typeAlias name (TypeNode.mapDocsOption view type)
  | form => form

def Block.mapDocsOption (view : List (DocComment κ) → List (DocComment κ)) : Option (Block κ) → Option (Block κ)
  | none => none
  | some ⟨kind, statements⟩ => some ⟨kind, Statement.mapDocsAll view statements⟩

def Statement.mapDocsAll (view : List (DocComment κ) → List (DocComment κ)) : List (Statement κ) → List (Statement κ)
  | [] => []
  | statement :: rest => statement.mapDocs view :: Statement.mapDocsAll view rest

end

def SourceFile.mapDocs (view : List (DocComment κ) → List (DocComment κ)) (file : SourceFile κ) : SourceFile κ :=
  { file with statements := Statement.mapDocsAll view file.statements }

def SourceFile.withoutDocs (file : SourceFile κ) : SourceFile κ := file.mapDocs fun _ => []

mutual

theorem TypeNode.mapDocs_id : (type : TypeNode κ) → type.mapDocs (fun docs => docs) = type
  | ⟨kind, name, branches, literal, parameters, result, members, text⟩ => by
    rw [TypeNode.mapDocs, TypeNode.mapDocsBranches_id branches, Parameter.mapDocsAll_id parameters,
      TypeNode.mapDocsOption_id result, Member.mapDocsAll_id members]

theorem TypeNode.mapDocsOption_id : (type : Option (TypeNode κ)) → TypeNode.mapDocsOption (fun docs => docs) type = type
  | none => rfl
  | some type => by rw [TypeNode.mapDocsOption, TypeNode.mapDocs_id type]

theorem TypeNode.mapDocsBranches_id :
    (branches : List (Option (TypeNode κ))) → TypeNode.mapDocsBranches (fun docs => docs) branches = branches
  | [] => rfl
  | branch :: rest => by
    rw [TypeNode.mapDocsBranches, TypeNode.mapDocsOption_id branch, TypeNode.mapDocsBranches_id rest]

theorem Parameter.mapDocs_id : (parameter : Parameter κ) → parameter.mapDocs (fun docs => docs) = parameter
  | ⟨kind, name, type, optional⟩ => by rw [Parameter.mapDocs, TypeNode.mapDocsOption_id type]

theorem Parameter.mapDocsAll_id :
    (parameters : List (Parameter κ)) → Parameter.mapDocsAll (fun docs => docs) parameters = parameters
  | [] => rfl
  | parameter :: rest => by rw [Parameter.mapDocsAll, Parameter.mapDocs_id parameter, Parameter.mapDocsAll_id rest]

theorem Member.mapDocs_id : (member : Member κ) → member.mapDocs (fun docs => docs) = member
  | ⟨kind, name, type, optional, modifiers, value, docs⟩ => by rw [Member.mapDocs, TypeNode.mapDocsOption_id type]

theorem Member.mapDocsAll_id : (members : List (Member κ)) → Member.mapDocsAll (fun docs => docs) members = members
  | [] => rfl
  | member :: rest => by rw [Member.mapDocsAll, Member.mapDocs_id member, Member.mapDocsAll_id rest]

end

theorem HeritageEntry.mapDocs_id (entry : HeritageEntry κ) : entry.mapDocs (fun docs => docs) = entry := by
  rw [HeritageEntry.mapDocs, TypeNode.mapDocsBranches_id]

theorem HeritageClause.mapDocs_id (clause : HeritageClause κ) : clause.mapDocs (fun docs => docs) = clause := by
  have entries : clause.entries.map (HeritageEntry.mapDocs fun docs => docs) = clause.entries :=
    List.map_id'' HeritageEntry.mapDocs_id clause.entries
  rw [HeritageClause.mapDocs, entries]

theorem HeritageClause.map_mapDocs_id (heritage : List (HeritageClause κ)) :
    heritage.map (HeritageClause.mapDocs fun docs => docs) = heritage :=
  List.map_id'' HeritageClause.mapDocs_id heritage

mutual

theorem Statement.mapDocs_id : (statement : Statement κ) → statement.mapDocs (fun docs => docs) = statement
  | ⟨kind, docs, modifiers, form⟩ => by rw [Statement.mapDocs, StatementForm.mapDocs_id form]

theorem StatementForm.mapDocs_id : (form : StatementForm κ) → form.mapDocs (fun docs => docs) = form
  | .classOf name heritage members => by
    rw [StatementForm.mapDocs, HeritageClause.map_mapDocs_id, Member.mapDocsAll_id]
  | .function name parameters body => by
    rw [StatementForm.mapDocs, Parameter.mapDocsAll_id, Block.mapDocsOption_id body]
  | .interface name heritage members => by
    rw [StatementForm.mapDocs, HeritageClause.map_mapDocs_id, Member.mapDocsAll_id]
  | .typeAlias name type => by rw [StatementForm.mapDocs, TypeNode.mapDocsOption_id]
  | .plain => rfl
  | .importFrom _ _ => rfl
  | .exportValue _ => rfl
  | .exportNames _ _ => rfl
  | .returning _ => rfl
  | .expression _ => rfl

theorem Block.mapDocsOption_id : (block : Option (Block κ)) → Block.mapDocsOption (fun docs => docs) block = block
  | none => rfl
  | some ⟨kind, statements⟩ => by rw [Block.mapDocsOption, Statement.mapDocsAll_id statements]

theorem Statement.mapDocsAll_id :
    (statements : List (Statement κ)) → Statement.mapDocsAll (fun docs => docs) statements = statements
  | [] => rfl
  | statement :: rest => by rw [Statement.mapDocsAll, Statement.mapDocs_id statement, Statement.mapDocsAll_id rest]

end

theorem SourceFile.mapDocs_id (file : SourceFile κ) : file.mapDocs (fun docs => docs) = file := by
  rw [SourceFile.mapDocs, Statement.mapDocsAll_id]

end ComponentDocs
