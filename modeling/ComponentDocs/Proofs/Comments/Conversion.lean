import ComponentDocs.Conversion.Statement
import ComponentDocs.Proofs.Agreement
import ComponentDocs.Proofs.Comments.DocsView
import ComponentDocs.Proofs.Comments.Insertion

/-! Comments put into a tree change nothing in the file that is read from it but doc comments. All is said through a
view of doc comments that does not show those that were put in: the view may show none at all, or all if those that were
put in are no doc comments. -/

namespace ComponentDocs.Conversion

open Utf8 (Bytes)
open ComponentDocs.Tree (Commented CommentedAll)

/-- A view that does not show the doc comments among inserted nodes. -/
def Hides (source : Bytes) (view : List (DocComment Kind) → List (DocComment Kind)) (inserted : Tree → Prop) : Prop :=
  ∀ comment, inserted comment → ∀ before after,
    view (before ++ (docComment? source comment).toList ++ after) = view (before ++ after)

def SeenAlike (view : List (DocComment Kind) → List (DocComment Kind)) (docs docs' : List (DocComment Kind)) : Prop :=
  ∀ more, view (docs ++ more) = view (docs' ++ more)

variable {source : Bytes} {view : List (DocComment Kind) → List (DocComment Kind)} {inserted : Tree → Prop}

namespace SeenAlike

theorem refl (docs : List (DocComment Kind)) : SeenAlike view docs docs := fun _ => rfl

variable {docs docs' : List (DocComment Kind)}

theorem view_eq (alike : SeenAlike view docs docs') : view docs = view docs' := by
  have same := alike []
  rwa [List.append_nil, List.append_nil] at same

theorem append (alike : SeenAlike view docs docs') (next : List (DocComment Kind)) :
    SeenAlike view (docs ++ next) (docs' ++ next) := by
  intro more
  rw [List.append_assoc, List.append_assoc]
  exact alike (next ++ more)

theorem insert (alike : SeenAlike view docs docs') (hides : Hides source view inserted) {comment : Tree}
    (new : inserted comment) : SeenAlike view docs (docs' ++ (docComment? source comment).toList) := by
  intro more
  rw [hides comment new docs' more]
  exact alike more

end SeenAlike

theorem modifiers_commented (source : Bytes) {free : Bool} {plain commented : List Tree}
    (spread : CommentedAll inserted free plain commented) : modifiers source commented = modifiers source plain := by
  have same : ∀ plain commented, Commented inserted plain commented → isModifier commented = isModifier plain := by
    intro plain commented here
    rw [isModifier, isModifier, here.kind]
  refine Tree.map_eq_of_forall₂ ?_ (spread.filter same (fun _ _ => rfl))
  intro plain commented here
  rw [here.kind, here.text]

theorem optionMark_commented {free : Bool} {plain commented : List Tree}
    (spread : CommentedAll inserted free plain commented) : commented.any isOptionMark = plain.any isOptionMark := by
  induction commented generalizing plain free with
  | nil =>
    cases spread
    rfl
  | cons first rest ih =>
    cases spread with
    | keep here later => rw [List.any_cons, List.any_cons, ih later, isOptionMark, isOptionMark, here.kind]
    | insert _ later => exact ih later

theorem head?_kind_commented {plain commented : List Tree} (spread : CommentedAll inserted false plain commented) :
    commented.head?.map (·.kind) = plain.head?.map (·.kind) := by
  cases spread with
  | nil => rfl
  | keep here _ => exact congrArg some here.kind

theorem mapDocsBranches_append (first second : List (Option (TypeNode Kind))) :
    TypeNode.mapDocsBranches view (first ++ second) =
      TypeNode.mapDocsBranches view first ++ TypeNode.mapDocsBranches view second := by
  induction first with
  | nil => rfl
  | cons branch rest ih =>
    rw [List.cons_append, TypeNode.mapDocsBranches, ih, TypeNode.mapDocsBranches, List.cons_append]

mutual

theorem type_commented (hides : Hides source view inserted) :
    (commented : Tree) → {plain : Tree} → Commented inserted plain commented →
      Agree (fun a b => TypeNode.mapDocsOption view a = TypeNode.mapDocsOption view b)
        (type source plain) (type source commented)
  | ⟨kind, field, start, stop, commented⟩, _, @Commented.node _ _ _ _ _ plain _ children => by
    rw [type, type]
    cases sort : TypeSort.of kind.name with
    | wrapper => exact typeContent_commented hides commented children
    | predefined =>
      have closed : (kind.name != "predefined_type") = false := by
        unfold TypeSort.of at sort
        split at sort <;> simp_all
      rw [closed] at children
      rw [head?_kind_commented children]
      exact .ok rfl
    | reference => exact .ok rfl
    | generic =>
      have name := Tree.rel_or (children.field? "name") children.content?
      dsimp only
      generalize (Tree.field? "name" plain).or (Tree.content? plain) = left at name ⊢
      generalize (Tree.field? "name" commented).or (Tree.content? commented) = right at name ⊢
      cases name with
      | none => exact .error _
      | some here =>
        dsimp only
        rw [here.text]
        exact .ok rfl
    | union =>
      refine (unionBranches_commented hides commented children).bind ?_
      intro branches branches' same
      refine .pure ?_
      simp only [TypeNode.mapDocsOption, TypeNode.mapDocs, same]
    | function =>
      refine (parametersField_commented hides commented children).bind ?_
      intro parameters parameters' same
      refine (typeField_commented hides "return_type" commented children).bind ?_
      intro result result' sameResult
      refine .pure ?_
      simp only [functionType, TypeNode.mapDocsOption, TypeNode.mapDocs, same, sameResult]
    | literal =>
      have inner := map_eq_of_rel (fun _ _ => literal_commented source) children.content?
      dsimp only
      rw [inner]
      exact .ok rfl
    | object =>
      refine (members_commented hides (SeenAlike.refl []) commented children).bind ?_
      intro members members' same
      refine .pure ?_
      simp only [TypeNode.mapDocsOption, TypeNode.mapDocs, same]
    | other => exact .ok rfl
termination_by structural commented => commented

theorem typeContent_commented (hides : Hides source view inserted) :
    (commented : List Tree) → {plain : List Tree} → {free : Bool} → CommentedAll inserted free plain commented →
      Agree (fun a b => TypeNode.mapDocsOption view a = TypeNode.mapDocsOption view b)
        (typeContent source plain) (typeContent source commented)
  | [], _, _, .nil => .ok rfl
  | first :: rest, _, _, .keep here later => by
    rw [typeContent, typeContent, here.isContent]
    split
    · exact type_commented hides first here
    · exact typeContent_commented hides rest later
  | _ :: rest, _, _, .insert _ later => by
    have skipped := typeContent_commented hides rest later
    exact skipped
termination_by structural commented => commented

theorem typeField_commented (hides : Hides source view inserted) (name : String) :
    (commented : List Tree) → {plain : List Tree} → {free : Bool} → CommentedAll inserted free plain commented →
      Agree (fun a b => TypeNode.mapDocsOption view a = TypeNode.mapDocsOption view b)
        (typeField source name plain) (typeField source name commented)
  | [], _, _, .nil => .ok rfl
  | first :: rest, _, _, .keep here later => by
    rw [typeField, typeField, here.fills]
    split
    · exact type_commented hides first here
    · exact typeField_commented hides name rest later
  | _ :: rest, _, _, .insert _ later => by
    have skipped := typeField_commented hides name rest later
    exact skipped
termination_by structural commented => commented

theorem unionBranches_commented (hides : Hides source view inserted) :
    (commented : List Tree) → {plain : List Tree} → {free : Bool} → CommentedAll inserted free plain commented →
      Agree (fun a b => TypeNode.mapDocsBranches view a = TypeNode.mapDocsBranches view b)
        (unionBranches source plain) (unionBranches source commented)
  | [], _, _, .nil => .ok rfl
  | ⟨_, _, _, _, inside⟩ :: rest, _, _, .keep (.node children) later => by
    have others := unionBranches_commented hides rest later
    rw [unionBranches, unionBranches]
    split
    · refine (unionBranches_commented hides inside children).bind ?_
      intro inner inner' same
      refine others.bind ?_
      intro rest rest' sameRest
      refine .pure ?_
      rw [mapDocsBranches_append, mapDocsBranches_append, same, sameRest]
    split
    · refine (type_commented hides _ (.node children)).bind ?_
      intro branch branch' same
      refine others.bind ?_
      intro rest rest' sameRest
      refine .pure ?_
      rw [TypeNode.mapDocsBranches, TypeNode.mapDocsBranches, same, sameRest]
    · exact others
  | _ :: rest, _, _, .insert _ later => by
    have skipped := unionBranches_commented hides rest later
    exact skipped
termination_by structural commented => commented

theorem parametersField_commented (hides : Hides source view inserted) :
    (commented : List Tree) → {plain : List Tree} → {free : Bool} → CommentedAll inserted free plain commented →
      Agree (fun a b => Parameter.mapDocsAll view a = Parameter.mapDocsAll view b)
        (parametersField source plain) (parametersField source commented)
  | [], _, _, .nil => .ok rfl
  | ⟨_, _, _, _, inside⟩ :: rest, _, _, .keep (.node children) later => by
    rw [parametersField, parametersField]
    split
    · exact parameters_commented hides inside children
    · exact parametersField_commented hides rest later
  | _ :: rest, _, _, .insert _ later => by
    have skipped := parametersField_commented hides rest later
    exact skipped
termination_by structural commented => commented

theorem parameters_commented (hides : Hides source view inserted) :
    (commented : List Tree) → {plain : List Tree} → {free : Bool} → CommentedAll inserted free plain commented →
      Agree (fun a b => Parameter.mapDocsAll view a = Parameter.mapDocsAll view b)
        (parameters source plain) (parameters source commented)
  | [], _, _, .nil => .ok rfl
  | ⟨_, _, _, _, inside⟩ :: rest, _, _, .keep (.node children) later => by
    rw [parameters, parameters]
    split
    · refine (typeField_commented hides "type" inside children).bind ?_
      intro type type' same
      refine (parameters_commented hides rest later).bind ?_
      intro others others' sameOthers
      refine .pure ?_
      rw [Parameter.mapDocsAll, Parameter.mapDocsAll, Parameter.mapDocs, Parameter.mapDocs, same, sameOthers,
        tokenField_commented source "pattern" children]
    · exact parameters_commented hides rest later
  | _ :: rest, _, _, .insert _ later => by
    have skipped := parameters_commented hides rest later
    exact skipped
termination_by structural commented => commented

theorem members_commented (hides : Hides source view inserted) {docs docs' : List (DocComment Kind)}
    (alike : SeenAlike view docs docs') :
    (commented : List Tree) → {plain : List Tree} → {free : Bool} → CommentedAll inserted free plain commented →
      Agree (fun a b => Member.mapDocsAll view a = Member.mapDocsAll view b)
        (members source docs plain) (members source docs' commented)
  | [], _, _, .nil => .ok rfl
  | ⟨kind, _, _, _, inside⟩ :: rest, _, _, .keep (.node children) later => by
    rw [members, members]
    split
    · exact members_commented hides (alike.append _) rest later
    split
    · have others := members_commented hides (SeenAlike.refl []) rest later
      have name := tokenField_commented source "name" children
      have optional := optionMark_commented children
      have marks := modifiers_commented source children
      have value := exprField_commented source "value" children
      cases MemberSort.of kind.name with
      | skipped => exact others
      | signature =>
        refine (parametersField_commented hides inside children).bind ?_
        intro parameters parameters' same
        refine (typeField_commented hides "return_type" inside children).bind ?_
        intro result result' sameResult
        refine others.bind ?_
        intro rest rest' sameRest
        refine .pure ?_
        simp only [Member.mapDocsAll, Member.mapDocs, functionType, TypeNode.mapDocsOption, TypeNode.mapDocs, same,
          sameResult, sameRest, name, optional, marks, value, alike.view_eq]
      | method =>
        refine (typeField_commented hides "type" inside children).bind ?_
        intro type type' same
        refine others.bind ?_
        intro rest rest' sameRest
        refine .pure ?_
        simp only [Member.mapDocsAll, Member.mapDocs, same, sameRest, name, optional, marks, alike.view_eq]
      | field =>
        refine (typeField_commented hides "type" inside children).bind ?_
        intro type type' same
        refine others.bind ?_
        intro rest rest' sameRest
        refine .pure ?_
        simp only [Member.mapDocsAll, Member.mapDocs, same, sameRest, name, optional, marks, value, alike.view_eq]
    · exact members_commented hides alike rest later
  | _ :: rest, _, _, .insert new later => by
    have skipped := members_commented hides (alike.insert hides new) rest later
    exact skipped
termination_by structural commented => commented

end

theorem mapDocsBranches_eq_of_forall₂ {branches branches' : List (Option (TypeNode Kind))}
    (all : List.Forall₂ (fun a b => TypeNode.mapDocsOption view a = TypeNode.mapDocsOption view b) branches branches') :
    TypeNode.mapDocsBranches view branches = TypeNode.mapDocsBranches view branches' := by
  induction all with
  | nil => rfl
  | cons here _ ih => rw [TypeNode.mapDocsBranches, TypeNode.mapDocsBranches, here, ih]

theorem types_commented (hides : Hides source view inserted) {free : Bool} {plain commented : List Tree}
    (spread : CommentedAll inserted free plain commented) :
    Agree (fun a b => TypeNode.mapDocsBranches view a = TypeNode.mapDocsBranches view b)
      (types source plain) (types source commented) := by
  have content := spread.filter (fun _ _ here => Commented.isContent here) (fun _ _ => rfl)
  have each := Agree.mapM (content.imp fun _ commented here => type_commented hides commented here)
  exact each.mono fun _ _ => mapDocsBranches_eq_of_forall₂

theorem heritageEntry_commented (hides : Hides source view inserted) (kind : Kind) {plain commented : Tree}
    (spread : Commented inserted plain commented) :
    Agree (fun a b => a.mapDocs view = b.mapDocs view)
      (heritageEntry source kind plain) (heritageEntry source kind commented) := by
  obtain ⟨free, children⟩ := spread.children
  have application : isApplication commented = isApplication plain := by
    rw [isApplication, isApplication, spread.kind]
  have isArguments : ∀ plain commented, Commented inserted plain commented →
      isTypeArguments commented = isTypeArguments plain := by
    intro plain commented here
    rw [isTypeArguments, isTypeArguments, here.kind]
  have name := Tree.rel_or (Tree.rel_or (children.field? "function") (children.field? "name")) children.content?
  have base := map_eq_of_rel (fun _ _ => base_commented source) name
  have last := Tree.getLast?_related (children.filter isArguments (fun _ _ => rfl))
  rw [heritageEntry, heritageEntry, application]
  split
  · dsimp only
    rw [base]
    generalize (plain.children.filter isTypeArguments).getLast? = left at last ⊢
    generalize (commented.children.filter isTypeArguments).getLast? = right at last ⊢
    cases last with
    | none => exact .pure rfl
    | some list =>
      obtain ⟨_, inside⟩ := list.children
      refine (types_commented hides inside).bind ?_
      intro arguments arguments' same
      refine .pure ?_
      rw [HeritageEntry.mapDocs, HeritageEntry.mapDocs, same]
  · rw [base_commented source spread]
    exact .ok rfl

theorem addHeritage_commented (hides : Hides source view inserted) (kind : Kind)
    {entries entries' : List (HeritageEntry Kind)}
    (alike : entries.map (HeritageEntry.mapDocs view) = entries'.map (HeritageEntry.mapDocs view))
    {plain commented : Tree} (spread : Commented inserted plain commented) :
    Agree (fun a b => a.map (HeritageEntry.mapDocs view) = b.map (HeritageEntry.mapDocs view))
      (addHeritage source kind entries plain) (addHeritage source kind entries' commented) := by
  have isArguments : isTypeArguments commented = isTypeArguments plain := by
    rw [isTypeArguments, isTypeArguments, spread.kind]
  rw [addHeritage.eq_def, addHeritage.eq_def, isArguments]
  split
  · obtain ⟨_, children⟩ := spread.children
    cases entries with
    | nil =>
      cases List.map_eq_nil_iff.mp alike.symm
      exact .ok rfl
    | cons last before =>
      obtain ⟨last', before', rfl, sameLast, sameBefore⟩ := List.map_eq_cons_iff.mp alike.symm
      refine (types_commented hides children).bind ?_
      intro arguments arguments' same
      refine .pure ?_
      have sameEntry : HeritageEntry.mapDocs view { last with arguments := arguments } =
          HeritageEntry.mapDocs view { last' with arguments := arguments' } := by
        rw [HeritageEntry.mapDocs, HeritageEntry.mapDocs, HeritageEntry.mk.injEq] at sameLast
        obtain ⟨sameKind, sameBase, -⟩ := sameLast
        rw [HeritageEntry.mapDocs, HeritageEntry.mapDocs, sameKind, sameBase, same]
      rw [List.map_cons, List.map_cons, sameEntry, sameBefore]
  · refine (heritageEntry_commented hides kind spread).bind ?_
    intro entry entry' same
    refine .pure ?_
    rw [List.map_cons, List.map_cons, same, alike]

theorem heritageClause_commented (hides : Hides source view inserted) {plain commented : Tree}
    (spread : Commented inserted plain commented) :
    Agree (fun a b => a.mapDocs view = b.mapDocs view)
      (heritageClause source plain) (heritageClause source commented) := by
  obtain ⟨_, children⟩ := spread.children
  have content := children.filter (fun _ _ here => Commented.isContent here) (fun _ _ => rfl)
  rw [heritageClause, heritageClause, spread.kind]
  have folded : Agree (fun a b => a.map (HeritageEntry.mapDocs view) = b.map (HeritageEntry.mapDocs view))
      ((plain.children.filter Tree.isContent).foldlM (addHeritage source plain.kind) [])
      ((commented.children.filter Tree.isContent).foldlM (addHeritage source plain.kind) []) :=
    .foldlM rfl (content.imp fun _ _ here _ _ alike => addHeritage_commented hides plain.kind alike here)
  refine folded.bind ?_
  intro entries entries' same
  refine .pure ?_
  rw [HeritageClause.mapDocs, HeritageClause.mapDocs, List.map_reverse, List.map_reverse, same]

theorem heritage_commented (hides : Hides source view inserted) {plain commented : List Tree}
    (all : List.Forall₂ (Commented inserted) plain commented) :
    Agree (fun a b => a.map (HeritageClause.mapDocs view) = b.map (HeritageClause.mapDocs view))
      (plain.mapM (heritageClause source)) (commented.mapM (heritageClause source)) := by
  refine (Agree.mapM (all.imp fun _ _ here => heritageClause_commented hides here)).mono ?_
  intro clauses clauses' alike
  induction alike with
  | nil => rfl
  | cons here _ ih => rw [List.map_cons, List.map_cons, here, ih]

theorem classHeritage_commented (hides : Hides source view inserted) {free : Bool} {plain commented : List Tree}
    (spread : CommentedAll inserted free plain commented) :
    Agree (fun a b => a.map (HeritageClause.mapDocs view) = b.map (HeritageClause.mapDocs view))
      (classHeritage source plain) (classHeritage source commented) := by
  have outer := spread.filter (fun _ _ => isNamed_commented "class_heritage") (fun _ _ => rfl)
  have isClause : ∀ plain commented, Commented inserted plain commented →
      isBaseClause commented = isBaseClause plain := by
    intro plain commented here
    rw [isBaseClause, isBaseClause, isNamed_commented _ here, isNamed_commented _ here]
  refine heritage_commented hides (List.rel_flatMap outer ?_)
  intro plain commented here
  obtain ⟨_, inside⟩ := here.children
  exact inside.filter isClause (fun _ _ => rfl)

theorem interfaceHeritage_commented (hides : Hides source view inserted) {free : Bool} {plain commented : List Tree}
    (spread : CommentedAll inserted free plain commented) :
    Agree (fun a b => a.map (HeritageClause.mapDocs view) = b.map (HeritageClause.mapDocs view))
      (interfaceHeritage source plain) (interfaceHeritage source commented) :=
  heritage_commented hides (spread.filter (fun _ _ => isNamed_commented "extends_type_clause") (fun _ _ => rfl))

theorem library_commented (source : Bytes) {free : Bool} {plain commented : List Tree}
    (spread : CommentedAll inserted free plain commented) : library source commented = library source plain := by
  have named := map_eq_of_rel (fun _ _ here => congrArg Tree.unquote (Commented.text here source))
    (spread.field? "source")
  rw [library, library, named]

theorem importedName?_commented (source : Bytes) {plain commented : Tree}
    (spread : Commented inserted plain commented) : importedName? source commented = importedName? source plain := by
  obtain ⟨_, children⟩ := spread.children
  exact map_eq_of_rel (fun _ _ => token_commented source)
    (Tree.rel_or (children.field? "alias") (children.field? "name"))

theorem addImports_commented (source : Bytes) (clause : ImportClause Kind) {plain commented : Tree}
    (spread : Commented inserted plain commented) :
    addImports source clause commented = addImports source clause plain := by
  obtain ⟨_, children⟩ := spread.children
  have space := map_eq_of_rel (fun _ _ => token_commented source) children.content?
  have specifiers := children.filter (fun _ _ => isNamed_commented "import_specifier") (fun _ _ => rfl)
  have elements := Tree.filterMap_eq_of_forall₂ (fun _ _ => importedName?_commented source) specifiers
  rw [addImports, addImports, isNamed_commented _ spread, isNamed_commented _ spread, isNamed_commented _ spread,
    token_commented source spread, space, elements]

theorem importClause_commented (source : Bytes) {plain commented : Tree} (spread : Commented inserted plain commented) :
    importClause source commented = importClause source plain := by
  obtain ⟨_, children⟩ := spread.children
  rw [importClause, importClause, spread.kind]
  generalize plain.children = before at children ⊢
  generalize commented.children = after at children ⊢
  generalize (⟨plain.kind, none, none, []⟩ : ImportClause Kind) = clause
  induction after generalizing before clause with
  | nil =>
    cases children
    rfl
  | cons first rest ih =>
    cases children with
    | keep here later =>
      rw [List.foldl_cons, List.foldl_cons, addImports_commented source clause here]
      exact ih _ later _
    | insert _ later => exact ih _ later clause

theorem importForm_commented (source : Bytes) {free : Bool} {plain commented : List Tree}
    (spread : CommentedAll inserted free plain commented) : importForm source commented = importForm source plain := by
  have clauses := spread.filter (fun _ _ => isNamed_commented "import_clause") (fun _ _ => rfl)
  have clause := map_eq_of_rel (fun _ _ => importClause_commented source) (Tree.getLast?_related clauses)
  rw [importForm, importForm, clause, library_commented source spread]

theorem exportedNames_commented (source : Bytes) {free : Bool} {plain commented : List Tree}
    (spread : CommentedAll inserted free plain commented) :
    exportedNames source commented = exportedNames source plain := by
  have clauses := spread.filter (fun _ _ => isNamed_commented "export_clause") (fun _ _ => rfl)
  rw [exportedNames, exportedNames, List.flatMap_def, List.flatMap_def]
  refine congrArg List.flatten (Tree.map_eq_of_forall₂ ?_ clauses)
  intro plain commented here
  obtain ⟨_, children⟩ := here.children
  have specifiers := children.filter (fun _ _ => isNamed_commented "export_specifier") (fun _ _ => rfl)
  refine Tree.filterMap_eq_of_forall₂ ?_ specifiers
  intro plain commented specifier
  obtain ⟨_, inside⟩ := specifier.children
  exact tokenField_commented source "name" inside

theorem exportModifiers_commented {free : Bool} {plain commented : List Tree}
    (spread : CommentedAll inserted free plain commented) : exportModifiers commented = exportModifiers plain := by
  have same : ∀ plain commented, Commented inserted plain commented →
      isExportModifier commented = isExportModifier plain := by
    intro plain commented here
    rw [isExportModifier, isExportModifier, here.kind]
  refine Tree.map_eq_of_forall₂ ?_ (spread.filter same (fun _ _ => rfl))
  intro plain commented here
  rw [here.kind]

theorem declaredKind?_commented (kind : Kind) {free : Bool} {plain commented : List Tree}
    (spread : CommentedAll inserted free plain commented) :
    declaredKind? kind commented = declaredKind? kind plain := by
  have named : (Tree.field? "name" commented).isSome = (Tree.field? "name" plain).isSome := by
    have found := spread.field? "name"
    generalize Tree.field? "name" plain = left at found ⊢
    generalize Tree.field? "name" commented = right at found ⊢
    cases found <;> rfl
  rw [declaredKind?, declaredKind?, named]

theorem bodyMembers_commented (hides : Hides source view inserted) {free : Bool} {plain commented : List Tree}
    (spread : CommentedAll inserted free plain commented) :
    Agree (fun a b => Member.mapDocsAll view a = Member.mapDocsAll view b)
      (bodyMembers source plain) (bodyMembers source commented) := by
  have found := spread.field? "body"
  rw [bodyMembers, bodyMembers]
  generalize Tree.field? "body" plain = left at found ⊢
  generalize Tree.field? "body" commented = right at found ⊢
  cases found with
  | none => exact .ok rfl
  | some body =>
    obtain ⟨_, children⟩ := body.children
    exact members_commented hides (SeenAlike.refl []) _ children

abbrev FormsAlike (view : List (DocComment Kind) → List (DocComment Kind)) :
    Except Malformed (StatementForm Kind) → Except Malformed (StatementForm Kind) → Prop :=
  Agree fun a b => StatementForm.mapDocs view a = StatementForm.mapDocs view b

theorem classForm_commented (hides : Hides source view inserted) {free : Bool} {plain commented : List Tree}
    (spread : CommentedAll inserted free plain commented) :
    FormsAlike view (classForm source plain) (classForm source commented) := by
  refine (classHeritage_commented hides spread).bind ?_
  intro heritage heritage' same
  refine (bodyMembers_commented hides spread).bind ?_
  intro members members' sameMembers
  refine .pure ?_
  rw [StatementForm.mapDocs, StatementForm.mapDocs, same, sameMembers, tokenField_commented source "name" spread]

theorem interfaceForm_commented (hides : Hides source view inserted) {free : Bool} {plain commented : List Tree}
    (spread : CommentedAll inserted free plain commented) :
    FormsAlike view (interfaceForm source plain) (interfaceForm source commented) := by
  refine (interfaceHeritage_commented hides spread).bind ?_
  intro heritage heritage' same
  refine (bodyMembers_commented hides spread).bind ?_
  intro members members' sameMembers
  refine .pure ?_
  rw [StatementForm.mapDocs, StatementForm.mapDocs, same, sameMembers, tokenField_commented source "name" spread]

theorem typeAliasForm_commented (hides : Hides source view inserted) {free : Bool} {plain commented : List Tree}
    (spread : CommentedAll inserted free plain commented) :
    FormsAlike view (typeAliasForm source plain) (typeAliasForm source commented) := by
  refine (typeField_commented hides "value" commented spread).bind ?_
  intro type type' same
  refine .pure ?_
  rw [StatementForm.mapDocs, StatementForm.mapDocs, same, tokenField_commented source "name" spread]

abbrev StatementsAlike (view : List (DocComment Kind) → List (DocComment Kind)) :
    Except Malformed (Statement Kind) → Except Malformed (Statement Kind) → Prop :=
  Agree fun a b => Statement.mapDocs view a = Statement.mapDocs view b

theorem statement_of_form {docs docs' : List (DocComment Kind)} (sameDocs : view docs = view docs')
    (modifiers : List (Token Kind)) (kind : Kind) {form form' : Except Malformed (StatementForm Kind)}
    (alike : FormsAlike view form form') :
    StatementsAlike view (do return ⟨kind, docs, modifiers, ← form⟩) (do return ⟨kind, docs', modifiers, ← form'⟩) := by
  refine alike.bind ?_
  intro form form' same
  refine .pure ?_
  rw [Statement.mapDocs, Statement.mapDocs, same, sameDocs]

theorem declaration_commented (hides : Hides source view inserted) {docs docs' : List (DocComment Kind)}
    (alike : SeenAlike view docs docs') (modifiers : List (Token Kind)) (kind own : Kind) {free : Bool}
    {plain commented : List Tree} (spread : CommentedAll inserted free plain commented)
    {body body' : Except Malformed (Option (Block Kind))}
    (inside : Agree (fun a b => Block.mapDocsOption view a = Block.mapDocsOption view b) body body') :
    StatementsAlike view (declaration source docs modifiers kind own plain body)
      (declaration source docs' modifiers kind own commented body') := by
  rw [declaration, declaration]
  cases DeclarationSort.of own.name with
  | classOf => exact statement_of_form alike.view_eq modifiers kind (classForm_commented hides spread)
  | function =>
    refine (parametersField_commented hides commented spread).bind ?_
    intro parameters parameters' same
    refine inside.bind ?_
    intro block block' sameBlock
    refine .pure ?_
    rw [Statement.mapDocs, Statement.mapDocs, StatementForm.mapDocs, StatementForm.mapDocs, same, sameBlock,
      tokenField_commented source "name" spread, alike.view_eq]
  | interface => exact statement_of_form alike.view_eq modifiers own (interfaceForm_commented hides spread)
  | typeAlias => exact statement_of_form alike.view_eq modifiers own (typeAliasForm_commented hides spread)
  | other => exact statement_of_form alike.view_eq modifiers own (.ok rfl)

mutual

theorem statements_commented (hides : Hides source view inserted) {docs docs' : List (DocComment Kind)}
    (alike : SeenAlike view docs docs') :
    (commented : List Tree) → {plain : List Tree} → {free : Bool} → CommentedAll inserted free plain commented →
      Agree (fun a b => Statement.mapDocsAll view a = Statement.mapDocsAll view b)
        (statements source docs plain) (statements source docs' commented)
  | [], _, _, .nil => .ok rfl
  | ⟨kind, _, _, _, inside⟩ :: rest, _, _, .keep (.node children) later => by
    rw [statements, statements]
    split
    · exact statements_commented hides (alike.append _) rest later
    split
    · refine (statement_commented hides alike _ (.node children)).bind ?_
      intro first first' same
      refine (statements_commented hides (SeenAlike.refl []) rest later).bind ?_
      intro others others' sameOthers
      refine .pure ?_
      rw [Statement.mapDocsAll, Statement.mapDocsAll, same, sameOthers]
    · exact statements_commented hides alike rest later
  | _ :: rest, _, _, .insert new later => by
    have skipped := statements_commented hides (alike.insert hides new) rest later
    exact skipped
termination_by structural commented => commented

theorem statement_commented (hides : Hides source view inserted) {docs docs' : List (DocComment Kind)}
    (alike : SeenAlike view docs docs') :
    (commented : Tree) → {plain : Tree} → Commented inserted plain commented →
      StatementsAlike view (statement source docs plain) (statement source docs' commented)
  | ⟨kind, field, start, stop, commented⟩, _, @Commented.node _ _ _ _ _ plain _ children => by
    rw [statement, statement]
    cases StatementSort.of kind.name with
    | exporting =>
      dsimp only
      rw [exportModifiers_commented children, exportedNames_commented source children,
        library_commented source children]
      refine (exportedDeclaration_commented hides alike _ commented children).bind ?_
      intro declared declared' sameDeclared
      cases declared with
      | some declared =>
        obtain ⟨declared', rfl, same⟩ := Option.map_eq_some_iff.mp sameDeclared.symm
        exact .pure same.symm
      | none =>
        cases Option.map_eq_none_iff.mp sameDeclared.symm
        refine (exportedValue_commented hides alike _ kind commented children).bind ?_
        intro value value' sameValue
        cases value with
        | some value =>
          obtain ⟨value', rfl, same⟩ := Option.map_eq_some_iff.mp sameValue.symm
          exact .pure same.symm
        | none =>
          cases Option.map_eq_none_iff.mp sameValue.symm
          exact statement_of_form alike.view_eq _ kind (.ok rfl)
    | importing =>
      dsimp only
      rw [importForm_commented source children]
      exact statement_of_form alike.view_eq [] kind (.ok rfl)
    | returning =>
      dsimp only
      rw [exprContent_commented source children]
      exact statement_of_form alike.view_eq [] kind (.ok rfl)
    | expression =>
      dsimp only
      rw [exprContent_commented source children]
      exact statement_of_form alike.view_eq [] kind (.ok rfl)
    | declaration =>
      exact declaration_commented hides alike [] kind kind children (functionBody_commented hides commented children)
termination_by structural commented => commented

theorem exportedDeclaration_commented (hides : Hides source view inserted) {docs docs' : List (DocComment Kind)}
    (alike : SeenAlike view docs docs') (modifiers : List (Token Kind)) :
    (commented : List Tree) → {plain : List Tree} → {free : Bool} → CommentedAll inserted free plain commented →
      Agree (fun a b => a.map (Statement.mapDocs view) = b.map (Statement.mapDocs view))
        (exportedDeclaration source docs modifiers plain) (exportedDeclaration source docs' modifiers commented)
  | [], _, _, .nil => .ok rfl
  | ⟨kind, _, _, _, inside⟩ :: rest, _, _, .keep (.node children) later => by
    rw [exportedDeclaration, exportedDeclaration]
    split
    · have body := functionBody_commented hides inside children
      refine (declaration_commented hides alike modifiers kind kind children body).map ?_
      intro declared declared' same
      exact congrArg some same
    · exact exportedDeclaration_commented hides alike modifiers rest later
  | _ :: rest, _, _, .insert _ later => by
    have skipped := exportedDeclaration_commented hides alike modifiers rest later
    exact skipped
termination_by structural commented => commented

theorem exportedValue_commented (hides : Hides source view inserted) {docs docs' : List (DocComment Kind)}
    (alike : SeenAlike view docs docs') (modifiers : List (Token Kind)) (outer : Kind) :
    (commented : List Tree) → {plain : List Tree} → {free : Bool} → CommentedAll inserted free plain commented →
      Agree (fun a b => a.map (Statement.mapDocs view) = b.map (Statement.mapDocs view))
        (exportedValue source docs modifiers outer plain) (exportedValue source docs' modifiers outer commented)
  | [], _, _, .nil => .ok rfl
  | ⟨kind, field, start, stop, inside⟩ :: rest, _, _, .keep (.node children) later => by
    have whole := expr_commented source (@Commented.node _ kind field start stop _ _ children)
    rw [exportedValue, exportedValue, declaredKind?_commented kind children]
    split
    · split
      · rename_i declared _
        have body := functionBody_commented hides inside children
        refine (declaration_commented hides alike modifiers declared kind children body).map ?_
        intro value value' same
        exact congrArg some same
      · refine .ok ?_
        simp only [Option.map_some, Statement.mapDocs, StatementForm.mapDocs, alike.view_eq, whole]
    · exact exportedValue_commented hides alike modifiers outer rest later
  | _ :: rest, _, _, .insert _ later => by
    have skipped := exportedValue_commented hides alike modifiers outer rest later
    exact skipped
termination_by structural commented => commented

theorem functionBody_commented (hides : Hides source view inserted) :
    (commented : List Tree) → {plain : List Tree} → {free : Bool} → CommentedAll inserted free plain commented →
      Agree (fun a b => Block.mapDocsOption view a = Block.mapDocsOption view b)
        (functionBody source plain) (functionBody source commented)
  | [], _, _, .nil => .ok rfl
  | ⟨kind, _, _, _, inside⟩ :: rest, _, _, .keep (.node children) later => by
    rw [functionBody, functionBody]
    split
    · split
      · refine (statements_commented hides (SeenAlike.refl []) inside children).bind ?_
        intro found found' same
        refine .pure ?_
        rw [Block.mapDocsOption, Block.mapDocsOption, same]
      · exact .ok rfl
    · exact functionBody_commented hides rest later
  | _ :: rest, _, _, .insert _ later => by
    have skipped := functionBody_commented hides rest later
    exact skipped
termination_by structural commented => commented

end

end ComponentDocs.Conversion
