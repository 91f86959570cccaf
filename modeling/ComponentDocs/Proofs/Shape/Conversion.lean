import ComponentDocs.Conversion.Statement
import ComponentDocs.Proofs.Shape.Basic
import ComponentDocs.Proofs.Shape.Grammar
import ComponentDocs.Proofs.Success

/-! The syntax that is read from grammatical trees has the form that its kinds announce. Conversion dispatches on the
names of kinds only, so the two have to be compared kind by kind. -/

namespace ComponentDocs

theorem Catalog.eq_of_plays {κ : Type} [DecidableEq κ] {catalog : Catalog κ} {roles : List Role} {kind : κ}
    (plays : catalog.plays roles kind) : ∃ role ∈ roles, catalog role = some kind := by
  obtain ⟨role, member, same⟩ := List.any_eq_true.mp plays
  exact ⟨role, member, by simpa using same⟩

namespace Conversion

open Utf8 (Bytes)
open ComponentDocs.Tree (Everywhere Grammatical)

def ExprSort.Fits : ExprSort → ExprForm Kind → Prop
  | .parenthesized, form => ∃ inner, form = .parenthesized inner
  | .access, form => ∃ object name, form = .access object name
  | .call, form => ∃ callee arguments, form = .call callee arguments
  | .object, form => ∃ properties, form = .object properties
  | _, _ => True

theorem announced_of_exprSort {value : Expr Kind} (fits : (ExprSort.of value.kind.name).Fits value.form) :
    value.Announced tsxCatalog := by
  obtain ⟨kind, text, form⟩ := value
  refine ⟨?_, ?_, ?_, ?_⟩ <;>
  · intro plays
    obtain ⟨role, member, same⟩ := Catalog.eq_of_plays plays
    cases List.mem_singleton.mp member
    cases same
    exact fits

mutual

theorem expr_shaped (source : Bytes) : (tree : Tree) → (expr source tree).Shaped tsxCatalog
  | ⟨kind, field, start, stop, children⟩ => by
    rw [expr]
    cases sort : ExprSort.of kind.name with
    | verbatim => exact .node (announced_of_exprSort (by simp [sort, ExprSort.Fits])) (by simp [ExprForm.parts])
    | string => exact .node (announced_of_exprSort (by simp [sort, ExprSort.Fits])) (by simp [ExprForm.parts])
    | other => exact .node (announced_of_exprSort (by simp [sort, ExprSort.Fits])) (by simp [ExprForm.parts])
    | parenthesized =>
      refine .node (announced_of_exprSort (by simp [sort, ExprSort.Fits])) ?_
      intro part present
      exact exprContent_shaped source children part (Option.mem_toList.mp present)
    | access =>
      refine .node (announced_of_exprSort (by simp [sort, ExprSort.Fits])) ?_
      intro part present
      exact exprField_shaped source "object" children part (Option.mem_toList.mp present)
    | call =>
      refine .node (announced_of_exprSort (by simp [sort, ExprSort.Fits])) ?_
      intro part present
      rcases List.mem_append.mp present with callee | argument
      · exact exprField_shaped source "function" children part (Option.mem_toList.mp callee)
      · exact callArguments_shaped source children part argument
    | object =>
      refine .node (announced_of_exprSort (by simp [sort, ExprSort.Fits])) ?_
      intro part present
      obtain ⟨property, member, value⟩ := List.mem_filterMap.mp present
      exact properties_shaped source children property member part value

theorem exprContent_shaped (source : Bytes) :
    (trees : List Tree) → ∀ value ∈ exprContent source trees, value.Shaped tsxCatalog
  | [] => by simp [exprContent]
  | first :: rest => by
    rw [exprContent]
    split
    · rintro value ⟨⟩
      exact expr_shaped source first
    · exact exprContent_shaped source rest

theorem exprField_shaped (source : Bytes) (name : String) :
    (trees : List Tree) → ∀ value ∈ exprField source name trees, value.Shaped tsxCatalog
  | [] => by simp [exprField]
  | first :: rest => by
    rw [exprField]
    split
    · rintro value ⟨⟩
      exact expr_shaped source first
    · exact exprField_shaped source name rest

theorem callArguments_shaped (source : Bytes) :
    (trees : List Tree) → ∀ value ∈ callArguments source trees, value.Shaped tsxCatalog
  | [] => by simp [callArguments]
  | ⟨kind, field, start, stop, children⟩ :: rest => by
    rw [callArguments]
    split
    · split
      · exact exprs_shaped source children
      · simp
    · exact callArguments_shaped source rest

theorem exprs_shaped (source : Bytes) : (trees : List Tree) → ∀ value ∈ exprs source trees, value.Shaped tsxCatalog
  | [] => by simp [exprs]
  | first :: rest => by
    rw [exprs]
    split
    · exact List.forall_mem_cons.mpr ⟨expr_shaped source first, exprs_shaped source rest⟩
    · exact exprs_shaped source rest

theorem properties_shaped (source : Bytes) :
    (trees : List Tree) → ∀ property ∈ properties source trees, ∀ value ∈ property.value, value.Shaped tsxCatalog
  | [] => by simp [properties]
  | ⟨kind, field, start, stop, children⟩ :: rest => by
    rw [properties]
    split
    · exact List.forall_mem_cons.mpr ⟨exprField_shaped source "value" children, properties_shaped source rest⟩
    split
    · refine List.forall_mem_cons.mpr ⟨?_, properties_shaped source rest⟩
      -- a shorthand has the kind of a name, which announces no form
      rintro value ⟨⟩
      rename_i named
      refine .node (announced_of_exprSort ?_) (by simp [ExprForm.parts])
      have name : kind.name = "shorthand_property_identifier" := by simp_all
      rw [name]
      exact trivial
    · exact properties_shaped source rest

end

theorem expr_kind (source : Bytes) (tree : Tree) : (expr source tree).kind = tree.kind := by
  obtain ⟨kind, field, start, stop, children⟩ := tree
  rw [expr]
  split <;> rfl

theorem isLiteralType_eq_false {kind : Kind} (differs : kind.name ≠ "literal_type") :
    tsxCatalog.isLiteralType kind = false := by
  rw [← Bool.not_eq_true]
  intro plays
  obtain ⟨role, member, same⟩ := Catalog.eq_of_plays plays
  cases List.mem_singleton.mp member
  cases same
  exact differs rfl

theorem literal_noType (source : Bytes) {tree : Tree} (plain : tree.isSignedLiteralType = false) :
    tsxCatalog.isLiteralType (literal source tree).kind = false := by
  simp only [Tree.isSignedLiteralType, Bool.or_eq_false_iff, beq_eq_false_iff_ne, Bool.and_eq_false_iff] at plain
  obtain ⟨noType, noSign⟩ := plain
  rw [literal]
  split
  · rename_i signed
    cases operand : Tree.field? "argument" tree.children with
    | none => exact isLiteralType_eq_false noType
    | some inner =>
      rcases noSign with unsigned | noOperand
      · exact absurd signed unsigned
      · exact isLiteralType_eq_false (by simpa [operand] using noOperand)
  · rw [expr_kind]
    exact isLiteralType_eq_false noType

def TypeSort.Names : TypeSort → String → Prop
  | .wrapper, name => name = "parenthesized_type" ∨ name = "type_annotation"
  | .predefined, name => name = "predefined_type"
  | .reference, name => name = "type_identifier" ∨ name = "nested_type_identifier"
  | .generic, name => name = "generic_type"
  | .union, name => name = "union_type"
  | .function, name => name = "function_type"
  | .literal, name => name = "literal_type"
  | .object, name => name = "object_type"
  | .other, _ => True

theorem names_of_typeSort {name : String} {sort : TypeSort} (read : TypeSort.of name = sort) : sort.Names name := by
  subst read
  unfold TypeSort.of
  split <;> simp [TypeSort.Names]

theorem type_shaped {type : TypeNode Kind} (branches : ∀ branch ∈ type.branches, ∃ inner, branch = some inner ∧
      inner.Shaped tsxCatalog) (literal : ∀ value ∈ type.literal, tsxCatalog.isLiteralType value.kind = false)
    (parameters : ∀ parameter ∈ type.parameters, ∀ inner ∈ parameter.type, inner.Shaped tsxCatalog)
    (result : ∀ inner ∈ type.result, inner.Shaped tsxCatalog)
    (members : ∀ member ∈ type.members, member.Shaped tsxCatalog) : type.Shaped tsxCatalog := by
  refine .node ⟨fun _ gap => ?_, fun _ => literal⟩ ?_ fun member present => (members member present).value
  · obtain ⟨inner, absent, _⟩ := branches none gap
    cases absent
  · intro part present
    simp only [TypeNode.parts, List.mem_append, List.mem_filterMap, Option.mem_toList] at present
    rcases present with ((⟨branch, member, same⟩ | ⟨parameter, member, same⟩) | same) | ⟨own, member, same⟩
    · obtain ⟨inner, rfl, shaped⟩ := branches branch member
      cases same
      exact shaped
    · exact parameters parameter member part same
    · exact result part same
    · exact (members own member).type part same

theorem plainType_shaped (kind : Kind) (text : String) : (plainType kind text).Shaped tsxCatalog := by
  apply type_shaped <;> simp [plainType]

theorem namedType_shaped (kind : Kind) (name text : String) : (namedType kind name text).Shaped tsxCatalog := by
  apply type_shaped <;> simp [namedType]

theorem functionType_shaped {parameters : List (Parameter Kind)} {result : Option (TypeNode Kind)}
    (shaped : ∀ parameter ∈ parameters, ∀ inner ∈ parameter.type, inner.Shaped tsxCatalog)
    (resultShaped : ∀ inner ∈ result, inner.Shaped tsxCatalog) (kind : Kind) (text : String) :
    (functionType kind parameters result text).Shaped tsxCatalog :=
  type_shaped (by simp [functionType]) (by simp [functionType]) shaped resultShaped (by simp [functionType])

mutual

/-- A grammatical tree always gives a type, since no wrapper in it is empty. -/
theorem type_succeeds (source : Bytes) : (tree : Tree) → tree.Everywhere Grammatical →
    Succeeds (type source tree) fun found => ∃ type, found = some type ∧ type.Shaped tsxCatalog
  | ⟨kind, field, start, stop, children⟩, .node here below => by
    rw [type]
    cases sort : TypeSort.of kind.name with
    | wrapper =>
      refine (typeContent_succeeds source children below).mono ?_
      intro found ⟨present, shaped⟩
      obtain ⟨type, rfl⟩ := Option.isSome_iff_exists.mp (present.mpr (here.wrapper (names_of_typeSort sort)))
      exact ⟨type, rfl, shaped type rfl⟩
    | predefined => exact .ok ⟨_, rfl, plainType_shaped _ _⟩
    | reference => exact .ok ⟨_, rfl, namedType_shaped _ _ _⟩
    | generic =>
      dsimp only
      split
      · rename_i missing
        obtain ⟨noName, noContent⟩ := Option.or_eq_none_iff.mp missing
        rcases here.generic (names_of_typeSort sort) with present | present
        · simp [noName] at present
        · simp [noContent] at present
      · exact .ok ⟨_, rfl, namedType_shaped _ _ _⟩
    | union =>
      refine .bind (unionBranches_succeeds source children below) ?_
      intro branches shaped
      exact .pure ⟨_, rfl, type_shaped shaped (by simp) (by simp) (by simp) (by simp)⟩
    | function =>
      refine .bind (parametersField_succeeds source children below) ?_
      intro parameters shaped
      refine .bind (typeField_succeeds source "return_type" children below) ?_
      intro result resultShaped
      exact .pure ⟨_, rfl, functionType_shaped shaped resultShaped _ _⟩
    | literal =>
      refine .ok ⟨_, rfl, type_shaped (by simp) ?_ (by simp) (by simp) (by simp)⟩
      intro value present
      obtain ⟨inner, first, rfl⟩ := Option.map_eq_some_iff.mp present
      exact literal_noType source (here.literal (names_of_typeSort sort) inner first)
    | object =>
      refine .bind (members_succeeds source [] children below) ?_
      intro members shaped
      exact .pure ⟨_, rfl, type_shaped (by simp) (by simp) (by simp) (by simp) shaped⟩
    | other => exact .ok ⟨_, rfl, plainType_shaped _ _⟩

theorem typeContent_succeeds (source : Bytes) : (trees : List Tree) → (∀ tree ∈ trees, tree.Everywhere Grammatical) →
    Succeeds (typeContent source trees) fun found =>
      (found.isSome ↔ (Tree.content? trees).isSome) ∧ ∀ type ∈ found, type.Shaped tsxCatalog
  | [], _ => .ok (by simp [Tree.content?])
  | first :: rest, below => by
    obtain ⟨here, later⟩ := List.forall_mem_cons.mp below
    rw [typeContent]
    split
    · rename_i content
      refine (type_succeeds source first here).mono ?_
      rintro found ⟨type, rfl, shaped⟩
      exact ⟨by simp [Tree.content?, content], by simpa using shaped⟩
    · rename_i layout
      refine (typeContent_succeeds source rest later).mono ?_
      intro found holds
      simpa [Tree.content?, layout] using holds

theorem typeField_succeeds (source : Bytes) (name : String) : (trees : List Tree) →
    (∀ tree ∈ trees, tree.Everywhere Grammatical) →
    Succeeds (typeField source name trees) fun found => ∀ type ∈ found, type.Shaped tsxCatalog
  | [], _ => .ok (by simp)
  | first :: rest, below => by
    obtain ⟨here, later⟩ := List.forall_mem_cons.mp below
    rw [typeField]
    split
    · refine (type_succeeds source first here).mono ?_
      rintro found ⟨type, rfl, shaped⟩
      simpa using shaped
    · exact typeField_succeeds source name rest later

theorem unionBranches_succeeds (source : Bytes) : (trees : List Tree) →
    (∀ tree ∈ trees, tree.Everywhere Grammatical) →
    Succeeds (unionBranches source trees) fun branches =>
      ∀ branch ∈ branches, ∃ type, branch = some type ∧ type.Shaped tsxCatalog
  | [], _ => .ok (by simp)
  | ⟨kind, field, start, stop, children⟩ :: rest, below => by
    obtain ⟨here, later⟩ := List.forall_mem_cons.mp below
    rw [unionBranches]
    split
    · cases here with
      | node _ inside =>
        refine .bind (unionBranches_succeeds source children inside) ?_
        intro inner innerShaped
        refine .bind (unionBranches_succeeds source rest later) ?_
        intro others othersShaped
        exact .pure (List.forall_mem_append.mpr ⟨innerShaped, othersShaped⟩)
    split
    · refine .bind (type_succeeds source _ here) ?_
      intro branch shaped
      refine .bind (unionBranches_succeeds source rest later) ?_
      intro others othersShaped
      exact .pure (List.forall_mem_cons.mpr ⟨shaped, othersShaped⟩)
    · exact unionBranches_succeeds source rest later

theorem parametersField_succeeds (source : Bytes) : (trees : List Tree) →
    (∀ tree ∈ trees, tree.Everywhere Grammatical) →
    Succeeds (parametersField source trees) fun parameters =>
      ∀ parameter ∈ parameters, ∀ type ∈ parameter.type, type.Shaped tsxCatalog
  | [], _ => .ok (by simp)
  | ⟨kind, field, start, stop, children⟩ :: rest, below => by
    obtain ⟨here, later⟩ := List.forall_mem_cons.mp below
    rw [parametersField]
    split
    · cases here with
      | node _ inside => exact parameters_succeeds source children inside
    · exact parametersField_succeeds source rest later

theorem parameters_succeeds (source : Bytes) : (trees : List Tree) → (∀ tree ∈ trees, tree.Everywhere Grammatical) →
    Succeeds (parameters source trees) fun parameters =>
      ∀ parameter ∈ parameters, ∀ type ∈ parameter.type, type.Shaped tsxCatalog
  | [], _ => .ok (by simp)
  | ⟨kind, field, start, stop, children⟩ :: rest, below => by
    obtain ⟨here, later⟩ := List.forall_mem_cons.mp below
    rw [parameters]
    split
    · cases here with
      | node _ inside =>
        refine .bind (typeField_succeeds source "type" children inside) ?_
        intro type shaped
        refine .bind (parameters_succeeds source rest later) ?_
        intro others othersShaped
        exact .pure (List.forall_mem_cons.mpr ⟨shaped, othersShaped⟩)
    · exact parameters_succeeds source rest later

theorem members_succeeds (source : Bytes) (docs : List (DocComment Kind)) : (trees : List Tree) →
    (∀ tree ∈ trees, tree.Everywhere Grammatical) →
    Succeeds (members source docs trees) fun members => ∀ member ∈ members, member.Shaped tsxCatalog
  | [], _ => .ok (by simp)
  | ⟨kind, field, start, stop, children⟩ :: rest, below => by
    obtain ⟨here, later⟩ := List.forall_mem_cons.mp below
    obtain ⟨_, inside⟩ := here
    rw [members]
    split
    · exact members_succeeds source _ rest later
    split
    · cases MemberSort.of kind.name with
      | skipped => exact members_succeeds source [] rest later
      | signature =>
        refine .bind (parametersField_succeeds source children inside) ?_
        intro parameters shaped
        refine .bind (typeField_succeeds source "return_type" children inside) ?_
        intro result resultShaped
        refine .bind (members_succeeds source [] rest later) ?_
        intro others othersShaped
        refine .pure (List.forall_mem_cons.mpr ⟨⟨?_, exprField_shaped source "value" children⟩, othersShaped⟩)
        rintro type ⟨⟩
        exact functionType_shaped shaped resultShaped _ _
      | method =>
        refine .bind (typeField_succeeds source "type" children inside) ?_
        intro type shaped
        refine .bind (members_succeeds source [] rest later) ?_
        intro others othersShaped
        exact .pure (List.forall_mem_cons.mpr ⟨⟨shaped, by simp⟩, othersShaped⟩)
      | field =>
        refine .bind (typeField_succeeds source "type" children inside) ?_
        intro type shaped
        refine .bind (members_succeeds source [] rest later) ?_
        intro others othersShaped
        exact .pure (List.forall_mem_cons.mpr ⟨⟨shaped, exprField_shaped source "value" children⟩, othersShaped⟩)
    · exact members_succeeds source docs rest later

end

mutual

theorem base_shaped (source : Bytes) : (tree : Tree) → (base source tree).Shaped tsxCatalog
  | ⟨kind, field, start, stop, children⟩ => by
    rw [base.eq_def]
    dsimp only
    cases BaseSort.of kind.name with
    | typeName => exact .node (announced_of_exprSort trivial) (by simp [ExprForm.parts])
    | qualifiedType =>
      refine .node (announced_of_exprSort ⟨_, _, rfl⟩) ?_
      intro part present
      exact baseField_shaped source "module" children part (Option.mem_toList.mp present)
    | qualifiedName =>
      dsimp only
      split
      · refine .node (announced_of_exprSort ⟨_, _, rfl⟩) ?_
        intro part present
        exact baseContent_shaped source children part (Option.mem_toList.mp present)
      · exact expr_shaped source _
    | other => exact expr_shaped source _

theorem baseField_shaped (source : Bytes) (name : String) :
    (trees : List Tree) → ∀ value ∈ baseField source name trees, value.Shaped tsxCatalog
  | [] => by simp [baseField]
  | first :: rest => by
    rw [baseField]
    split
    · rintro value ⟨⟩
      exact base_shaped source first
    · exact baseField_shaped source name rest

theorem baseContent_shaped (source : Bytes) :
    (trees : List Tree) → ∀ value ∈ baseContent source trees, value.Shaped tsxCatalog
  | [] => by simp [baseContent]
  | first :: rest => by
    rw [baseContent]
    split
    · rintro value ⟨⟩
      exact base_shaped source first
    · exact baseContent_shaped source rest

end

theorem types_succeeds (source : Bytes) {trees : List Tree} (below : ∀ tree ∈ trees, tree.Everywhere Grammatical) :
    Succeeds (types source trees) fun found => ∀ type, some type ∈ found → type.Shaped tsxCatalog := by
  have each : ∀ tree ∈ trees.filter Tree.isContent,
      Succeeds (type source tree) fun found => ∃ type, found = some type ∧ type.Shaped tsxCatalog :=
    fun tree member => type_succeeds source tree (below tree (List.mem_filter.mp member).1)
  refine (Succeeds.mapM each).mono ?_
  intro found all type present
  obtain ⟨_, ⟨⟩, shaped⟩ := all (some type) present
  exact shaped

theorem Everywhere.children {property : Tree → Prop} {tree : Tree} (holds : tree.Everywhere property) :
    ∀ child ∈ tree.children, child.Everywhere property := by
  cases holds with
  | node _ below => exact below

theorem heritageEntry_succeeds (source : Bytes) (kind : Kind) {tree : Tree} (holds : tree.Everywhere Grammatical) :
    Succeeds (heritageEntry source kind tree) fun entry => entry.Shaped tsxCatalog := by
  rw [heritageEntry]
  split
  · have named : ∀ value ∈ (((Tree.field? "function" tree.children).or (Tree.field? "name" tree.children)).or
        (Tree.content? tree.children)).map (base source), value.Shaped tsxCatalog := by
      intro value present
      obtain ⟨name, _, rfl⟩ := Option.map_eq_some_iff.mp present
      exact base_shaped source name
    dsimp only
    split
    · exact .pure ⟨named, by simp⟩
    · rename_i list last
      have inside := (List.mem_filter.mp (List.mem_of_getLast? last)).1
      refine .bind (types_succeeds source (Everywhere.children (Everywhere.children holds list inside))) ?_
      intro arguments shaped
      exact .pure ⟨named, shaped⟩
  · refine .ok ⟨?_, by simp⟩
    rintro value ⟨⟩
    exact base_shaped source tree

theorem heritageClause_succeeds (source : Bytes) {clause : Tree} (holds : clause.Everywhere Grammatical) :
    Succeeds (heritageClause source clause) fun clause => ∀ entry ∈ clause.entries, entry.Shaped tsxCatalog := by
  have folded : Succeeds ((clause.children.filter Tree.isContent).foldlM (addHeritage source clause.kind) [])
      fun entries => ∀ entry ∈ entries, entry.Shaped tsxCatalog := by
    refine .foldlM (by simp) ?_
    intro entries shaped tree member
    have inside := Everywhere.children holds tree (List.mem_filter.mp member).1
    rw [addHeritage.eq_def]
    split
    · split
      · exact .ok (by simp)
      · rename_i last before
        obtain ⟨lastShaped, beforeShaped⟩ := List.forall_mem_cons.mp shaped
        refine .bind (types_succeeds source (Everywhere.children inside)) ?_
        intro arguments argumentsShaped
        exact .pure (List.forall_mem_cons.mpr ⟨⟨lastShaped.base, argumentsShaped⟩, beforeShaped⟩)
    · refine .bind (heritageEntry_succeeds source clause.kind inside) ?_
      intro entry entryShaped
      exact .pure (List.forall_mem_cons.mpr ⟨entryShaped, shaped⟩)
  refine .bind folded ?_
  intro entries shaped
  exact .pure fun entry member => shaped entry (List.mem_reverse.mp member)

theorem heritage_succeeds (source : Bytes) {clauses : List Tree}
    (holds : ∀ clause ∈ clauses, clause.Everywhere Grammatical) :
    Succeeds (clauses.mapM (heritageClause source)) fun heritage =>
      ∀ entry ∈ heritageEntries heritage, entry.Shaped tsxCatalog := by
  refine (Succeeds.mapM fun clause member => heritageClause_succeeds source (holds clause member)).mono ?_
  intro heritage all entry present
  obtain ⟨clause, member, inside⟩ := List.mem_flatMap.mp present
  exact all clause member entry inside

def DeclarationSort.Fits : DeclarationSort → StatementForm Kind → Prop
  | .classOf, form => ∃ name heritage members, form = .classOf name heritage members
  | .function, form => ∃ name parameters body, form = .function name parameters body
  | .interface, form => ∃ name heritage members, form = .interface name heritage members
  | .typeAlias, form => ∃ name type, form = .typeAlias name type
  | .other, _ => True

def StatementSort.Fits : StatementSort → StatementForm Kind → Prop
  | .importing, form => ∃ clause library, form = .importFrom clause library
  | .returning, form => ∃ value, form = .returning value
  | .expression, form => ∃ value, form = .expression value
  | _, _ => True

theorem announced_of_sorts {statement : Statement Kind}
    (stated : (StatementSort.of statement.kind.name).Fits statement.form)
    (declared : (DeclarationSort.of statement.kind.name).Fits statement.form) : statement.Announced tsxCatalog := by
  obtain ⟨kind, docs, modifiers, form⟩ := statement
  refine ⟨?_, ?_, ?_, ?_, ?_, ?_, ?_⟩
  case refine_1 | refine_2 =>
    -- classes and functions have two kinds each
    intro plays
    obtain ⟨role, member, same⟩ := Catalog.eq_of_plays plays
    rcases List.mem_cons.mp member with rfl | member
    · cases same
      exact declared
    · cases List.mem_singleton.mp member
      cases same
      exact declared
  case refine_3 | refine_4 =>
    intro plays
    obtain ⟨role, member, same⟩ := Catalog.eq_of_plays plays
    cases List.mem_singleton.mp member
    cases same
    exact declared
  all_goals
    intro plays
    obtain ⟨role, member, same⟩ := Catalog.eq_of_plays plays
    cases List.mem_singleton.mp member
    cases same
    exact stated

theorem fits_of_not_bare {name : String} (declares : Tree.isBareStatement name = false) (form : StatementForm Kind) :
    (StatementSort.of name).Fits form := by
  unfold StatementSort.of
  split
  case h_1 | h_5 => exact trivial
  all_goals cases declares

theorem not_bare_of_declaration {name : String} (sort : StatementSort.of name = .declaration) :
    Tree.isBareStatement name = false := by
  unfold StatementSort.of at sort
  split at sort <;> simp_all [Tree.isBareStatement]

theorem name_of_exporting {name : String} (sort : StatementSort.of name = .exporting) : name = "export_statement" := by
  unfold StatementSort.of at sort
  split at sort <;> simp_all

theorem declarationSort_eq_other {name : String} (sort : StatementSort.of name ≠ .declaration) :
    DeclarationSort.of name = .other := by
  unfold StatementSort.of at sort
  split at sort
  case h_5 => exact absurd rfl sort
  all_goals rfl

theorem bodyMembers_succeeds (source : Bytes) {children : List Tree}
    (below : ∀ child ∈ children, child.Everywhere Grammatical) :
    Succeeds (bodyMembers source children) fun members => ∀ member ∈ members, member.Shaped tsxCatalog := by
  rw [bodyMembers]
  split
  · exact .ok (by simp)
  · rename_i body found
    have inside := List.mem_of_find?_eq_some found
    exact members_succeeds source [] body.children (Everywhere.children (below body inside))

theorem classHeritage_succeeds (source : Bytes) {children : List Tree}
    (below : ∀ child ∈ children, child.Everywhere Grammatical) :
    Succeeds (classHeritage source children) fun heritage =>
      ∀ entry ∈ heritageEntries heritage, entry.Shaped tsxCatalog := by
  refine heritage_succeeds source ?_
  intro clause member
  obtain ⟨outer, present, inside⟩ := List.mem_flatMap.mp member
  exact Everywhere.children (below outer (List.mem_filter.mp present).1) clause (List.mem_filter.mp inside).1

theorem interfaceHeritage_succeeds (source : Bytes) {children : List Tree}
    (below : ∀ child ∈ children, child.Everywhere Grammatical) :
    Succeeds (interfaceHeritage source children) fun heritage =>
      ∀ entry ∈ heritageEntries heritage, entry.Shaped tsxCatalog :=
  heritage_succeeds source fun clause member => below clause (List.mem_filter.mp member).1

def StatementForm.Suits (sort : DeclarationSort) (form : StatementForm Kind) : Prop :=
  ∀ (kind : Kind) (docs : List (DocComment Kind)) (modifiers : List (Token Kind)),
    Tree.isBareStatement kind.name = false → DeclarationSort.of kind.name = sort →
      (⟨kind, docs, modifiers, form⟩ : Statement Kind).Shaped tsxCatalog

theorem suits_of_parts {sort : DeclarationSort} {form : StatementForm Kind} (fits : sort.Fits form)
    (values : ∀ value ∈ form.values, value.Shaped tsxCatalog)
    (entries : ∀ entry ∈ form.entries, entry.Shaped tsxCatalog)
    (members : ∀ member ∈ form.members, member.Shaped tsxCatalog)
    (types : ∀ type ∈ form.types, type.Shaped tsxCatalog)
    (body : ∀ inner ∈ form.body, inner.Shaped tsxCatalog) : StatementForm.Suits sort form := by
  intro kind docs modifiers declares same
  have announced : (⟨kind, docs, modifiers, form⟩ : Statement Kind).Announced tsxCatalog := by
    apply announced_of_sorts (fits_of_not_bare declares form)
    rw [same]
    exact fits
  exact .node announced values entries members types body

theorem classForm_succeeds (source : Bytes) {children : List Tree}
    (below : ∀ child ∈ children, child.Everywhere Grammatical) :
    Succeeds (classForm source children) (StatementForm.Suits .classOf) := by
  refine .bind (classHeritage_succeeds source below) ?_
  intro heritage heritageShaped
  refine .bind (bodyMembers_succeeds source below) ?_
  intro members membersShaped
  exact .pure (suits_of_parts ⟨_, _, _, rfl⟩ (by simp [StatementForm.values]) heritageShaped membersShaped
    (by simp [StatementForm.types]) (by simp [StatementForm.body]))

theorem interfaceForm_succeeds (source : Bytes) {children : List Tree}
    (below : ∀ child ∈ children, child.Everywhere Grammatical) :
    Succeeds (interfaceForm source children) (StatementForm.Suits .interface) := by
  refine .bind (interfaceHeritage_succeeds source below) ?_
  intro heritage heritageShaped
  refine .bind (bodyMembers_succeeds source below) ?_
  intro members membersShaped
  exact .pure (suits_of_parts ⟨_, _, _, rfl⟩ (by simp [StatementForm.values]) heritageShaped membersShaped
    (by simp [StatementForm.types]) (by simp [StatementForm.body]))

theorem typeAliasForm_succeeds (source : Bytes) {children : List Tree}
    (below : ∀ child ∈ children, child.Everywhere Grammatical) :
    Succeeds (typeAliasForm source children) (StatementForm.Suits .typeAlias) := by
  refine .bind (typeField_succeeds source "value" children below) ?_
  intro type typeShaped
  refine .pure (suits_of_parts ⟨_, _, rfl⟩ (by simp [StatementForm.values]) (by simp [StatementForm.entries])
    (by simp [StatementForm.members]) ?_ (by simp [StatementForm.body]))
  intro inner present
  exact typeShaped inner (Option.mem_toList.mp present)

def BlockShaped (block : Option (Block Kind)) : Prop :=
  ∀ inner ∈ block, ∀ statement ∈ inner.statements, statement.Shaped tsxCatalog

theorem functionForm_suits {parameters : List (Parameter Kind)} {body : Option (Block Kind)}
    (parametersShaped : ∀ parameter ∈ parameters, ∀ type ∈ parameter.type, type.Shaped tsxCatalog)
    (bodyShaped : BlockShaped body) (name : Option (Token Kind)) :
    StatementForm.Suits .function (.function name parameters body) := by
  refine suits_of_parts ⟨_, _, _, rfl⟩ (by simp [StatementForm.values]) (by simp [StatementForm.entries])
    (by simp [StatementForm.members]) ?_ ?_
  · intro type present
    obtain ⟨parameter, member, typed⟩ := List.mem_filterMap.mp present
    exact parametersShaped parameter member type typed
  · cases body with
    | none => simp [StatementForm.body]
    | some block => exact bodyShaped block rfl

theorem plain_suits : StatementForm.Suits .other .plain :=
  suits_of_parts trivial (by simp [StatementForm.values]) (by simp [StatementForm.entries])
    (by simp [StatementForm.members]) (by simp [StatementForm.types]) (by simp [StatementForm.body])

/-- A declaration is shaped if the kind it counts as is read like its own. -/
theorem declaration_succeeds (source : Bytes) (docs : List (DocComment Kind)) (modifiers : List (Token Kind))
    {kind own : Kind} {children : List Tree} {body : Except Malformed (Option (Block Kind))}
    (kindDeclares : Tree.isBareStatement kind.name = false) (ownDeclares : Tree.isBareStatement own.name = false)
    (sorts : DeclarationSort.of kind.name = DeclarationSort.of own.name)
    (below : ∀ child ∈ children, child.Everywhere Grammatical) (inside : Succeeds body BlockShaped) :
    Succeeds (declaration source docs modifiers kind own children body) fun statement =>
      statement.Shaped tsxCatalog := by
  rw [declaration]
  cases sort : DeclarationSort.of own.name with
  | classOf =>
    refine .bind (classForm_succeeds source below) ?_
    intro form suits
    exact .pure (suits kind docs modifiers kindDeclares (sorts.trans sort))
  | function =>
    refine .bind (parametersField_succeeds source children below) ?_
    intro parameters parametersShaped
    refine .bind inside ?_
    intro block blockShaped
    exact .pure (functionForm_suits parametersShaped blockShaped _ kind docs modifiers kindDeclares (sorts.trans sort))
  | interface =>
    refine .bind (interfaceForm_succeeds source below) ?_
    intro form suits
    exact .pure (suits own docs modifiers ownDeclares sort)
  | typeAlias =>
    refine .bind (typeAliasForm_succeeds source below) ?_
    intro form suits
    exact .pure (suits own docs modifiers ownDeclares sort)
  | other => exact .ok (plain_suits own docs modifiers ownDeclares sort)

theorem declaredKind?_sorts {own declared : Kind} {children : List Tree}
    (counts : declaredKind? own children = some declared) :
    Tree.isBareStatement declared.name = false ∧ Tree.isBareStatement own.name = false ∧
      DeclarationSort.of declared.name = DeclarationSort.of own.name := by
  unfold declaredKind? at counts
  split at counts
  · split at counts
    · rename_i name
      cases counts
      rw [name]
      exact ⟨rfl, rfl, rfl⟩
    split at counts
    · rename_i name
      cases counts
      rcases name with name | name
      all_goals
        rw [name]
        exact ⟨rfl, rfl, rfl⟩
    · cases counts
  · cases counts

theorem bare_shaped {statement : Statement Kind} (sort : StatementSort.of statement.kind.name ≠ .declaration)
    (stated : (StatementSort.of statement.kind.name).Fits statement.form)
    (values : ∀ value ∈ statement.form.values, value.Shaped tsxCatalog) (entries : statement.form.entries = [])
    (members : statement.form.members = []) (types : statement.form.types = []) (body : statement.form.body = []) :
    statement.Shaped tsxCatalog := by
  have announced : statement.Announced tsxCatalog := by
    apply announced_of_sorts stated
    rw [declarationSort_eq_other sort]
    exact trivial
  exact .node announced values (by simp [entries]) (by simp [members]) (by simp [types]) (by simp [body])

mutual

theorem statements_succeeds (source : Bytes) (docs : List (DocComment Kind)) : (trees : List Tree) →
    (∀ tree ∈ trees, tree.Everywhere Grammatical) →
    Succeeds (statements source docs trees) fun found => ∀ statement ∈ found, statement.Shaped tsxCatalog
  | [], _ => .ok (by simp)
  | ⟨kind, field, start, stop, children⟩ :: rest, below => by
    obtain ⟨here, later⟩ := List.forall_mem_cons.mp below
    rw [statements]
    split
    · exact statements_succeeds source _ rest later
    split
    · refine .bind (statement_succeeds source docs _ here) ?_
      intro first firstShaped
      refine .bind (statements_succeeds source [] rest later) ?_
      intro others othersShaped
      exact .pure (List.forall_mem_cons.mpr ⟨firstShaped, othersShaped⟩)
    · exact statements_succeeds source docs rest later

theorem statement_succeeds (source : Bytes) (docs : List (DocComment Kind)) : (tree : Tree) →
    tree.Everywhere Grammatical →
    Succeeds (statement source docs tree) fun statement => statement.Shaped tsxCatalog
  | ⟨kind, field, start, stop, children⟩, .node here below => by
    rw [statement]
    cases sort : StatementSort.of kind.name with
    | exporting =>
      have name := name_of_exporting sort
      refine .bind (exportedDeclaration_succeeds source docs _ children below (here.exported name)) ?_
      intro declared declaredShaped
      cases declared with
      | some declared => exact .pure (declaredShaped declared rfl)
      | none =>
        refine .bind (exportedValue_succeeds source docs _ sort children below) ?_
        intro value valueShaped
        cases value with
        | some value => exact .pure (valueShaped value rfl)
        | none =>
          refine .pure (bare_shaped (by simp [sort]) ?_ (by simp [StatementForm.values]) rfl rfl rfl rfl)
          rw [sort]
          exact trivial
    | importing =>
      refine .ok (bare_shaped (by simp [sort]) ?_ (by simp [importForm, StatementForm.values]) rfl rfl rfl rfl)
      rw [sort]
      exact ⟨_, _, rfl⟩
    | returning =>
      refine .ok (bare_shaped (by simp [sort]) ?_ ?_ rfl rfl rfl rfl)
      · rw [sort]
        exact ⟨_, rfl⟩
      · intro value present
        exact exprContent_shaped source children value (Option.mem_toList.mp present)
    | expression =>
      refine .ok (bare_shaped (by simp [sort]) ?_ ?_ rfl rfl rfl rfl)
      · rw [sort]
        exact ⟨_, rfl⟩
      · intro value present
        exact exprContent_shaped source children value (Option.mem_toList.mp present)
    | declaration =>
      have declares := not_bare_of_declaration sort
      exact declaration_succeeds source docs [] declares declares rfl below
        (functionBody_succeeds source children below)

theorem exportedDeclaration_succeeds (source : Bytes) (docs : List (DocComment Kind)) (modifiers : List (Token Kind)) :
    (trees : List Tree) → (∀ tree ∈ trees, tree.Everywhere Grammatical) →
    (∀ declared ∈ Tree.field? "declaration" trees, Tree.isBareStatement declared.kind.name = false) →
    Succeeds (exportedDeclaration source docs modifiers trees) fun found =>
      ∀ statement ∈ found, statement.Shaped tsxCatalog
  | [], _, _ => .ok (by simp)
  | ⟨kind, field, start, stop, children⟩ :: rest, below, declares => by
    obtain ⟨here, later⟩ := List.forall_mem_cons.mp below
    rw [exportedDeclaration]
    split
    · rename_i declaration
      have declared := declares ⟨kind, field, start, stop, children⟩ (by simp [Tree.field?, Tree.fills, declaration])
      have inside := Everywhere.children here
      have body := functionBody_succeeds source children inside
      refine (declaration_succeeds source docs modifiers declared declared rfl inside body).map ?_
      intro statement shaped
      simpa using shaped
    · rename_i other
      refine exportedDeclaration_succeeds source docs modifiers rest later ?_
      simpa [Tree.field?, Tree.fills, other] using declares

theorem exportedValue_succeeds (source : Bytes) (docs : List (DocComment Kind)) (modifiers : List (Token Kind))
    {outer : Kind} (exporting : StatementSort.of outer.name = .exporting) : (trees : List Tree) →
    (∀ tree ∈ trees, tree.Everywhere Grammatical) →
    Succeeds (exportedValue source docs modifiers outer trees) fun found =>
      ∀ statement ∈ found, statement.Shaped tsxCatalog
  | [], _ => .ok (by simp)
  | ⟨kind, field, start, stop, children⟩ :: rest, below => by
    obtain ⟨here, later⟩ := List.forall_mem_cons.mp below
    rw [exportedValue]
    split
    · split
      · rename_i declared counts
        obtain ⟨kindDeclares, ownDeclares, sorts⟩ := declaredKind?_sorts counts
        have inside := Everywhere.children here
        have body := functionBody_succeeds source children inside
        refine (declaration_succeeds source docs modifiers kindDeclares ownDeclares sorts inside body).map ?_
        intro statement shaped
        simpa using shaped
      · refine .ok ?_
        rintro statement ⟨⟩
        refine bare_shaped (by simp [exporting]) ?_ ?_ rfl rfl rfl rfl
        · rw [exporting]
          exact trivial
        · intro value present
          cases List.mem_singleton.mp present
          exact expr_shaped source _
    · exact exportedValue_succeeds source docs modifiers exporting rest later

theorem functionBody_succeeds (source : Bytes) : (trees : List Tree) →
    (∀ tree ∈ trees, tree.Everywhere Grammatical) → Succeeds (functionBody source trees) BlockShaped
  | [], _ => .ok (by simp [BlockShaped])
  | ⟨kind, field, start, stop, children⟩ :: rest, below => by
    obtain ⟨here, later⟩ := List.forall_mem_cons.mp below
    rw [functionBody]
    split
    · split
      · refine .bind (statements_succeeds source [] children (Everywhere.children here)) ?_
        intro found shaped
        exact .pure (by simpa [BlockShaped] using shaped)
      · exact .ok (by simp [BlockShaped])
    · exact functionBody_succeeds source rest later

end

theorem sourceFile_succeeds (source : Bytes) (fileName : RawText) {root : Tree} (holds : root.Everywhere Grammatical) :
    Succeeds (sourceFile source fileName root) fun file => file.Shaped tsxCatalog := by
  refine .bind (statements_succeeds source [] root.children (Everywhere.children holds)) ?_
  intro statements shaped
  exact .pure shaped

end Conversion

end ComponentDocs
