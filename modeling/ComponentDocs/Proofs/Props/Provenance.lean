import ComponentDocs.Proofs.Comments.Attachment
import ComponentDocs.Proofs.Props.Defaults
import ComponentDocs.Proofs.Shape.Reading
import ComponentDocs.Proofs.Yields

/-! Where props come from: every prop of every component describes a member that stands somewhere in the tree of the
file, whatever the tree looks like otherwise. -/

namespace ComponentDocs

open Utf8 (Bytes)

namespace Tree

inductive Within (node : Tree) : Tree → Prop where
  | self : node.Within node
  | child {tree child : Tree} (member : child ∈ tree.children) (inside : node.Within child) : node.Within tree

theorem Within.trans {node middle tree : Tree} (inner : node.Within middle) (outer : middle.Within tree) :
    node.Within tree := by
  induction outer with
  | self => exact inner
  | child member _ ih => exact .child member ih

mutual

theorem within_of_bare {inner : Tree} : (tree : Tree) → inner ∈ tree.bare → inner.Within tree
  | ⟨kind, field, start, stop, children⟩, left => by
    rw [bare] at left
    split at left
    · obtain ⟨child, member, inside⟩ := within_of_bareContent children left
      exact .child member inside
    · cases left
      exact .self

theorem within_of_bareContent {inner : Tree} : (trees : List Tree) → inner ∈ bareContent trees →
    ∃ tree ∈ trees, inner.Within tree
  | [], left => by cases left
  | first :: rest, left => by
    rw [bareContent] at left
    split at left
    · exact ⟨first, List.mem_cons_self, within_of_bare first left⟩
    · obtain ⟨tree, member, inside⟩ := within_of_bareContent rest left
      exact ⟨tree, List.mem_cons_of_mem _ member, inside⟩

end

theorem mem_of_field? {name : String} {nodes : List Tree} {node : Tree} (found : field? name nodes = some node) :
    node ∈ nodes :=
  List.mem_of_find?_eq_some found

end Tree

section Offers

variable {κ : Type}

def StatementForm.declared : StatementForm κ → List (Member κ)
  | .classOf _ _ members => members
  | .interface _ _ members => members
  | .typeAlias _ (some type) => type.members
  | _ => []

def HeritageEntry.applied (entry : HeritageEntry κ) : List (Member κ) :=
  (entry.arguments.filterMap id).flatMap (·.members)

def StatementForm.offers (form : StatementForm κ) : List (Member κ) :=
  form.declared ++ form.entries.flatMap HeritageEntry.applied

variable [DecidableEq κ] {catalog : Catalog κ}

theorem Statement.members_of_memberSource? {statement : Statement κ} {source : MemberSource κ}
    (found : statement.memberSource? catalog = .ok (some source)) : source.members = statement.form.declared := by
  rw [Statement.memberSource?] at found
  split at found
  · split at found
    · rename_i form
      cases found
      rw [form]
      rfl
    · rename_i form
      cases found
      rw [form]
      rfl
    · cases found
  split at found
  · split at found
    · rename_i type form
      split at found
      · cases found
        rw [form]
        rfl
      · cases found
    · cases found
    · cases found
  · cases found

theorem Statement.members_of_findMembers {name : String} {statements : List (Statement κ)} {source : MemberSource κ}
    (found : Statement.findMembers catalog name statements = .ok (some source)) :
    ∃ statement ∈ statements, source.members = statement.form.declared := by
  induction statements with
  | nil => cases found
  | cons first rest ih =>
    have later (found : Statement.findMembers catalog name rest = .ok (some source)) :
        ∃ statement ∈ first :: rest, source.members = statement.form.declared := by
      obtain ⟨statement, member, same⟩ := ih found
      exact ⟨statement, List.mem_cons_of_mem _ member, same⟩
    rw [Statement.findMembers] at found
    split at found
    · obtain ⟨here, read, found⟩ := ok_of_bind found
      cases here with
      | none => exact later found
      | some here =>
        cases found
        exact ⟨first, List.mem_cons_self, Statement.members_of_memberSource? read⟩
    · exact later found

namespace SourceFile

theorem declared_of_localMembers {file : SourceFile κ} {imports : Bindings String String} {depth : Nat} {name : String}
    {visited : List String} {found : List (Member κ) × List String}
    (computed : file.localMembers catalog imports depth name visited = .ok found) :
    ∀ member ∈ found.1, ∃ statement ∈ file.statements, member ∈ statement.form.declared := by
  induction depth generalizing name visited found with
  | zero =>
    cases computed
    simp
  | succ depth ih =>
    rw [SourceFile.localMembers] at computed
    split at computed
    · cases computed
      simp
    obtain ⟨searched, read, computed⟩ := ok_of_bind computed
    have own : ∀ source ∈ searched, ∀ member ∈ source.members,
        ∃ statement ∈ file.statements, member ∈ statement.form.declared := by
      rintro source ⟨⟩ member present
      obtain ⟨statement, inFile, same⟩ := Statement.members_of_findMembers read
      exact ⟨statement, inFile, same ▸ present⟩
    rcases searched with _ | ⟨members, bases⟩ | members
    · cases computed
      simp
    · -- a base only adds members that the search for it found
      apply invariant_of_foldlM (fun state : List (Member κ) × List String => ∀ member ∈ state.1,
        ∃ statement ∈ file.statements, member ∈ statement.form.declared) computed (own _ rfl)
      intro state base _ next kept stepped member present
      obtain ⟨⟨inherited, more⟩, searchedBase, stepped⟩ := ok_of_bind stepped
      cases stepped
      rcases mem_or_mem_of_mem_absorb present with old | added
      · exact kept member old
      · exact ih searchedBase member added
    · cases computed
      exact own _ rfl

theorem declared_of_membersOf {file : SourceFile κ} {name : String} {found : List (Member κ)}
    (computed : file.membersOf catalog name = .ok found) :
    ∀ member ∈ found, ∃ statement ∈ file.statements, member ∈ statement.form.declared := by
  obtain ⟨imports, -, computed⟩ := ok_of_bind computed
  split at computed
  · obtain ⟨searched, read, computed⟩ := ok_of_bind computed
    cases computed
    exact declared_of_localMembers read
  · cases computed
    simp

end SourceFile

theorem HeritageEntry.mem_of_findComponent {file : SourceFile κ} {entries : List (HeritageEntry κ)}
    {entry : HeritageEntry κ} (found : HeritageEntry.findComponent catalog file entries = .ok (some entry)) :
    entry ∈ entries := by
  induction entries with
  | nil => cases found
  | cons first rest ih =>
    obtain ⟨base, -, found⟩ := ok_of_bind found
    obtain ⟨matched, -, found⟩ := ok_of_bind found
    split at found
    · cases found
      exact List.mem_cons_self
    · exact List.mem_cons_of_mem _ (ih found)

theorem HeritageEntry.offered_of_propsMembers {file : SourceFile κ} {entry : HeritageEntry κ} {found : List (Member κ)}
    (computed : entry.propsMembers catalog file = .ok found) : ∀ member ∈ found,
      (∃ statement ∈ file.statements, member ∈ statement.form.declared) ∨ member ∈ entry.applied := by
  intro member present
  rw [HeritageEntry.propsMembers] at computed
  split at computed
  · rename_i type rest arguments
    split at computed
    · exact .inl (SourceFile.declared_of_membersOf computed member present)
    · cases computed
      split at present
      · right
        rw [HeritageEntry.applied, arguments]
        simp [present]
      · cases present
  · cases computed
    cases present

theorem SourceFile.offered_of_components {file : SourceFile κ} {path : RawText} {components : List Component}
    (computed : file.components catalog path = .ok components) {component : Component}
    (present : component ∈ components) {prop : PropDoc} (listed : prop ∈ component.props) :
    ∃ statement ∈ file.statements, ∃ member ∈ statement.form.offers, ∃ defaults,
      member.prop catalog defaults = .ok prop := by
  obtain ⟨each, yields⟩ := SourceFile.yields_of_components computed
  rw [yields] at present
  obtain ⟨statement, inFile, yielded⟩ := List.mem_filterMap.mp present
  have found : statement.component catalog file path = .ok (some component) := by
    rw [each statement inFile, yielded]
  rw [Statement.component] at found
  split at found
  · obtain ⟨heritage, members, entry, defaults, propsMembers, parts⟩ := Statement.parts_of_classComponent found
    obtain ⟨member, among, described⟩ := exists_left_of_forall₂ (forall₂_of_mapM parts.documented) listed
    have resolved : member ∈ propsMembers := (List.mem_filter.mp among).1
    rcases HeritageEntry.offered_of_propsMembers parts.resolved member resolved with ⟨other, inFile', declared⟩ | applied
    · exact ⟨other, inFile', member, List.mem_append_left _ declared, defaults, described⟩
    · obtain ⟨name, form⟩ := parts.form
      have entered : entry ∈ statement.form.entries := by
        rw [form]
        exact HeritageEntry.mem_of_findComponent parts.base
      exact ⟨statement, inFile, member, List.mem_append_right _ (List.mem_flatMap.mpr ⟨entry, entered, applied⟩),
        defaults, described⟩
  · split at found
    · rw [(Statement.parts_of_functionComponent found).2] at listed
      cases listed
    · cases found

end Offers

namespace Conversion

/-- A member is read from one of some nodes, or from a node below them. -/
def ReadIn (source : Bytes) (nodes : List Tree) (member : Member Kind) : Prop :=
  ∃ tree ∈ nodes, ∃ node : Tree, node.Within tree ∧ node.isMember = true ∧ MemberOf source node member

theorem ReadIn.outward {source : Bytes} {nodes : List Tree} {tree inner : Tree} {member : Member Kind}
    (read : ReadIn source inner.children member) (inside : inner.Within tree) (among : tree ∈ nodes) :
    ReadIn source nodes member := by
  obtain ⟨child, below, node, within, isMember, reads⟩ := read
  have innerWithin : node.Within inner := .child below within
  exact ⟨tree, among, node, innerWithin.trans inside, isMember, reads⟩

variable {source : Bytes} {nodes : List Tree}

theorem readIn_of_members {docs : List (DocComment Kind)} {found : List (Member Kind)}
    (read : members source docs nodes = .ok found) : ∀ member ∈ found, ReadIn source nodes member := by
  intro member present
  obtain ⟨node, among, reads⟩ := exists_left_of_forall₂ (members_forall₂ nodes docs found read) present
  obtain ⟨inside, isMember⟩ := List.mem_filter.mp among
  exact ⟨node, inside, node, .self, isMember, reads⟩

theorem readIn_of_type {tree : Tree} {found : TypeNode Kind} (among : tree ∈ nodes)
    (read : type source tree = .ok (some found)) : ∀ member ∈ found.members, ReadIn source nodes member := by
  intro member present
  rw [type_eq_bare] at read
  cases left : tree.bare with
  | none =>
    rw [left] at read
    cases read
  | some inner =>
    rw [left] at read
    obtain ⟨node, same, -, own⟩ := parts_of_type (Tree.not_wrapper_of_bare tree left) read
    cases same
    rcases own with none | readOwn
    · rw [none] at present
      cases present
    · exact (readIn_of_members readOwn member present).outward (Tree.within_of_bare tree left) among

theorem readIn_of_bodyMembers {found : List (Member Kind)} (read : bodyMembers source nodes = .ok found) :
    ∀ member ∈ found, ReadIn source nodes member := by
  intro member present
  rw [bodyMembers] at read
  split at read
  · cases read
    cases present
  · rename_i body filled
    exact (readIn_of_members read member present).outward .self (Tree.mem_of_field? filled)

def EntriesIn (source : Bytes) (nodes : List Tree) (entries : List (HeritageEntry Kind)) : Prop :=
  ∀ entry ∈ entries, ∀ member ∈ entry.applied, ReadIn source nodes member

theorem EntriesIn.outward {tree : Tree} {entries : List (HeritageEntry Kind)}
    (read : EntriesIn source tree.children entries) (among : tree ∈ nodes) : EntriesIn source nodes entries :=
  fun entry present member listed => (read entry present member listed).outward .self among

theorem readIn_of_types {list : Tree} {arguments : List (Option (TypeNode Kind))} (among : list ∈ nodes)
    (read : types source list.children = .ok arguments) (kind : Kind) (base : Option (Expr Kind)) :
    ∀ member ∈ HeritageEntry.applied ⟨kind, base, arguments⟩, ReadIn source nodes member := by
  intro member present
  obtain ⟨type, applied, listed⟩ := List.mem_flatMap.mp present
  obtain ⟨argument, present, same⟩ := List.mem_filterMap.mp applied
  obtain ⟨child, inside, readChild⟩ := exists_left_of_forall₂ (forall₂_of_mapM read) present
  cases same
  exact (readIn_of_type (List.mem_filter.mp inside).1 readChild member listed).outward .self among

theorem readIn_of_heritageEntry {kind : Kind} {tree : Tree} {entry : HeritageEntry Kind}
    (read : heritageEntry source kind tree = .ok entry) :
    ∀ member ∈ entry.applied, ReadIn source tree.children member := by
  have unapplied (base : Option (Expr Kind)) :
      ∀ member ∈ HeritageEntry.applied ⟨kind, base, []⟩, ReadIn source tree.children member := by
    intro member present
    cases present
  rw [heritageEntry] at read
  split at read
  · dsimp only at read
    split at read
    · cases read
      exact unapplied _
    · rename_i list last
      obtain ⟨arguments, readArguments, read⟩ := ok_of_bind read
      cases read
      have inside : list ∈ tree.children := (List.mem_filter.mp (List.mem_of_getLast? last)).1
      exact readIn_of_types inside readArguments _ _
  · cases read
    exact unapplied _

theorem entriesIn_of_heritageClause {tree : Tree} {clause : HeritageClause Kind}
    (read : heritageClause source tree = .ok clause) : EntriesIn source tree.children clause.entries := by
  obtain ⟨reversed, folded, read⟩ := ok_of_bind read
  cases read
  have all : EntriesIn source tree.children reversed := by
    apply invariant_of_foldlM (EntriesIn source tree.children) folded (fun entry present => by cases present)
    intro state child among next kept stepped
    have inside : child ∈ tree.children := (List.mem_filter.mp among).1
    rw [addHeritage.eq_def] at stepped
    split at stepped
    · split at stepped
      · cases stepped
        exact kept
      · obtain ⟨arguments, readArguments, stepped⟩ := ok_of_bind stepped
        cases stepped
        obtain ⟨-, others⟩ := List.forall_mem_cons.mp kept
        exact List.forall_mem_cons.mpr ⟨readIn_of_types inside readArguments _ _, others⟩
    · obtain ⟨entry, readEntry, stepped⟩ := ok_of_bind stepped
      cases stepped
      have first : ∀ member ∈ entry.applied, ReadIn source tree.children member :=
        fun member present => (readIn_of_heritageEntry readEntry member present).outward .self inside
      exact List.forall_mem_cons.mpr ⟨first, kept⟩
  exact fun entry present => all entry (List.mem_reverse.mp present)

theorem entriesIn_of_clauses {clauses : List Tree} {heritage : List (HeritageClause Kind)}
    (read : clauses.mapM (heritageClause source) = .ok heritage)
    (below : ∀ clause ∈ clauses, ∀ entries, EntriesIn source clause.children entries → EntriesIn source nodes entries) :
    EntriesIn source nodes (heritageEntries heritage) := by
  intro entry present
  obtain ⟨clause, among, listed⟩ := List.mem_flatMap.mp present
  obtain ⟨tree, inside, readClause⟩ := exists_left_of_forall₂ (forall₂_of_mapM read) among
  exact below tree inside clause.entries (entriesIn_of_heritageClause readClause) entry listed

theorem entriesIn_of_classHeritage {heritage : List (HeritageClause Kind)}
    (read : classHeritage source nodes = .ok heritage) : EntriesIn source nodes (heritageEntries heritage) := by
  apply entriesIn_of_clauses read
  intro clause among entries inner
  obtain ⟨holder, present, inside⟩ := List.mem_flatMap.mp among
  exact (inner.outward (List.mem_filter.mp inside).1).outward (List.mem_filter.mp present).1

theorem entriesIn_of_interfaceHeritage {heritage : List (HeritageClause Kind)}
    (read : interfaceHeritage source nodes = .ok heritage) : EntriesIn source nodes (heritageEntries heritage) := by
  apply entriesIn_of_clauses read
  exact fun clause among entries inner => inner.outward (List.mem_filter.mp among).1

def OffersIn (source : Bytes) (nodes : List Tree) (form : StatementForm Kind) : Prop :=
  ∀ member ∈ form.offers, ReadIn source nodes member

theorem OffersIn.outward {tree : Tree} {form : StatementForm Kind} (read : OffersIn source tree.children form)
    (among : tree ∈ nodes) : OffersIn source nodes form :=
  fun member present => (read member present).outward .self among

theorem offersIn_of_parts {form : StatementForm Kind} (declared : ∀ member ∈ form.declared, ReadIn source nodes member)
    (entries : EntriesIn source nodes form.entries) : OffersIn source nodes form := by
  intro member present
  rcases List.mem_append.mp present with own | applied
  · exact declared member own
  · obtain ⟨entry, among, listed⟩ := List.mem_flatMap.mp applied
    exact entries entry among member listed

theorem offersIn_of_nothing {form : StatementForm Kind} (nothing : form.offers = []) : OffersIn source nodes form := by
  intro member present
  rw [nothing] at present
  cases present

theorem offersIn_of_declaration {docs : List (DocComment Kind)} {modifiers : List (Token Kind)} {kind own : Kind}
    {body : Except Malformed (Option (Block Kind))} {found : Statement Kind}
    (read : declaration source docs modifiers kind own nodes body = .ok found) : OffersIn source nodes found.form := by
  rw [declaration] at read
  cases sort : DeclarationSort.of own.name with
  | classOf =>
    simp only [sort] at read
    obtain ⟨form, readForm, read⟩ := ok_of_bind read
    obtain ⟨heritage, readHeritage, readForm⟩ := ok_of_bind readForm
    obtain ⟨members, readMembers, readForm⟩ := ok_of_bind readForm
    cases readForm
    cases read
    exact offersIn_of_parts (readIn_of_bodyMembers readMembers) (entriesIn_of_classHeritage readHeritage)
  | function =>
    simp only [sort] at read
    obtain ⟨parameters, -, read⟩ := ok_of_bind read
    obtain ⟨block, -, read⟩ := ok_of_bind read
    cases read
    exact offersIn_of_nothing rfl
  | interface =>
    simp only [sort] at read
    obtain ⟨form, readForm, read⟩ := ok_of_bind read
    obtain ⟨heritage, readHeritage, readForm⟩ := ok_of_bind readForm
    obtain ⟨members, readMembers, readForm⟩ := ok_of_bind readForm
    cases readForm
    cases read
    exact offersIn_of_parts (readIn_of_bodyMembers readMembers) (entriesIn_of_interfaceHeritage readHeritage)
  | typeAlias =>
    simp only [sort] at read
    obtain ⟨form, readForm, read⟩ := ok_of_bind read
    obtain ⟨type, readType, readForm⟩ := ok_of_bind readForm
    cases readForm
    cases read
    rw [typeField_eq] at readType
    cases type with
    | none => exact offersIn_of_nothing rfl
    | some type =>
      split at readType
      · cases readType
      · rename_i value filled
        exact offersIn_of_parts (readIn_of_type (Tree.mem_of_field? filled) readType)
          (fun entry present => by cases present)
  | other =>
    simp only [sort] at read
    cases read
    exact offersIn_of_nothing rfl

theorem offersIn_of_statement {docs : List (DocComment Kind)} {tree : Tree} {found : Statement Kind}
    (read : statement source docs tree = .ok found) : OffersIn source tree.children found.form := by
  cases readFrom_of_statement read with
  | declared place readNode =>
    have inside := offersIn_of_declaration readNode
    rcases place with rfl | among
    · exact inside
    · exact inside.outward among
  | bare _ bare =>
    apply offersIn_of_nothing
    generalize found.form = form at bare ⊢
    cases form with
    | classOf | function | interface | typeAlias => cases bare
    | _ => rfl

/-- A prop describes the member that a node of a tree declares. -/
structure PropOf (source : Bytes) (root node : Tree) (prop : PropDoc) : Prop where
  within : node.Within root
  isMember : node.isMember = true
  described : ∃ member defaults, MemberOf source node member ∧ member.prop tsxCatalog defaults = .ok prop

theorem propOf_of_components {fileName path : RawText} {root : Tree} {file : SourceFile Kind}
    {components : List Component} (read : sourceFile source fileName root = .ok file)
    (computed : file.components tsxCatalog path = .ok components) {component : Component}
    (present : component ∈ components) {prop : PropDoc} (listed : prop ∈ component.props) :
    ∃ node, PropOf source root node prop := by
  obtain ⟨statements, readStatements, read⟩ := ok_of_bind read
  cases read
  obtain ⟨statement, inFile, member, offered, defaults, described⟩ :=
    SourceFile.offered_of_components computed present listed
  obtain ⟨child, among, readStatement⟩ := exists_left_of_forall₂ (statements_forall₂ readStatements) inFile
  have inside : child ∈ root.children := (List.mem_filter.mp among).1
  obtain ⟨tree, below, node, within, isMember, reads⟩ :=
    (offersIn_of_statement readStatement).outward inside member offered
  exact ⟨node, .child below within, isMember, member, defaults, reads, described⟩

end Conversion

end ComponentDocs
