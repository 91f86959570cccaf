import ComponentDocs.Conversion.Statement
import ComponentDocs.Proofs.Success

/-! Which statement a doc comment is attached to. Seen from a statement, its doc comments are what a walk back over the
siblings in front of it finds. Seen from the file, these walks share out the doc comments among the statements. -/

namespace ComponentDocs

def Tree.throughLast (trees : List Tree) : List Tree := Text.dropEndWhile (fun tree => !tree.isContent) trees

theorem Tree.not_content_of_comment {tree : Tree} (comment : tree.isComment) : tree.isContent = false := by
  rw [Tree.isContent, comment]
  exact Bool.and_false _

theorem Tree.token_of_layout {tree : Tree} (layout : tree.isContent = false) (notComment : ¬ tree.isComment) :
    ¬ tree.kind.named := by
  intro named
  rw [Tree.isContent, named, Bool.true_and, Bool.not_eq_eq_eq_not] at layout
  exact notComment layout

theorem Tree.throughLast_content {first : Tree} (rest : List Tree) (content : first.isContent) :
    Tree.throughLast (first :: rest) = first :: Tree.throughLast rest := by
  rw [Tree.throughLast, Text.dropEndWhile]
  cases last : Text.dropEndWhile (fun tree => !tree.isContent) rest with
  | nil => simp [Tree.throughLast, last, content]
  | cons _ _ => simp [Tree.throughLast, last]

theorem Tree.throughLast_layout {first : Tree} (rest : List Tree) (layout : first.isContent = false) :
    Tree.throughLast (first :: rest) =
      if Tree.throughLast rest = [] then [] else first :: Tree.throughLast rest := by
  rw [Tree.throughLast, Text.dropEndWhile]
  cases last : Text.dropEndWhile (fun tree => !tree.isContent) rest with
  | nil => simp [Tree.throughLast, last, layout]
  | cons _ _ => simp [Tree.throughLast, last]

def StatementForm.isDeclaration : StatementForm Kind → Bool
  | .classOf _ _ _ | .function _ _ _ | .interface _ _ _ | .typeAlias _ _ => true
  | _ => false

namespace Conversion

open Utf8 (Bytes)

/-- What a walk back over the siblings of a node finds, nearest first: it passes over comments and tokens, keeps the doc
comments, and ends at any other node. -/
def walkBack (source : Bytes) : (siblings : List Tree) → List (DocComment Kind)
  | [] => []
  | sibling :: further =>
    if sibling.isComment then (docComment? source sibling).toList ++ walkBack source further
    else if sibling.kind.named then []
    else walkBack source further

def docsBefore (source : Bytes) (before : List Tree) : List (DocComment Kind) :=
  (walkBack source before.reverse).reverse

def docsAmong (source : Bytes) (trees : List Tree) : List (DocComment Kind) :=
  (trees.filter Tree.isComment).filterMap (docComment? source)

theorem docsAmong_append (source : Bytes) (front back : List Tree) :
    docsAmong source (front ++ back) = docsAmong source front ++ docsAmong source back := by
  rw [docsAmong, List.filter_append, List.filterMap_append]
  rfl

theorem docsAmong_cons (source : Bytes) (first : Tree) (rest : List Tree) :
    docsAmong source (first :: rest) = docsAmong source [first] ++ docsAmong source rest :=
  docsAmong_append source [first] rest

theorem docsAmong_comment (source : Bytes) {tree : Tree} (comment : tree.isComment) :
    docsAmong source [tree] = (docComment? source tree).toList := by
  rw [docsAmong, List.filter_cons_of_pos comment, List.filter_nil, List.filterMap_cons]
  cases docComment? source tree <;> rfl

theorem docsAmong_other (source : Bytes) {tree : Tree} (notComment : ¬ tree.isComment) :
    docsAmong source [tree] = [] := by
  rw [docsAmong, List.filter_cons_of_neg notComment]
  rfl

theorem docsBefore_content (source : Bytes) (before : List Tree) {sibling : Tree} (content : sibling.isContent) :
    docsBefore source (before ++ [sibling]) = [] := by
  obtain ⟨named, notComment⟩ := Bool.and_eq_true_iff.mp content
  rw [docsBefore, List.reverse_concat, walkBack, if_neg (by simpa using notComment), if_pos named]
  rfl

theorem docsBefore_layout (source : Bytes) (before : List Tree) {sibling : Tree} (layout : sibling.isContent = false) :
    docsBefore source (before ++ [sibling]) = docsBefore source before ++ docsAmong source [sibling] := by
  rw [docsBefore, List.reverse_concat, walkBack]
  by_cases comment : sibling.isComment
  · rw [if_pos comment, docsAmong_comment source comment, List.reverse_append]
    cases docComment? source sibling <;> rfl
  · rw [if_neg comment, if_neg (Tree.token_of_layout layout comment), docsAmong_other source comment, List.append_nil]
    rfl

theorem docsBefore_append (source : Bytes) (front between : List Tree)
    (layout : ∀ sibling ∈ between, sibling.isContent = false) :
    docsBefore source (front ++ between) = docsBefore source front ++ docsAmong source between := by
  induction between generalizing front with
  | nil => simp [docsAmong]
  | cons sibling further ih =>
    have later := ih (front ++ [sibling]) fun other member => layout other (List.mem_cons_of_mem _ member)
    rw [List.append_assoc, List.singleton_append] at later
    rw [later, docsBefore_layout source front (layout sibling List.mem_cons_self),
      docsAmong_cons source sibling further, List.append_assoc]

theorem declaration_docs {source : Bytes} {docs : List (DocComment Kind)} {modifiers : List (Token Kind)}
    {kind own : Kind} {children : List Tree} {body : Except Malformed (Option (Block Kind))} {found : Statement Kind}
    (read : declaration source docs modifiers kind own children body = .ok found) : found.docs = docs := by
  rw [declaration] at read
  cases sort : DeclarationSort.of own.name with
  | classOf | interface | typeAlias =>
    simp only [sort] at read
    obtain ⟨form, -, read⟩ := ok_of_bind read
    cases read
    rfl
  | function =>
    simp only [sort] at read
    obtain ⟨parameters, -, read⟩ := ok_of_bind read
    obtain ⟨block, -, read⟩ := ok_of_bind read
    cases read
    rfl
  | other =>
    simp only [sort] at read
    cases read
    rfl

/-- What a statement is read from: a declaration, which is the node itself or exported by it, or else something that
declares nothing. -/
inductive ReadFrom (source : Bytes) (docs : List (DocComment Kind)) (tree : Tree) (found : Statement Kind) : Prop
  | declared {node : Tree} {modifiers : List (Token Kind)} {kind : Kind} (place : node = tree ∨ node ∈ tree.children)
      (read : declaration source docs modifiers kind node.kind node.children (functionBody source node.children) =
        .ok found)
  | bare (docs : found.docs = docs) (bare : found.form.isDeclaration = false)

theorem exportedDeclaration_from {source : Bytes} {docs : List (DocComment Kind)} {modifiers : List (Token Kind)}
    {found : Statement Kind} : (nodes : List Tree) →
    exportedDeclaration source docs modifiers nodes = .ok (some found) → ∃ node ∈ nodes,
      declaration source docs modifiers node.kind node.kind node.children (functionBody source node.children) = .ok found
  | [], read => by cases read
  | ⟨kind, field, start, stop, children⟩ :: rest, read => by
    rw [exportedDeclaration] at read
    split at read
    · obtain ⟨declared, readDeclared, same⟩ := ok_of_map read
      cases same
      exact ⟨_, List.mem_cons_self, readDeclared⟩
    · obtain ⟨node, among, readLater⟩ := exportedDeclaration_from rest read
      exact ⟨node, List.mem_cons_of_mem _ among, readLater⟩

theorem exportedValue_from {source : Bytes} {docs : List (DocComment Kind)} {modifiers : List (Token Kind)}
    {outer : Kind} {found : Statement Kind} : (nodes : List Tree) →
    exportedValue source docs modifiers outer nodes = .ok (some found) →
    (∃ node ∈ nodes, ∃ kind, declaration source docs modifiers kind node.kind node.children
      (functionBody source node.children) = .ok found) ∨ found.docs = docs ∧ found.form.isDeclaration = false
  | [], read => by cases read
  | ⟨kind, field, start, stop, children⟩ :: rest, read => by
    rw [exportedValue] at read
    split at read
    · split at read
      · rename_i declared _
        obtain ⟨statement, readDeclared, same⟩ := ok_of_map read
        cases same
        exact .inl ⟨_, List.mem_cons_self, declared, readDeclared⟩
      · cases read
        exact .inr ⟨rfl, rfl⟩
    · rcases exportedValue_from rest read with ⟨node, among, declared, readLater⟩ | bare
      · exact .inl ⟨node, List.mem_cons_of_mem _ among, declared, readLater⟩
      · exact .inr bare

theorem readFrom_of_statement {source : Bytes} {docs : List (DocComment Kind)} {tree : Tree} {found : Statement Kind}
    (read : statement source docs tree = .ok found) : ReadFrom source docs tree found := by
  obtain ⟨kind, field, start, stop, children⟩ := tree
  rw [statement] at read
  cases sort : StatementSort.of kind.name with
  | exporting =>
    simp only [sort] at read
    obtain ⟨declared, readDeclaration, read⟩ := ok_of_bind read
    cases declared with
    | some declared =>
      cases read
      obtain ⟨node, among, readNode⟩ := exportedDeclaration_from children readDeclaration
      exact .declared (.inr among) readNode
    | none =>
      obtain ⟨value, readValue, read⟩ := ok_of_bind read
      cases value with
      | some value =>
        cases read
        rcases exportedValue_from children readValue with ⟨node, among, declared, readNode⟩ | ⟨same, bare⟩
        · exact .declared (.inr among) readNode
        · exact .bare same bare
      | none =>
        cases read
        exact .bare rfl rfl
  | importing | returning | expression =>
    simp only [sort] at read
    cases read
    exact .bare rfl rfl
  | declaration =>
    simp only [sort] at read
    exact .declared (.inl rfl) read

theorem statement_docs {source : Bytes} {docs : List (DocComment Kind)} {tree : Tree} {found : Statement Kind}
    (read : statement source docs tree = .ok found) : found.docs = docs := by
  cases readFrom_of_statement read with
  | declared _ readNode => exact declaration_docs readNode
  | bare same _ => exact same

theorem statements_cons (source : Bytes) (docs : List (DocComment Kind)) (first : Tree) (rest : List Tree) :
    statements source docs (first :: rest) =
      if first.isComment then statements source (docs ++ (docComment? source first).toList) rest
      else if first.kind.named then do
        return (← statement source docs first) :: (← statements source [] rest)
      else statements source docs rest := by
  obtain ⟨kind, field, start, stop, children⟩ := first
  rw [statements]
  simp only [Tree.isComment, beq_iff_eq]

theorem statements_of_content {source : Bytes} {docs : List (DocComment Kind)} {first : Tree} {rest : List Tree}
    {found : List (Statement Kind)} (content : first.isContent)
    (read : statements source docs (first :: rest) = .ok found) :
    ∃ here later, found = here :: later ∧ here.docs = docs ∧ statement source here.docs first = .ok here ∧
      statements source [] rest = .ok later := by
  obtain ⟨named, notComment⟩ := Bool.and_eq_true_iff.mp content
  rw [statements_cons, if_neg (by simpa using notComment), if_pos named] at read
  obtain ⟨here, readHere, read⟩ := ok_of_bind read
  obtain ⟨later, readLater, read⟩ := ok_of_bind read
  cases read
  have docsHere := statement_docs readHere
  exact ⟨here, later, rfl, docsHere, by rw [docsHere]; exact readHere, readLater⟩

theorem statements_of_layout (source : Bytes) (docs : List (DocComment Kind)) {first : Tree} (rest : List Tree)
    (layout : first.isContent = false) :
    statements source docs (first :: rest) = statements source (docs ++ docsAmong source [first]) rest := by
  rw [statements_cons]
  by_cases comment : first.isComment
  · rw [if_pos comment, docsAmong_comment source comment]
  · rw [if_neg comment, if_neg (Tree.token_of_layout layout comment), docsAmong_other source comment, List.append_nil]

theorem statements_forall₂ {source : Bytes} {docs : List (DocComment Kind)} {trees : List Tree}
    {found : List (Statement Kind)} (read : statements source docs trees = .ok found) :
    List.Forall₂ (fun child attached => statement source attached.docs child = .ok attached)
      (trees.filter Tree.isContent) found := by
  induction trees generalizing docs found with
  | nil =>
    cases read
    exact .nil
  | cons first rest ih =>
    by_cases content : first.isContent
    · obtain ⟨here, later, rfl, -, readHere, readLater⟩ := statements_of_content content read
      rw [List.filter_cons_of_pos content]
      exact .cons readHere (ih readLater)
    · rw [statements_of_layout source docs rest (Bool.not_eq_true _ ▸ content)] at read
      rw [List.filter_cons_of_neg content]
      exact ih read

theorem docs_of_statements {source : Bytes} {docs : List (DocComment Kind)} {trees : List Tree}
    {found : List (Statement Kind)} (read : statements source docs trees = .ok found) :
    found.flatMap (·.docs) =
      if Tree.throughLast trees = [] then [] else docs ++ docsAmong source (Tree.throughLast trees) := by
  induction trees generalizing docs found with
  | nil =>
    cases read
    rfl
  | cons first rest ih =>
    by_cases content : first.isContent
    · obtain ⟨here, later, rfl, docsHere, -, readLater⟩ := statements_of_content content read
      have notComment : ¬ first.isComment := by simpa using (Bool.and_eq_true_iff.mp content).2
      rw [List.flatMap_cons, ih readLater, docsHere, Tree.throughLast_content rest content,
        if_neg (List.cons_ne_nil _ _), docsAmong_cons source first, docsAmong_other source notComment, List.nil_append]
      -- nothing is under way after a statement, so the rest gives no more than its own
      by_cases last : Tree.throughLast rest = []
      · rw [if_pos last, last]
        rfl
      · rw [if_neg last]
    · have layout : first.isContent = false := Bool.not_eq_true _ ▸ content
      rw [statements_of_layout source docs rest layout] at read
      rw [ih read, Tree.throughLast_layout rest layout]
      by_cases last : Tree.throughLast rest = []
      · rw [if_pos last, if_pos last, if_pos rfl]
      · rw [if_neg last, if_neg last, if_neg (List.cons_ne_nil _ _),
          docsAmong_cons source first (Tree.throughLast rest), List.append_assoc]

/-- What is under way at any point is what a walk back from there finds, so every statement has what its own walk
finds. -/
theorem statement_of_split {source : Bytes} (front : List Tree) {before after : List Tree} {child : Tree}
    {found : List (Statement Kind)} (content : child.isContent)
    (read : statements source (docsBefore source front) (before ++ child :: after) = .ok found) :
    ∃ attached, found[(before.filter Tree.isContent).length]? = some attached ∧
      statement source attached.docs child = .ok attached ∧ attached.docs = docsBefore source (front ++ before) := by
  induction before generalizing front found with
  | nil =>
    obtain ⟨here, later, rfl, docsHere, readHere, -⟩ := statements_of_content content read
    rw [List.append_nil]
    exact ⟨here, rfl, readHere, docsHere⟩
  | cons sibling further ih =>
    rw [List.cons_append] at read
    rw [← List.singleton_append, ← List.append_assoc]
    by_cases passed : sibling.isContent
    · obtain ⟨here, later, rfl, -, -, readLater⟩ := statements_of_content passed read
      rw [← docsBefore_content source front passed] at readLater
      rw [List.singleton_append, List.filter_cons_of_pos passed, List.length_cons, List.getElem?_cons_succ]
      exact ih _ readLater
    · have layout : sibling.isContent = false := Bool.not_eq_true _ ▸ passed
      rw [statements_of_layout source _ _ layout, ← docsBefore_layout source front layout] at read
      rw [List.singleton_append, List.filter_cons_of_neg passed]
      exact ih _ read

/-- The doc comments among the children of a file are shared out to its statements. -/
structure SharedOut (source : Bytes) (children : List Tree) (statements : List (Statement Kind)) : Prop where
  each : List.Forall₂ (fun child attached => statement source attached.docs child = .ok attached)
    (children.filter Tree.isContent) statements
  all : statements.flatMap (·.docs) = docsAmong source (Tree.throughLast children)
  /-- A statement has those that a walk back from its own node finds. -/
  own : ∀ before child after, children = before ++ child :: after → child.isContent →
    ∃ attached, statements[(before.filter Tree.isContent).length]? = some attached ∧
      statement source attached.docs child = .ok attached ∧ attached.docs = docsBefore source before
  /-- A comment goes to the first statement after it. -/
  next : ∀ front comment between child after, children = front ++ comment :: (between ++ child :: after) →
    comment.isComment → (∀ sibling ∈ between, sibling.isContent = false) → child.isContent →
    ∃ attached, statements[(front.filter Tree.isContent).length]? = some attached ∧
      statement source attached.docs child = .ok attached ∧
      attached.docs = docsBefore source front ++ (docComment? source comment).toList ++ docsAmong source between

theorem sharedOut_of_statements {source : Bytes} {children : List Tree} {found : List (Statement Kind)}
    (read : statements source [] children = .ok found) : SharedOut source children found where
  each := statements_forall₂ read
  all := by
    rw [docs_of_statements read]
    by_cases last : Tree.throughLast children = []
    · rw [if_pos last, last]
      rfl
    · rw [if_neg last, List.nil_append]
  own := by
    intro before child after split content
    rw [split] at read
    exact statement_of_split [] content read
  next := by
    intro front comment between child after split isComment layout content
    have whole : children = (front ++ comment :: between) ++ child :: after := by
      rw [split, List.append_assoc, List.cons_append]
    have notContent := Tree.not_content_of_comment isComment
    have noStatement : ∀ sibling ∈ comment :: between, sibling.isContent = false :=
      List.forall_mem_cons.mpr ⟨notContent, layout⟩
    have position : (front ++ comment :: between).filter Tree.isContent = front.filter Tree.isContent := by
      have none : (comment :: between).filter Tree.isContent = [] :=
        List.filter_eq_nil_iff.mpr (by simpa using noStatement)
      rw [List.filter_append, none, List.append_nil]
    rw [whole] at read
    obtain ⟨attached, present, readChild, docs⟩ := statement_of_split [] content read
    refine ⟨attached, ?_, readChild, ?_⟩
    · rw [← position]
      exact present
    · rw [docs, List.nil_append, docsBefore_append source front _ noStatement, docsAmong_cons source comment,
        docsAmong_comment source isComment, List.append_assoc]

end Conversion

open Conversion in
/-- Every doc comment in front of the last statement of a file is attached to exactly one statement, which is the first
one after it, whatever the statement is read as. -/
theorem doc_comments_shared_out {source : Utf8.Bytes} {fileName : RawText} {root : Tree} {file : SourceFile Kind}
    (read : sourceFile source fileName root = .ok file) : SharedOut source root.children file.statements := by
  obtain ⟨found, readStatements, same⟩ := ok_of_bind read
  cases same
  exact sharedOut_of_statements readStatements

def notedSource : Utf8.Bytes := Utf8.encode "/**a*/import'x';/*-*//**b*/;/**c*/export default y/**d*/".toList

def notedTree : Tree :=
  ⟨.node "program", none, 0, 56,
    [⟨.node "comment", none, 0, 6, []⟩,
      ⟨.node "import_statement", none, 6, 16,
        [⟨.keyword "import", none, 6, 12, []⟩, ⟨.node "string", some "source", 12, 15, []⟩,
          ⟨.keyword ";", none, 15, 16, []⟩]⟩,
      ⟨.node "comment", none, 16, 21, []⟩, ⟨.keyword "comment", none, 21, 27, []⟩, ⟨.keyword ";", none, 27, 28, []⟩,
      ⟨.node "comment", none, 28, 34, []⟩,
      ⟨.node "export_statement", none, 34, 50,
        [⟨.keyword "export", none, 34, 40, []⟩, ⟨.keyword "default", none, 41, 48, []⟩,
          ⟨.node "identifier", some "value", 49, 50, []⟩]⟩,
      ⟨.node "comment", none, 50, 56, []⟩]⟩

open Conversion in
theorem noted_comments_shared_out :
    ∃ file, sourceFile notedSource "" notedTree = .ok file ∧
      SharedOut notedSource notedTree.children file.statements ∧
      file.statements.map (fun statement => statement.docs.map (·.text)) = [["a"], ["b", "c"]] := by
  obtain ⟨file, read⟩ : ∃ file, sourceFile notedSource "" notedTree = .ok file := ⟨_, rfl⟩
  refine ⟨file, read, doc_comments_shared_out read, ?_⟩
  cases read
  decide

end ComponentDocs
