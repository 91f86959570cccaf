import ComponentDocs.Proofs.Types.Schema

namespace ComponentDocs

open Utf8 (Bytes)

namespace Tree

instance : DecidablePred IsLiteral := fun _ => inferInstanceAs (Decidable (_ ∨ _))

/-- What the grammar promises about the types in a signature: a predefined type begins with its keyword, a generic type
has a name, a literal type has a literal in it, and what stands in the place of a type is a node. -/
structure TypeGrammar (tree : Tree) : Prop where
  keyword : tree.kind.name = "predefined_type" → ∃ keyword ∈ tree.children.head?, keyword.kind.named = false
  generic : tree.kind.name = "generic_type" → (field? "name" tree.children).isSome ∨ (content? tree.children).isSome
  literal : tree.kind.name = "literal_type" → ∃ inner ∈ content? tree.children, inner.IsLiteral
  typed : ∀ child ∈ tree.children, child.fills "type" ∨ child.fills "return_type" → child.kind.named

instance : DecidablePred TypeGrammar := fun _ =>
  decidable_of_iff (_ ∧ _ ∧ _ ∧ _)
    ⟨fun ⟨keyword, generic, literal, typed⟩ => ⟨keyword, generic, literal, typed⟩,
      fun ⟨keyword, generic, literal, typed⟩ => ⟨keyword, generic, literal, typed⟩⟩

theorem field?_cons (name : String) (first : Tree) (rest : List Tree) :
    field? name (first :: rest) = if first.fills name then some first else field? name rest := by
  rw [field?, List.find?_cons]
  cases first.fills name <;> rfl

theorem isParameter_eq (tree : Tree) : tree.isParameter =
    (tree.kind.named && (tree.kind.name == "required_parameter" || tree.kind.name == "optional_parameter")) := by
  obtain ⟨⟨name, named⟩, field, start, stop, children⟩ := tree
  cases named <;> simp [isParameter, Kind.node, Bool.beq_eq_decide_eq]

end Tree

namespace Conversion

open ComponentDocs.Tree (Everywhere TypeGrammar)

theorem bare_of_plain {tree : Tree} (plain : TypeSort.of tree.kind.name ≠ .wrapper) : tree.bare = some tree := by
  obtain ⟨kind, field, start, stop, children⟩ := tree
  rw [Tree.bare]
  exact if_neg fun wraps => plain (typeSort_of_wrapper wraps)

abbrev Reads (source : Bytes) : Option Tree → Option (TypeNode Kind) → Prop := Option.Rel (Documented source)

theorem typeNameOf_reads {source : Bytes} {tree : Option Tree} {found : Option (TypeNode Kind)}
    (reads : Reads source tree found) : tsxCatalog.typeNameOf found = Tree.simpleNameOf tree := by
  cases reads with
  | none => rfl
  | some documented => exact documented.typeName

theorem tokenField_text (source : Bytes) (name : String) (nodes : List Tree) :
    (tokenField source name nodes).map (·.text) = (Tree.field? name nodes).map (Tree.nameText source) :=
  Option.map_map ..

mutual

theorem type_documented (source : Bytes) : (tree : Tree) → tree.Everywhere TypeGrammar → tree.kind.named →
    Succeeds (type source tree) (Reads source tree.bare)
  | ⟨kind, field, start, stop, children⟩, .node here below, named => by
    rw [type]
    cases sort : TypeSort.of kind.name with
    | wrapper =>
      rw [Tree.bare, if_pos (Or.symm (names_of_typeSort sort))]
      exact typeContent_documented source children below
    | predefined =>
      rw [bare_of_plain (by simp [sort])]
      obtain ⟨keyword, first, anonymous⟩ := here.keyword (names_of_typeSort sort)
      rw [Option.mem_def] at first
      dsimp only at first ⊢
      rw [first]
      exact .ok (.some (predefined_documented source _ (names_of_typeSort sort) first anonymous))
    | reference =>
      rw [bare_of_plain (by simp [sort])]
      refine .ok (.some (reference_documented _ ?_ named))
      rcases names_of_typeSort sort with name | name
      all_goals
        rw [Tree.referenceName, name]
        rfl
    | generic =>
      rw [bare_of_plain (by simp [sort])]
      dsimp only
      cases written : (Tree.field? "name" children).or (Tree.content? children) with
      | none =>
        obtain ⟨noName, noContent⟩ := Option.or_eq_none_iff.mp written
        rcases here.generic (names_of_typeSort sort) with present | present
        · simp [noName] at present
        · simp [noContent] at present
      | some name =>
        refine .ok (.some (reference_documented _ ?_ named))
        rw [Tree.referenceName, names_of_typeSort sort]
        exact congrArg (Option.map (Tree.text source)) written
    | union =>
      rw [bare_of_plain (by simp [sort])]
      have union : kind = .node "union_type" := Kind.eq_node named (names_of_typeSort sort)
      refine .bind (unionBranches_documented source children below) ?_
      intro entries each
      refine .pure (.some (union_documented _ union ?_))
      rw [Tree.branches_of_union union]
      exact each
    | function =>
      rw [bare_of_plain (by simp [sort])]
      have function : kind = .node "function_type" := Kind.eq_node named (names_of_typeSort sort)
      refine .bind (parametersField_documented source children below) ?_
      intro parameters listed
      refine .bind (typeField_documented source "return_type" children below ?_) ?_
      · intro child member fills
        exact here.typed child member (.inr fills)
      · intro result reads
        refine .pure (.some (function_documented _ function ?_))
        rw [listed, typeNameOf_reads reads]
        rfl
    | literal =>
      rw [bare_of_plain (by simp [sort])]
      have literal : kind = .node "literal_type" := Kind.eq_node named (names_of_typeSort sort)
      obtain ⟨inner, content, literally⟩ := here.literal (names_of_typeSort sort)
      exact .ok (.some (literal_documented source _ literal content literally))
    | object =>
      rw [bare_of_plain (by simp [sort])]
      refine .bind (members_return source [] children below) ?_
      intro members _
      exact .pure (.some (node_documented source named (.inl sort) rfl rfl))
    | other =>
      rw [bare_of_plain (by simp [sort])]
      exact .ok (.some (node_documented source named (.inr sort) rfl rfl))

theorem typeContent_documented (source : Bytes) : (trees : List Tree) →
    (∀ tree ∈ trees, tree.Everywhere TypeGrammar) →
    Succeeds (typeContent source trees) (Reads source (Tree.bareContent trees))
  | [], _ => .ok .none
  | first :: rest, below => by
    obtain ⟨here, later⟩ := List.forall_mem_cons.mp below
    rw [typeContent, Tree.bareContent]
    by_cases content : first.isContent
    · rw [if_pos content, if_pos content]
      exact type_documented source first here (Bool.and_eq_true_iff.mp content).1
    · rw [if_neg content, if_neg content]
      exact typeContent_documented source rest later

theorem typeField_documented (source : Bytes) (name : String) : (trees : List Tree) →
    (∀ tree ∈ trees, tree.Everywhere TypeGrammar) → (∀ tree ∈ trees, tree.fills name → tree.kind.named) →
    Succeeds (typeField source name trees) (Reads source (Tree.bareField name trees))
  | [], _, _ => .ok .none
  | first :: rest, below, named => by
    obtain ⟨here, later⟩ := List.forall_mem_cons.mp below
    obtain ⟨firstNamed, laterNamed⟩ := List.forall_mem_cons.mp named
    rw [typeField, Tree.bareField, Tree.field?_cons]
    by_cases fills : first.fills name
    · rw [if_pos fills, if_pos fills]
      exact type_documented source first here (firstNamed fills)
    · rw [if_neg fills, if_neg fills]
      exact typeField_documented source name rest later laterNamed

theorem unionBranches_documented (source : Bytes) : (trees : List Tree) →
    (∀ tree ∈ trees, tree.Everywhere TypeGrammar) →
    Succeeds (unionBranches source trees) fun entries =>
      List.Forall₂ (fun branch entry => Reads source branch.bare entry) (Tree.branchesAll trees) entries
  | [], _ => .ok .nil
  | ⟨kind, field, start, stop, children⟩ :: rest, below => by
    obtain ⟨here, later⟩ := List.forall_mem_cons.mp below
    rw [unionBranches_cons, Tree.branchesAll]
    by_cases content : Tree.isContent ⟨kind, field, start, stop, children⟩
    · rw [if_pos content, if_pos content]
      by_cases union : kind = .node "union_type"
      · rw [if_pos union, Tree.branches_of_union union]
        obtain ⟨_, inside⟩ := here
        refine .bind (unionBranches_documented source children inside) ?_
        intro inner eachInner
        refine .bind (unionBranches_documented source rest later) ?_
        intro others eachOther
        exact .pure (List.rel_append eachInner eachOther)
      · rw [if_neg union, Tree.branches_of_other union]
        refine .bind (type_documented source _ here (Bool.and_eq_true_iff.mp content).1) ?_
        intro entry reads
        refine .bind (unionBranches_documented source rest later) ?_
        intro others eachOther
        exact .pure (.cons reads eachOther)
    · rw [if_neg content, if_neg content]
      exact unionBranches_documented source rest later

theorem parametersField_documented (source : Bytes) : (trees : List Tree) →
    (∀ tree ∈ trees, tree.Everywhere TypeGrammar) →
    Succeeds (parametersField source trees) fun parameters =>
      parameters.map (Parameter.named tsxCatalog) =
        ((Tree.field? "parameters" trees).map fun list => Tree.namedParameters source list.children).getD []
  | [], _ => .ok rfl
  | ⟨kind, field, start, stop, children⟩ :: rest, below => by
    obtain ⟨⟨_, inside⟩, later⟩ := List.forall_mem_cons.mp below
    rw [parametersField, Tree.field?_cons, Tree.fills]
    by_cases fills : field = some "parameters"
    · rw [if_pos fills, if_pos (beq_iff_eq.mpr fills)]
      exact parameters_documented source children inside
    · rw [if_neg fills, if_neg (fills ∘ beq_iff_eq.mp)]
      exact parametersField_documented source rest later

theorem parameters_documented (source : Bytes) : (trees : List Tree) →
    (∀ tree ∈ trees, tree.Everywhere TypeGrammar) →
    Succeeds (parameters source trees) fun parameters =>
      parameters.map (Parameter.named tsxCatalog) = Tree.namedParameters source trees
  | [], _ => .ok rfl
  | ⟨kind, field, start, stop, children⟩ :: rest, below => by
    obtain ⟨⟨grammar, inside⟩, later⟩ := List.forall_mem_cons.mp below
    rw [parameters, Tree.namedParameters, List.filter_cons, Tree.isParameter_eq]
    by_cases parameter : (kind.named && (kind.name == "required_parameter" || kind.name == "optional_parameter")) = true
    · rw [if_pos parameter, if_pos parameter]
      refine .bind (typeField_documented source "type" children inside ?_) ?_
      · intro child member fills
        exact grammar.typed child member (.inl fills)
      · intro type reads
        refine .bind (parameters_documented source rest later) ?_
        intro others listed
        refine .pure ?_
        rw [List.map_cons, List.map_cons, listed, Parameter.named, typeNameOf_reads reads, tokenField_text]
        rfl
    · rw [if_neg parameter, if_neg parameter]
      exact parameters_documented source rest later

theorem members_return (source : Bytes) (docs : List (DocComment Kind)) : (trees : List Tree) →
    (∀ tree ∈ trees, tree.Everywhere TypeGrammar) → Returns (members source docs trees)
  | [], _ => .ok _
  | ⟨kind, field, start, stop, children⟩ :: rest, below => by
    obtain ⟨⟨grammar, inside⟩, later⟩ := List.forall_mem_cons.mp below
    have fields := typeField_documented source "type" children inside fun child member fills =>
      grammar.typed child member (.inl fills)
    have results := typeField_documented source "return_type" children inside fun child member fills =>
      grammar.typed child member (.inr fills)
    rw [members]
    split
    · exact members_return source _ rest later
    split
    · cases MemberSort.of kind.name with
      | skipped => exact members_return source [] rest later
      | signature =>
        apply Succeeds.bind (parametersField_documented source children inside)
        intro parameters _
        apply Succeeds.bind results
        intro result _
        exact Returns.bind (members_return source [] rest later) fun others => .pure _
      | method | field =>
        apply Succeeds.bind fields
        intro type _
        exact Returns.bind (members_return source [] rest later) fun others => .pure _
    · exact members_return source docs rest later

end

/-- The member that a signature is read as, once its type is. -/
def signatureMember (source : Bytes) (docs : List (DocComment Kind)) (node : Tree) (type : Option (TypeNode Kind)) :
    Member Kind :=
  ⟨node.kind, tokenField source "name" node.children, type, node.children.any isOptionMark,
    modifiers source node.children, exprField source "value" node.children, docs⟩

theorem members_of_property {source : Bytes} {node : Tree} {type : Option (TypeNode Kind)}
    (property : node.kind = .node "property_signature") (read : typeField source "type" node.children = .ok type)
    (docs : List (DocComment Kind)) (rest : List Tree) :
    members source docs (node :: rest) = (members source [] rest).map (signatureMember source docs node type :: ·) := by
  obtain ⟨kind, field, start, stop, children⟩ := node
  cases property
  dsimp only at read
  rw [members, read]
  cases members source [] rest <;> rfl

theorem members_of_method {source : Bytes} {node : Tree} {parameters : List (Parameter Kind)}
    {result : Option (TypeNode Kind)} (method : node.kind = .node "method_signature")
    (listed : parametersField source node.children = .ok parameters)
    (returned : typeField source "return_type" node.children = .ok result)
    (docs : List (DocComment Kind)) (rest : List Tree) :
    members source docs (node :: rest) =
      (members source [] rest).map (signatureMember source docs node
        (some (functionType (.node "function_type") parameters result (node.text source))) :: ·) := by
  obtain ⟨kind, field, start, stop, children⟩ := node
  cases method
  dsimp only at listed returned
  rw [members, listed, returned]
  cases members source [] rest <;> rfl

end Conversion

namespace Tree

def declaredSchema (source : Bytes) (node : Tree) : PropType :=
  if node.kind.name = "method_signature" then functionSchema source node.children
  else ((bareField "type" node.children).map (schema source)).getD .unknown

def declaredGap (node : Tree) : Bool :=
  node.kind.name != "method_signature" && (bareField "type" node.children).any hasGap

end Tree

namespace Conversion

open ComponentDocs.Tree (Everywhere TypeGrammar)

def memberType : Option (TypeNode Kind) → Except Malformed PropType
  | none => .ok .unknown
  | some type => type.propType tsxCatalog

theorem memberType_reads {source : Bytes} {tree : Option Tree} {found : Option (TypeNode Kind)}
    (reads : Reads source tree found) :
    memberType found =
      if tree.any Tree.hasGap then .error .missingPart else .ok ((tree.map (Tree.schema source)).getD .unknown) := by
  cases reads with
  | none => rfl
  | some documented => exact documented.propType

theorem signature_read (source : Bytes) (docs : List (DocComment Kind)) {node : Tree}
    (signature : node.kind = .node "property_signature" ∨ node.kind = .node "method_signature")
    (grammar : node.Everywhere TypeGrammar) :
    ∃ type, (∀ rest, members source docs (node :: rest) =
        (members source [] rest).map (signatureMember source docs node type :: ·)) ∧
      memberType type = if node.declaredGap then .error .missingPart else .ok (node.declaredSchema source) := by
  obtain ⟨here, below⟩ := grammar
  rcases signature with property | method
  · obtain ⟨type, read, reads⟩ := typeField_documented source "type" node.children below fun child member fills =>
      here.typed child member (.inl fills)
    refine ⟨type, members_of_property property read docs, ?_⟩
    rw [memberType_reads reads, Tree.declaredGap, Tree.declaredSchema, property]
    rfl
  · obtain ⟨parameters, readParameters, listed⟩ := parametersField_documented source node.children below
    obtain ⟨result, readResult, reads⟩ := typeField_documented source "return_type" node.children below
      fun child member fills => here.typed child member (.inr fills)
    refine ⟨_, members_of_method method readParameters readResult docs, ?_⟩
    rw [memberType, propType_of_function, listed, typeNameOf_reads reads, Tree.declaredGap, Tree.declaredSchema, method]
    rfl

theorem prop_of_signatureMember {source : Bytes} {node name : Tree} (docs : List (DocComment Kind))
    (defaults : Bindings String String) (type : Option (TypeNode Kind))
    (named : Tree.field? "name" node.children = some name) :
    (signatureMember source docs node type).prop tsxCatalog defaults =
      (memberType type).map fun schema =>
        ⟨name.nameText source, schema, !node.children.any isOptionMark,
          (defaults.get? (name.nameText source)).getD "", docText docs⟩ := by
  rw [Member.prop, signatureMember, tokenField, named]
  cases type with
  | none => rfl
  | some type =>
    rw [memberType]
    dsimp only [Option.map_some]
    cases type.propType tsxCatalog <;> rfl

end Conversion

open Conversion ComponentDocs.Tree in
/-- A signature with a name is a member on its own, whatever follows it, and the prop that it describes is told from the
tree: its type without wrappers decides the schema, and a question mark makes it optional. A type with a gap, which is
an empty branch in parentheses where a union wants one, is an error. -/
theorem signature_documented (source : Bytes) (docs : List (DocComment Kind)) (defaults : Bindings String String)
    {node name : Tree} (signature : node.kind = .node "property_signature" ∨ node.kind = .node "method_signature")
    (grammar : node.Everywhere TypeGrammar) (named : field? "name" node.children = some name)
    (proper : name.nameText source ≠ "") :
    ∃ member, (∀ rest, members source docs (node :: rest) = (members source [] rest).map (member :: ·)) ∧
      member.isProp ∧
      member.prop tsxCatalog defaults =
        if node.declaredGap then .error .missingPart
        else .ok ⟨name.nameText source, node.declaredSchema source, !node.children.any isOptionMark,
          (defaults.get? (name.nameText source)).getD "", docText docs⟩ := by
  obtain ⟨type, read, typed⟩ := signature_read source docs signature grammar
  refine ⟨signatureMember source docs node type, read, ?_, ?_⟩
  · simp [Member.isProp, signatureMember, tokenField, named, token, proper]
  · rw [prop_of_signatureMember docs defaults type named, typed]
    cases node.declaredGap <;> rfl

def sizeSource : Bytes := Utf8.encode "size?: 's' | (-1) | void".toList

def sizeSignature : Tree :=
  ⟨.node "property_signature", none, 0, 24,
    [⟨.node "property_identifier", some "name", 0, 4, []⟩, ⟨.keyword "?", none, 4, 5, []⟩,
      ⟨.node "type_annotation", some "type", 5, 24,
        [⟨.keyword ":", none, 5, 6, []⟩,
          ⟨.node "union_type", none, 7, 24,
            [⟨.node "union_type", none, 7, 17,
                [⟨.node "literal_type", none, 7, 10, [⟨.node "string", none, 7, 10, []⟩]⟩,
                  ⟨.keyword "|", none, 11, 12, []⟩,
                  ⟨.node "parenthesized_type", none, 13, 17,
                    [⟨.keyword "(", none, 13, 14, []⟩,
                      ⟨.node "literal_type", none, 14, 16,
                        [⟨.node "unary_expression", none, 14, 16,
                            [⟨.keyword "-", some "operator", 14, 15, []⟩,
                              ⟨.node "number", some "argument", 15, 16, []⟩]⟩]⟩,
                      ⟨.keyword ")", none, 16, 17, []⟩]⟩]⟩,
              ⟨.keyword "|", none, 18, 19, []⟩,
              ⟨.node "predefined_type", none, 20, 24, [⟨.keyword "void", none, 20, 24, []⟩]⟩]⟩]⟩]⟩

open Conversion ComponentDocs.Tree in
theorem size_signature_documented :
    sizeSignature.Everywhere TypeGrammar ∧
      ∃ member, (∀ rest, members sizeSource [] (sizeSignature :: rest) =
          (members sizeSource [] rest).map (member :: ·)) ∧ member.isProp ∧
        member.prop tsxCatalog [("size", "'s'")] =
          .ok ⟨"size", .enum [⟨"s", "string"⟩, ⟨"-1", "number"⟩, ⟨"void", "void"⟩], false, "'s'", ""⟩ := by
  have grammar : sizeSignature.Everywhere TypeGrammar := by decide
  refine ⟨grammar, ?_⟩
  obtain ⟨member, read, isProp, prop⟩ := signature_documented sizeSource [] [("size", "'s'")] (.inl rfl) grammar rfl
    (by decide)
  refine ⟨member, read, isProp, ?_⟩
  rw [prop]
  decide

end ComponentDocs
