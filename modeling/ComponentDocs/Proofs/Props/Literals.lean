import ComponentDocs.Proofs.Props.Defaults
import ComponentDocs.Proofs.Types.Flattening
import ComponentDocs.Proofs.Types.Schema

/-! Literals as defaults of props and as branches of their types. The two are spelt alike in the documentation, but for
negated numbers, which are no literals in the place of a value. -/

namespace ComponentDocs

open Utf8 (Bytes)

inductive Literal where
  | string (mark : Char) (quotes : mark = '\'' ∨ mark = '"') (content : String)
  | number (digits : String)
  | negated (operand : String)
  | boolean (value : Bool)
  | null
  | undefined

namespace Literal

def kind : Literal → Kind
  | .string _ _ _ => .node "string"
  | .number _ => .node "number"
  | .negated _ => .node "unary_expression"
  | .boolean value => .node (if value then "true" else "false")
  | .null => .node "null"
  | .undefined => .node "undefined"

def text : Literal → String
  | .string mark _ content => String.ofList (mark :: (content.toList ++ [mark]))
  | .number digits => digits
  | .negated operand => String.ofList ('-' :: operand.toList)
  | .boolean value => if value then "true" else "false"
  | .null => "null"
  | .undefined => "undefined"

/-- A literal as it is documented: strings lose their quotation marks. -/
def spelling : Literal → String
  | .string _ _ content => content
  | literal => literal.text

def isNegated : Literal → Bool
  | .negated _ => true
  | _ => false

structure WrittenAs (source : Bytes) (literal : Literal) (tree : Tree) : Prop where
  kind : tree.kind = literal.kind
  text : tree.text source = literal.text
  operand : literal.isNegated → ∃ operand ∈ Tree.field? "argument" tree.children, operand.kind = .node "number"

def IsBranch (source : Bytes) (literal : Literal) (branch : Tree) : Prop :=
  ∃ type inner, branch.bare = some type ∧ type.kind = .node "literal_type" ∧
    Tree.content? type.children = some inner ∧ literal.WrittenAs source inner

theorem unquote_text (mark : Char) (quotes : mark = '\'' ∨ mark = '"') (content : String) :
    Tree.unquote (text (.string mark quotes content)) = content := by
  have isQuote : Tree.isQuote mark = true := by
    rcases quotes with rfl | rfl <;> rfl
  rw [text, Tree.unquote, String.toList_ofList]
  cases chars : content.toList with
  | nil =>
    have empty : content = "" := String.toList_eq_nil_iff.mp chars
    simp [isQuote, empty]
  | cons first rest =>
    have last : (first :: (rest ++ [mark])).getLast? = some mark := by
      rw [← List.cons_append, List.getLast?_concat]
    have inside : (first :: (rest ++ [mark])).dropLast = content.toList := by
      rw [← List.cons_append, List.dropLast_concat, chars]
    dsimp only [List.cons_append]
    rw [isQuote, last, inside, Bool.true_and, if_pos (beq_self_eq_true _), String.ofList_toList]

/-- In the place of a value, a negated number is an expression like any other and has no text. -/
theorem default_of_writtenAs {source : Bytes} {literal : Literal} {tree : Tree}
    (written : literal.WrittenAs source tree) (kind : Kind) (name : Option (Token Kind)) :
    Property.defaultText tsxCatalog ⟨kind, name, some (Conversion.expr source tree)⟩ =
      if literal.isNegated then "" else literal.spelling := by
  obtain ⟨isKind, isText, -⟩ := written
  obtain ⟨treeKind, field, start, stop, children⟩ := tree
  cases isKind
  have slice : Tree.slice source start stop = literal.text := isText
  cases literal with
  | string mark quotes content => exact (congrArg Tree.unquote slice).trans (unquote_text mark quotes content)
  | number digits => exact slice
  | negated operand => rfl
  | boolean value => cases value <;> rfl
  | null => rfl
  | undefined => exact slice

theorem isLiteral_of_writtenAs {source : Bytes} {literal : Literal} {tree : Tree}
    (written : literal.WrittenAs source tree) : tree.IsLiteral := by
  obtain ⟨isKind, -, operand⟩ := written
  rw [Tree.IsLiteral, isKind]
  cases literal with
  | negated _ => exact .inr ⟨rfl, operand rfl⟩
  | boolean value => cases value <;> exact .inl (by decide)
  | _ => exact .inl (by simp [kind, Kind.node])

theorem text_of_writtenAs {source : Bytes} {literal : Literal} {tree : Tree}
    (written : literal.WrittenAs source tree) : (Conversion.literal source tree).text = literal.spelling := by
  obtain ⟨isKind, isText, -⟩ := written
  obtain ⟨treeKind, field, start, stop, children⟩ := tree
  cases isKind
  have slice : Tree.slice source start stop = literal.text := isText
  cases literal with
  | string mark quotes content => exact (congrArg Tree.unquote slice).trans (unquote_text mark quotes content)
  | boolean value => cases value <;> exact slice
  | _ => exact slice

end Literal

namespace Conversion

theorem variant_of_isBranch {source : Bytes} {literal : Literal} {branch : Tree}
    (isBranch : literal.IsBranch source branch) :
    ∃ node variant, type source branch = .ok (some node) ∧ node.variant tsxCatalog = .ok variant ∧
      variant.name = literal.spelling := by
  obtain ⟨bare, inner, left, isType, content, written⟩ := isBranch
  have inside : inner.isContent = true := List.find?_some content
  have named : inner.kind.named = true := (Bool.and_eq_true_iff.mp inside).1
  have isLiteral := Literal.isLiteral_of_writtenAs written
  have documented := literal_documented source (bare.text source) isType content isLiteral
  refine ⟨_, _, ?_, documented.variant, ?_⟩
  · rw [type_eq_bare, left, typeOption]
    obtain ⟨kind, field, start, stop, children⟩ := bare
    cases isType
    rw [type]
    rfl
  · have said : bare.variant source = inner.literalVariant source := by
      have name : bare.kind.name = "literal_type" := by rw [isType]; rfl
      have noReference : bare.referenceName source = none := by rw [Tree.referenceName, name]; rfl
      rw [Tree.variant, noReference, name, content]
      rfl
    rw [said, ← (literal_listed source named isLiteral).2]
    exact Literal.text_of_writtenAs written

theorem variant_mem_of_union {source : Bytes} {union branch : Tree} {node whole : TypeNode Kind} {variant : NamedType}
    {schema : PropType} (isUnion : union.kind = .node "union_type") (member : branch ∈ union.branches)
    (readBranch : type source branch = .ok (some node)) (listed : node.variant tsxCatalog = .ok variant)
    (read : type source union = .ok (some whole)) (documented : whole.propType tsxCatalog = .ok schema) :
    ∃ variants, schema = .enum variants ∧ variant ∈ variants := by
  rw [type_of_union source isUnion] at read
  obtain ⟨entries, readEntries, same⟩ := ok_of_map read
  cases same
  rw [isUnion, propType_of_union] at documented
  obtain ⟨variants, listedAll, same⟩ := ok_of_map documented
  obtain ⟨entry, present, readEntry⟩ := exists_mem_of_mapM readEntries member
  obtain ⟨found, inVariants, listedEntry⟩ := exists_mem_of_mapM listedAll present
  cases readBranch.symm.trans readEntry
  cases listed.symm.trans listedEntry
  exact ⟨variants, same.symm, inVariants⟩

end Conversion

open Conversion in
/-- A literal is the default of a prop under the name that it has as a branch of a union, unless it is a negated number.
So a default that is one of the branches of the prop's type occurs among the variants, with this one exception. -/
theorem literal_spelt_alike_iff {source : Bytes} {literal : Literal} {body : List Tree} {found : List (Member Kind)}
    {field value branch : Tree} {name : String} (read : members source [] body = .ok found)
    (first : (body.filter Tree.isMember).find? (Tree.statesDefaults source) = some field)
    (states : field.StatesDefault source name value) (asValue : literal.WrittenAs source value)
    (asBranch : literal.IsBranch source branch) :
    ∃ defaults default node variant, Member.defaults tsxCatalog found = .ok defaults ∧
      defaults.get? name = some default ∧ type source branch = .ok (some node) ∧
      node.variant tsxCatalog = .ok variant ∧ variant.name = literal.spelling ∧
      (default = variant.name ↔ literal.isNegated = false) ∧
      ∀ (member : Member Kind) (token : Token Kind) (union : Tree) (whole : TypeNode Kind) (prop : PropDoc),
        member.name = some token → token.text = name → member.type = some whole → type source union = .ok (some whole) →
        union.kind = .node "union_type" → branch ∈ union.branches → member.prop tsxCatalog defaults = .ok prop →
        prop.defaultValue = default ∧ ∃ variants, prop.type = .enum variants ∧ variant ∈ variants := by
  obtain ⟨defaults, stated, got⟩ := defaults_of_field read first states
  obtain ⟨node, variant, readBranch, listed, spelt⟩ := variant_of_isBranch asBranch
  rw [Literal.default_of_writtenAs asValue] at got
  refine ⟨defaults, _, node, variant, stated, got, readBranch, listed, spelt, ?_, ?_⟩
  · rw [spelt]
    cases literal with
    | negated operand => simp [Literal.isNegated, Literal.spelling, Literal.text]
    | _ => simp [Literal.isNegated]
  · intro member token union whole prop named tokenText typed readUnion isUnion isBranch documented
    rw [Member.prop, named, typed] at documented
    obtain ⟨schema, schemaOf, documented⟩ := ok_of_bind documented
    cases documented
    refine ⟨?_, variant_mem_of_union isUnion isBranch readBranch listed readUnion schemaOf⟩
    dsimp only
    rw [tokenText, got]
    rfl

def signedSource (default : String) : Bytes :=
  Utf8.encode ("k:'a'|-1;static defaultProps=\x7bk:" ++ default ++ "\x7d").toList

def negatedAt (field : Option String) (start : Nat) : Tree :=
  ⟨.node "unary_expression", field, start, start + 2,
    [⟨.keyword "-", some "operator", start, start + 1, []⟩,
      ⟨.node "number", some "argument", start + 1, start + 2, []⟩]⟩

def negatedBranch : Tree := ⟨.node "literal_type", none, 6, 8, [negatedAt none 6]⟩

def signedUnion : Tree :=
  ⟨.node "union_type", none, 2, 8, [literalAt 2 5, ⟨.keyword "|", none, 5, 6, []⟩, negatedBranch]⟩

def signedProp : Tree :=
  ⟨.node "property_signature", none, 0, 8,
    [⟨.node "property_identifier", some "name", 0, 1, []⟩,
      ⟨.node "type_annotation", some "type", 1, 8, [⟨.keyword ":", none, 1, 2, []⟩, signedUnion]⟩]⟩

def defaultsField (value : Tree) : Tree :=
  ⟨.node "public_field_definition", none, 9, value.stop + 1,
    [⟨.keyword "static", none, 9, 15, []⟩, ⟨.node "property_identifier", some "name", 16, 28, []⟩,
      ⟨.keyword "=", none, 28, 29, []⟩,
      ⟨.node "object", some "value", 29, value.stop + 1,
        [⟨.keyword "\x7b", none, 29, 30, []⟩,
          ⟨.node "pair", none, 30, value.stop,
            [⟨.node "property_identifier", some "key", 30, 31, []⟩, ⟨.keyword ":", none, 31, 32, []⟩, value]⟩,
          ⟨.keyword "\x7d", none, value.stop, value.stop + 1, []⟩]⟩]⟩

def quotedValue : Tree := ⟨.node "string", some "value", 32, 35, []⟩

open Conversion in
theorem quoted_default_listed :
    ∃ found member defaults prop variants,
      members (signedSource "'a'") [] [defaultsField quotedValue] = .ok found ∧
      Member.defaults tsxCatalog found = .ok defaults ∧
      members (signedSource "'a'") [] [signedProp] = .ok [member] ∧ member.prop tsxCatalog defaults = .ok prop ∧
      prop.defaultValue = "a" ∧ prop.type = .enum variants ∧ "a" ∈ variants.map NamedType.name := by
  obtain ⟨found, read⟩ : ∃ found, members (signedSource "'a'") [] [defaultsField quotedValue] = .ok found := ⟨_, rfl⟩
  have states : (defaultsField quotedValue).StatesDefault (signedSource "'a'") "k" quotedValue :=
    ⟨rfl, _, _, _, rfl, rfl, rfl, rfl, rfl, rfl, rfl⟩
  have asValue : (Literal.string '\'' (.inl rfl) "a").WrittenAs (signedSource "'a'") quotedValue := ⟨rfl, rfl, nofun⟩
  have asBranch : (Literal.string '\'' (.inl rfl) "a").IsBranch (signedSource "'a'") (literalAt 2 5) :=
    ⟨_, _, rfl, rfl, rfl, rfl, rfl, nofun⟩
  obtain ⟨defaults, default, -, variant, stated, -, -, -, spelt, alike, listed⟩ :=
    literal_spelt_alike_iff read rfl states asValue asBranch
  obtain ⟨member, readMember⟩ : ∃ member, members (signedSource "'a'") [] [signedProp] = .ok [member] := ⟨_, rfl⟩
  obtain ⟨prop, documented⟩ : ∃ prop, member.prop tsxCatalog defaults = .ok prop := by
    cases readMember
    exact ⟨_, rfl⟩
  have valued : prop.defaultValue = default ∧ ∃ variants, prop.type = .enum variants ∧ variant ∈ variants := by
    cases readMember
    exact listed _ _ signedUnion _ prop rfl rfl rfl rfl rfl (.head _) documented
  obtain ⟨isDefault, variants, typed, listedThere⟩ := valued
  refine ⟨found, member, defaults, prop, variants, read, stated, readMember, documented, ?_, typed, ?_⟩
  · rw [isDefault, alike.mpr rfl, spelt]
    rfl
  · exact List.mem_map.mpr ⟨variant, listedThere, spelt⟩

def negatedValue : Tree := negatedAt (some "value") 32

open Conversion in
theorem negated_default_lost :
    ∃ found member defaults,
      (Literal.negated "1").WrittenAs (signedSource "-1") negatedValue ∧
      (Literal.negated "1").IsBranch (signedSource "-1") negatedBranch ∧
      (defaultsField negatedValue).StatesDefault (signedSource "-1") "k" negatedValue ∧
      members (signedSource "-1") [] [defaultsField negatedValue] = .ok found ∧
      Member.defaults tsxCatalog found = .ok defaults ∧ defaults.get? "k" = some "" ∧
      members (signedSource "-1") [] [signedProp] = .ok [member] ∧
      member.prop tsxCatalog defaults = .ok ⟨"k", .enum [⟨"a", "string"⟩, ⟨"-1", "number"⟩], true, "", ""⟩ := by
  refine ⟨_, _, _, ⟨rfl, rfl, fun _ => ⟨_, rfl, rfl⟩⟩, ⟨_, _, rfl, rfl, rfl, rfl, rfl, fun _ => ⟨_, rfl, rfl⟩⟩,
    ⟨rfl, _, _, _, rfl, rfl, rfl, rfl, rfl, rfl, rfl⟩, rfl, rfl, rfl, rfl, rfl⟩

end ComponentDocs
