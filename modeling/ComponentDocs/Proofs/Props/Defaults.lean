import ComponentDocs.Component.Props
import ComponentDocs.Proofs.Types.References

namespace ComponentDocs

open Utf8 (Bytes)

namespace Tree

def isMember (tree : Tree) : Bool := tree.isContent && Conversion.MemberSort.of tree.kind.name != .skipped

def statesDefaults (source : Bytes) (tree : Tree) : Bool :=
  (field? "name" tree.children).any (fun name => name.nameText source == "defaultProps") &&
    tree.children.any fun child => child.kind == .keyword "static"

def isProperty (tree : Tree) : Bool :=
  tree.kind == .node "pair" || tree.kind == .node "shorthand_property_identifier"

def initializer? (member : Tree) : Option Tree :=
  if Conversion.MemberSort.of member.kind.name = .method then none else field? "value" member.children

/-- The object that holds the defaults of a class: what the first member that is static and called so is initialized
with, if it is an object. -/
def defaultsLiteral? (source : Bytes) (body : List Tree) : Option Tree :=
  (((body.filter isMember).find? (statesDefaults source)).bind initializer?).filter (·.kind == .node "object")

def key? (property : Tree) : Option Tree :=
  if property.kind = .node "pair" then field? "key" property.children else some property

def isCalled (source : Bytes) (name : String) (property : Tree) : Bool :=
  property.key?.any fun key => key.nameText source == name

def lastCalled? (source : Bytes) (name : String) (nodes : List Tree) : Option Tree :=
  ((nodes.filter isProperty).filter (isCalled source name)).getLast?

/-- The field is `static defaultProps = { name: value }`, with any layout. -/
structure StatesDefault (source : Bytes) (member : Tree) (name : String) (value : Tree) : Prop where
  kind : member.kind = .node "public_field_definition"
  object : ∃ object pair key, field? "value" member.children = some object ∧ object.kind = .node "object" ∧
    object.children.filter isProperty = [pair] ∧ pair.kind = .node "pair" ∧ field? "key" pair.children = some key ∧
    key.nameText source = name ∧ field? "value" pair.children = some value

end Tree

theorem find?_forall₂ {α β : Type} {related : α → β → Prop} {p : α → Bool} {q : β → Bool} {items : List α}
    {others : List β} (each : List.Forall₂ related items others) (same : ∀ a b, related a b → p a = q b) :
    Option.Rel related (items.find? p) (others.find? q) := by
  induction each with
  | nil => exact .none
  | @cons first other rest others here _ ih =>
    rw [List.find?_cons, List.find?_cons, same first other here]
    cases q other with
    | true => exact .some here
    | false => exact ih

theorem Member.parts_of_prop {κ : Type} [DecidableEq κ] {catalog : Catalog κ} {defaults : Bindings String String}
    {member : Member κ} {prop : PropDoc} (documented : member.prop catalog defaults = .ok prop) :
    ∃ name, member.name = some name ∧ prop.name = name.text ∧
      prop.defaultValue = (defaults.get? name.text).getD "" ∧
      (member.type = none ∧ prop.type = .unknown ∨
        ∃ type, member.type = some type ∧ type.propType catalog = .ok prop.type) := by
  rw [Member.prop] at documented
  split at documented
  · cases documented
  · rename_i name named
    dsimp only at documented
    split at documented
    · rename_i untyped
      cases documented
      exact ⟨name, named, rfl, rfl, .inl ⟨untyped, rfl⟩⟩
    · rename_i type typed
      obtain ⟨resolved, computed, documented⟩ := ok_of_bind documented
      cases documented
      exact ⟨name, named, rfl, rfl, .inr ⟨type, typed, computed⟩⟩

namespace Conversion

/-- What the members of a body keep of their nodes, doc comments apart. Of their types only the names of references
count here. -/
structure MemberOf (source : Bytes) (tree : Tree) (member : Member Kind) : Prop where
  name : member.name = tokenField source "name" tree.children
  reference : member.type.bind (·.name) = tree.declaredReference source
  modifiers : member.modifiers = modifiers source tree.children
  value : member.value = tree.initializer?.map (expr source)

theorem exprField_eq_map (source : Bytes) (name : String) (trees : List Tree) :
    exprField source name trees = (Tree.field? name trees).map (expr source) := by
  induction trees with
  | nil => rw [exprField]; rfl
  | cons first rest ih =>
    rw [exprField, Tree.field?, List.find?_cons]
    cases first.fills name with
    | true => rfl
    | false => exact ih

theorem members_forall₂ {source : Bytes} : (trees : List Tree) → (docs : List (DocComment Kind)) →
    (found : List (Member Kind)) → members source docs trees = .ok found →
    List.Forall₂ (MemberOf source) (trees.filter Tree.isMember) found
  | [], docs, found, read => by
    cases read
    exact .nil
  | ⟨kind, field, start, stop, children⟩ :: rest, docs, found, read => by
    have passed (skipped : Tree.isMember ⟨kind, field, start, stop, children⟩ = false) :
        (⟨kind, field, start, stop, children⟩ :: rest : List Tree).filter Tree.isMember = rest.filter Tree.isMember :=
      List.filter_cons_of_neg (by simp [skipped])
    rw [members] at read
    by_cases comment : kind.name = "comment"
    · rw [if_pos comment] at read
      rw [passed (by simp [Tree.isMember, Tree.isContent, Tree.isComment, comment])]
      exact members_forall₂ rest _ found read
    rw [if_neg comment] at read
    by_cases named : kind.named
    · rw [if_pos named] at read
      have taken (sort : MemberSort.of kind.name ≠ .skipped) :
          (⟨kind, field, start, stop, children⟩ :: rest : List Tree).filter Tree.isMember =
            ⟨kind, field, start, stop, children⟩ :: rest.filter Tree.isMember := by
        apply List.filter_cons_of_pos
        simp [Tree.isMember, Tree.isContent, Tree.isComment, comment, named, sort]
      have initialized (sort : MemberSort.of kind.name ≠ .method) : exprField source "value" children =
          (Tree.initializer? ⟨kind, field, start, stop, children⟩).map (expr source) := by
        rw [Tree.initializer?, if_neg sort, exprField_eq_map]
      have referred {type : Option (TypeNode Kind)} (sort : MemberSort.of kind.name ≠ .signature)
          (readType : typeField source "type" children = .ok type) :
          type.bind (·.name) = Tree.declaredReference source ⟨kind, field, start, stop, children⟩ := by
        rw [Tree.declaredReference, if_neg sort]
        exact reference_of_typeField readType
      cases sort : MemberSort.of kind.name with
      | skipped =>
        simp only [sort] at read
        rw [passed (by simp [Tree.isMember, sort])]
        exact members_forall₂ rest [] found read
      | signature =>
        simp only [sort] at read
        obtain ⟨parameters, -, read⟩ := ok_of_bind read
        obtain ⟨result, -, read⟩ := ok_of_bind read
        obtain ⟨others, readOthers, read⟩ := ok_of_bind read
        cases read
        rw [taken (by simp [sort])]
        have unnamed : none = Tree.declaredReference source ⟨kind, field, start, stop, children⟩ := (if_pos sort).symm
        exact .cons ⟨rfl, unnamed, rfl, initialized (by simp [sort])⟩ (members_forall₂ rest [] others readOthers)
      | method =>
        simp only [sort] at read
        obtain ⟨type, readType, read⟩ := ok_of_bind read
        obtain ⟨others, readOthers, read⟩ := ok_of_bind read
        cases read
        rw [taken (by simp [sort])]
        have none : Tree.initializer? ⟨kind, field, start, stop, children⟩ = none := if_pos sort
        exact .cons ⟨rfl, referred (by simp [sort]) readType, rfl, by rw [none]; rfl⟩
          (members_forall₂ rest [] others readOthers)
      | field =>
        simp only [sort] at read
        obtain ⟨type, readType, read⟩ := ok_of_bind read
        obtain ⟨others, readOthers, read⟩ := ok_of_bind read
        cases read
        rw [taken (by simp [sort])]
        exact .cons ⟨rfl, referred (by simp [sort]) readType, rfl, initialized (by simp [sort])⟩
          (members_forall₂ rest [] others readOthers)
    · rw [if_neg named] at read
      rw [passed (by simp [Tree.isMember, Tree.isContent, named])]
      exact members_forall₂ rest docs found read

theorem holdsDefaults_eq {source : Bytes} {tree : Tree} {member : Member Kind} (reads : MemberOf source tree member) :
    tree.statesDefaults source = member.holdsDefaults tsxCatalog := by
  have static : (tree.children.any fun child => child.kind == .keyword "static") =
      tsxCatalog.hasModifier .staticKeyword (modifiers source tree.children) := by
    rw [Catalog.hasModifier, modifiers, List.any_map, List.any_filter]
    congr 1
    funext child
    by_cases same : child.kind = .keyword "static"
    · simp [isModifier, Catalog.plays, tsxCatalog, same, Kind.keyword]
    · have other : tsxCatalog.plays [.staticKeyword] child.kind = false := by
        simp [Catalog.plays, tsxCatalog, Ne.symm same]
      simp [same, other]
  rw [Tree.statesDefaults, Member.holdsDefaults, reads.name, reads.modifiers, static, tokenField]
  cases Tree.field? "name" tree.children <;> rfl

def property (source : Bytes) (tree : Tree) : Property Kind :=
  if tree.kind = .node "pair" then
    ⟨tree.kind, tokenField source "key" tree.children, exprField source "value" tree.children⟩
  else shorthand source tree

theorem isNode_eq (kind : Kind) (name : String) : (kind.named && kind.name == name) = (kind == .node name) := by
  obtain ⟨called, named⟩ := kind
  cases named <;> simp [Kind.node, Bool.beq_eq_decide_eq]

theorem properties_eq_map (source : Bytes) (trees : List Tree) :
    properties source trees = (trees.filter Tree.isProperty).map (property source) := by
  induction trees with
  | nil => rw [properties]; rfl
  | cons tree rest ih =>
    obtain ⟨kind, field, start, stop, children⟩ := tree
    rw [properties, ih, isNode_eq, isNode_eq]
    by_cases pair : kind = .node "pair"
    · rw [if_pos (beq_iff_eq.mpr pair), List.filter_cons_of_pos (by simp [Tree.isProperty, pair]), List.map_cons,
        property, if_pos pair]
    rw [if_neg (by simpa using pair)]
    by_cases short : kind = .node "shorthand_property_identifier"
    · rw [if_pos (beq_iff_eq.mpr short), List.filter_cons_of_pos (by simp [Tree.isProperty, short]), List.map_cons,
        property, if_neg pair]
    · rw [if_neg (by simpa using short), List.filter_cons_of_neg (by simp [Tree.isProperty, pair, short])]

theorem property_name (source : Bytes) (tree : Tree) : (property source tree).name = tree.key?.map (token source) := by
  rw [property, Tree.key?]
  split <;> rfl

def statedText (source : Bytes) (tree : Tree) : String := (property source tree).defaultText tsxCatalog

def stated? (source : Bytes) (tree : Tree) : Option (String × String) :=
  tree.key?.map fun key => (key.nameText source, statedText source tree)

theorem get?_propertyDefaults (source : Bytes) (name : String) (properties : List Tree) :
    (propertyDefaults tsxCatalog (properties.map (property source))).get? name =
      (properties.filter (Tree.isCalled source name)).getLast?.map (statedText source) := by
  have pairs : (properties.map (property source)).filterMap (fun property =>
      property.name.map fun name => (name.text, property.defaultText tsxCatalog)) =
        properties.filterMap (stated? source) := by
    rw [List.filterMap_map]
    congr 1
    funext tree
    rw [Function.comp_apply, property_name, stated?, Option.map_map]
    rfl
  have called : (fun tree => (stated? source tree).any fun pair => pair.1 == name) = Tree.isCalled source name := by
    funext tree
    rw [stated?, Tree.isCalled]
    cases tree.key? <;> rfl
  rw [propertyDefaults, pairs, Bindings.get?_ofPairs, ← List.filterMap_reverse, List.find?_filterMap, called,
    List.getLast?_filter]
  cases found : properties.reverse.find? (Tree.isCalled source name) with
  | none => rfl
  | some tree =>
    have isCalled := List.find?_some found
    rw [Tree.isCalled] at isCalled
    cases keyed : tree.key? with
    | none => simp [keyed] at isCalled
    | some key => simp [stated?, keyed]

/-- The defaults that the members of a body state are those in the object that holds them. -/
theorem defaults_of_members {source : Bytes} {body : List Tree} {found : List (Member Kind)}
    (read : members source [] body = .ok found) :
    ∃ defaults, Member.defaults tsxCatalog found = .ok defaults ∧ ∀ name, defaults.get? name =
      ((Tree.defaultsLiteral? source body).bind fun literal =>
        Tree.lastCalled? source name literal.children).map (statedText source) := by
  have same := find?_forall₂ (members_forall₂ body [] found read) fun _ _ reads => holdsDefaults_eq reads
  -- the first node that states defaults is read as the first member that holds them
  have held : (found.find? (Member.holdsDefaults tsxCatalog)).bind (·.value) =
      (((body.filter Tree.isMember).find? (Tree.statesDefaults source)).bind Tree.initializer?).map (expr source) := by
    generalize (body.filter Tree.isMember).find? (Tree.statesDefaults source) = stating at same ⊢
    generalize found.find? (Member.holdsDefaults tsxCatalog) = holding at same ⊢
    cases same with
    | none => rfl
    | some reads => exact reads.value
  rw [Member.defaults, held, Tree.defaultsLiteral?]
  cases ((body.filter Tree.isMember).find? (Tree.statesDefaults source)).bind Tree.initializer? with
  | none => exact ⟨[], rfl, fun _ => rfl⟩
  | some value =>
    by_cases object : value.kind = .node "object"
    · obtain ⟨kind, field, start, stop, children⟩ := value
      cases object
      refine ⟨_, rfl, fun name => ?_⟩
      rw [properties_eq_map, get?_propertyDefaults]
      rfl
    · have other : tsxCatalog.isObjectLiteral (expr source value).kind = false := by
        rw [expr_kind]
        exact plays_eq_false fun same => object (Option.some.inj same)
      have noLiteral : (some value).filter (·.kind == .node "object") = none := by simp [object]
      rw [noLiteral]
      refine ⟨[], ?_, fun _ => rfl⟩
      dsimp only [Option.map_some]
      rw [if_neg (by simp [other])]

theorem defaults_of_field {source : Bytes} {body : List Tree} {found : List (Member Kind)} {field value : Tree}
    {name : String} (read : members source [] body = .ok found)
    (first : (body.filter Tree.isMember).find? (Tree.statesDefaults source) = some field)
    (states : field.StatesDefault source name value) :
    ∃ defaults, Member.defaults tsxCatalog found = .ok defaults ∧
      defaults.get? name = some (Property.defaultText tsxCatalog ⟨.node "pair", none, some (expr source value)⟩) := by
  obtain ⟨kind, object, pair, key, held, isObject, only, isPair, keyed, spelt, valued⟩ := states
  obtain ⟨defaults, computed, got⟩ := defaults_of_members read
  have literal : Tree.defaultsLiteral? source body = some object := by
    have initialized : field.initializer? = some object := by
      rw [Tree.initializer?, kind, if_neg (by decide), held]
    rw [Tree.defaultsLiteral?, first, Option.bind_some, initialized, Option.filter_some, isObject]
    rfl
  have called : Tree.isCalled source name pair = true := by
    rw [Tree.isCalled, Tree.key?, if_pos isPair, keyed]
    simp [spelt]
  refine ⟨defaults, computed, ?_⟩
  rw [got, literal, Option.bind_some, Tree.lastCalled?, only, List.filter_cons_of_pos called, List.filter_nil]
  simp [statedText, property, isPair, exprField_eq_map, valued, Property.defaultText]

end Conversion

end ComponentDocs
