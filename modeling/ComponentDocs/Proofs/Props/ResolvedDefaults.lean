import ComponentDocs.Proofs.Props.Literals
import ComponentDocs.Proofs.Yields

namespace ComponentDocs

open Utf8 (Bytes)

namespace Tree

def bodyNodes (children : List Tree) : List Tree := ((field? "body" children).map (·.children)).getD []

/-- The default that a class with this body gives to a prop: what is read from the last property of its name. -/
def defaultFor (source : Bytes) (body : List Tree) (name : String) : String :=
  (((defaultsLiteral? source body).bind fun literal => lastCalled? source name literal.children).map
    (Conversion.statedText source)).getD ""

/-- A name that is written bare, or between quotation marks. -/
inductive SpellsName (source : Bytes) (name : String) (tree : Tree) : Prop
  | bare (unquoted : tree.kind.name ≠ "string") (text : tree.text source = name)
  | quoted (mark : Char) (quotes : mark = '\'' ∨ mark = '"')
      (written : (Literal.string mark quotes name).WrittenAs source tree)

/-- Two properties with one name, however it is written, and values of one text. -/
structure Respelt (source other : Bytes) (property respelt : Tree) : Prop where
  names : ∃ name key key', property.key? = some key ∧ respelt.key? = some key' ∧ key.SpellsName source name ∧
    key'.SpellsName other name
  text : Conversion.statedText source property = Conversion.statedText other respelt

theorem SpellsName.nameText {source : Bytes} {name : String} {tree : Tree} (spells : tree.SpellsName source name) :
    tree.nameText source = name := by
  rw [Tree.nameText]
  cases spells with
  | bare unquoted text => rw [if_neg unquoted, text]
  | quoted mark quotes written =>
    have literal : tree.kind.name = "string" := congrArg Kind.name written.kind
    rw [if_pos literal, written.text, Literal.unquote_text]

theorem Respelt.isCalled {source other : Bytes} {property respelt : Tree}
    (same : Respelt source other property respelt) (name : String) :
    property.isCalled source name = respelt.isCalled other name := by
  obtain ⟨spelt, key, key', keyed, keyed', spells, spells'⟩ := same.names
  rw [Tree.isCalled, Tree.isCalled, keyed, keyed', Option.any_some, Option.any_some, spells.nameText, spells'.nameText]

theorem lastCalled?_respelt {source other : Bytes} {nodes respelt : List Tree}
    (each : List.Forall₂ (Respelt source other) (nodes.filter isProperty) (respelt.filter isProperty)) (name : String) :
    Option.Rel (Respelt source other) (lastCalled? source name nodes) (lastCalled? other name respelt) := by
  rw [lastCalled?, lastCalled?, List.getLast?_filter, List.getLast?_filter]
  exact find?_forall₂ (List.forall₂_reverse_iff.mpr each) fun _ _ same => same.isCalled name

/-- The objects that hold the defaults of two bodies have the same properties, but for the way their names are written
and for what is no property. -/
def DefaultsRespelt (source other : Bytes) (body respelt : List Tree) : Prop :=
  Option.Rel (fun literal written => List.Forall₂ (Respelt source other) (literal.children.filter isProperty)
    (written.children.filter isProperty)) (defaultsLiteral? source body) (defaultsLiteral? other respelt)

theorem defaultFor_respelt {source other : Bytes} {body respelt : List Tree}
    (same : DefaultsRespelt source other body respelt) (name : String) :
    defaultFor source body name = defaultFor other respelt name := by
  rw [DefaultsRespelt] at same
  rw [defaultFor, defaultFor]
  generalize defaultsLiteral? source body = literal at same ⊢
  generalize defaultsLiteral? other respelt = written at same ⊢
  cases same with
  | none => rw [Option.bind_none, Option.bind_none, Option.map_none, Option.map_none]
  | some each =>
    have last := lastCalled?_respelt each name
    rw [Option.bind_some, Option.bind_some]
    generalize lastCalled? source name _ = first at last ⊢
    generalize lastCalled? other name _ = second at last ⊢
    cases last with
    | none => rw [Option.map_none, Option.map_none]
    | some same => rw [Option.map_some, Option.map_some, same.text]

theorem lastCalled?_insert (source : Bytes) (name : String) (front back : List Tree) {extra : Tree}
    (skipped : extra.isProperty = false) :
    lastCalled? source name (front ++ extra :: back) = lastCalled? source name (front ++ back) := by
  have same : (front ++ extra :: back).filter isProperty = (front ++ back).filter isProperty := by
    rw [List.filter_append, List.filter_cons_of_neg (by simp [skipped]), List.filter_append]
  rw [lastCalled?, lastCalled?, same]

theorem defaultFor_insert (source : Bytes) (name : String) (front back : List Tree) {extra : Tree}
    (idle : extra.isMember = true → extra.statesDefaults source = true →
      ∃ earlier ∈ front, earlier.isMember = true ∧ earlier.statesDefaults source = true) :
    defaultFor source (front ++ extra :: back) name = defaultFor source (front ++ back) name := by
  have first : ((front ++ extra :: back).filter isMember).find? (statesDefaults source) =
      ((front ++ back).filter isMember).find? (statesDefaults source) := by
    rw [List.find?_filter, List.find?_filter, List.find?_append, List.find?_append, List.find?_cons]
    split
    · rename_i states
      obtain ⟨member, stating⟩ := of_decide_eq_true states
      obtain ⟨earlier, before, holds⟩ := idle member stating
      have found : (front.find? fun tree => decide (tree.isMember = true ∧ tree.statesDefaults source = true)).isSome :=
        List.find?_isSome.mpr ⟨earlier, before, decide_eq_true holds⟩
      obtain ⟨first, same⟩ := Option.isSome_iff_exists.mp found
      rw [same, Option.some_or, Option.some_or]
    · rfl
  rw [defaultFor, defaultFor, defaultsLiteral?, defaultsLiteral?, first]

end Tree

namespace Conversion

theorem members_bodyNodes {source : Bytes} {children : List Tree} {found : List (Member Kind)}
    (read : bodyMembers source children = .ok found) : members source [] (Tree.bodyNodes children) = .ok found := by
  rw [bodyMembers] at read
  rw [Tree.bodyNodes]
  cases body : Tree.field? "body" children with
  | none =>
    rw [body] at read
    cases read
    rfl
  | some body' =>
    rw [body] at read
    exact read

end Conversion

theorem Conversion.default_of_members {source : Bytes} {body : List Tree} {found : List (Member Kind)}
    {defaults : Bindings String String} (read : members source [] body = .ok found)
    (stated : Member.defaults tsxCatalog found = .ok defaults) (name : String) :
    (defaults.get? name).getD "" = Tree.defaultFor source body name := by
  obtain ⟨computed, same, got⟩ := defaults_of_members read
  cases stated.symm.trans same
  rw [got, Tree.defaultFor]

/-- Each prop of a class has the default that is stated for its name, however either is written. -/
theorem defaults_reach_props {source : Bytes} {children : List Tree} {statement : Statement Kind}
    {file : SourceFile Kind} {path : RawText} {component : Component}
    (read : Conversion.classForm source children = .ok statement.form)
    (found : statement.classComponent tsxCatalog file path = .ok (some component)) :
    (∃ heritage members entry defaults propsMembers,
        statement.ClassParts tsxCatalog file path heritage members entry defaults propsMembers component ∧
          List.Forall₂
            (fun member prop => ∃ name, member.name = some name ∧ prop.name = name.text ∧
              prop.defaultValue = Tree.defaultFor source (Tree.bodyNodes children) name.text)
            (propsMembers.filter Member.isProp) component.props) ∧
      (∀ (other : Bytes) (name : String) (tree : Tree), tree.SpellsName other name →
        (Conversion.token other tree).text = name) ∧
      (∀ (other : Bytes) (respelt : List Tree) (name : String),
        Tree.DefaultsRespelt source other (Tree.bodyNodes children) respelt →
          Tree.defaultFor source (Tree.bodyNodes children) name = Tree.defaultFor other respelt name) ∧
      (∀ (name : String) (front back : List Tree) (extra : Tree), extra.isProperty = false →
        Tree.lastCalled? source name (front ++ extra :: back) = Tree.lastCalled? source name (front ++ back)) ∧
      ∀ (name : String) (front back : List Tree) (extra : Tree),
        (extra.isMember = true → extra.statesDefaults source = true →
          ∃ earlier ∈ front, earlier.isMember = true ∧ earlier.statesDefaults source = true) →
        Tree.defaultFor source (front ++ extra :: back) name = Tree.defaultFor source (front ++ back) name := by
  refine ⟨?_, ?_, ?_, ?_, ?_⟩
  · obtain ⟨heritage, members, entry, defaults, propsMembers, parts⟩ := Statement.parts_of_classComponent found
    obtain ⟨className, form⟩ := parts.form
    obtain ⟨heritage', -, read⟩ := ok_of_bind read
    obtain ⟨members', readMembers, read⟩ := ok_of_bind read
    cases (Except.ok.inj read).trans form
    refine ⟨heritage, members, entry, defaults, propsMembers, parts, ?_⟩
    apply (forall₂_of_mapM parts.documented).imp
    intro member prop documented
    obtain ⟨name, named, called, valued, -⟩ := Member.parts_of_prop documented
    rw [Conversion.default_of_members (Conversion.members_bodyNodes readMembers) parts.stated] at valued
    exact ⟨name, named, called, valued⟩
  · exact fun other name tree spells => spells.nameText
  · exact fun other respelt name same => Tree.defaultFor_respelt same name
  · exact fun name front back extra skipped => Tree.lastCalled?_insert source name front back skipped
  · exact fun name front back extra idle => Tree.defaultFor_insert source name front back idle

/-- `class A extends React.Component<…>` with a field `defaultProps` that is not static, two that are, and all that an
object can hold. -/
def speltSource : Bytes :=
  Utf8.encode ("class A extends React.Component<\x7b'k':string;j:string\x7d>\x7bdefaultProps=\x7bk:0\x7d;" ++
    "static 'defaultProps'=\x7b...r,'k':1,m()\x7b\x7d,/**/\"k\":2,j\x7d;static defaultProps=\x7bk:3\x7d;" ++
    "render()\x7b\x7d\x7d").toList

def speltProp (kind : String) (start stop : Nat) : Tree :=
  ⟨.node "property_signature", none, start, stop + 7,
    [⟨.node kind, some "name", start, stop, []⟩,
      ⟨.node "type_annotation", some "type", stop, stop + 7,
        [⟨.keyword ":", none, stop, stop + 1, []⟩,
          ⟨.node "predefined_type", none, stop + 1, stop + 7, [⟨.keyword "string", none, stop + 1, stop + 7, []⟩]⟩]⟩]⟩

def speltHeritage : Tree :=
  ⟨.node "class_heritage", none, 8, 54,
    [⟨.node "extends_clause", none, 8, 54,
      [⟨.keyword "extends", none, 8, 15, []⟩,
        ⟨.node "member_expression", some "value", 16, 31,
          [⟨.node "identifier", some "object", 16, 21, []⟩, ⟨.keyword ".", none, 21, 22, []⟩,
            ⟨.node "property_identifier", some "property", 22, 31, []⟩]⟩,
        ⟨.node "type_arguments", some "type_arguments", 31, 54,
          [⟨.keyword "<", none, 31, 32, []⟩,
            ⟨.node "object_type", none, 32, 53,
              [speltProp "string" 33 36, ⟨.keyword ";", none, 43, 44, []⟩, speltProp "property_identifier" 44 45]⟩,
            ⟨.keyword ">", none, 53, 54, []⟩]⟩]⟩]⟩

def speltPair (kind : String) (start stop : Nat) : Tree :=
  ⟨.node "pair", none, start, stop + 2,
    [⟨.node kind, some "key", start, stop, []⟩, ⟨.keyword ":", none, stop, stop + 1, []⟩,
      ⟨.node "number", some "value", stop + 1, stop + 2, []⟩]⟩

def speltMethod (start stop : Nat) : Tree :=
  ⟨.node "method_definition", none, start, stop + 4,
    [⟨.node "property_identifier", some "name", start, stop, []⟩,
      ⟨.node "formal_parameters", some "parameters", stop, stop + 2, []⟩,
      ⟨.node "statement_block", some "body", stop + 2, stop + 4, []⟩]⟩

def speltBody : List Tree :=
  [⟨.node "public_field_definition", none, 55, 73,
      [⟨.node "property_identifier", some "name", 55, 67, []⟩,
        ⟨.node "object", some "value", 68, 73, [speltPair "property_identifier" 69 70]⟩]⟩,
    ⟨.node "public_field_definition", none, 74, 126,
      [⟨.keyword "static", none, 74, 80, []⟩, ⟨.node "string", some "name", 81, 95, []⟩,
        ⟨.node "object", some "value", 96, 126,
          [⟨.node "spread_element", none, 97, 101, [⟨.node "identifier", none, 100, 101, []⟩]⟩,
            speltPair "string" 102 105, speltMethod 108 109, ⟨.node "comment", none, 114, 118, []⟩,
            speltPair "string" 118 121, ⟨.node "shorthand_property_identifier", none, 124, 125, []⟩]⟩]⟩,
    ⟨.node "public_field_definition", none, 127, 152,
      [⟨.keyword "static", none, 127, 133, []⟩, ⟨.node "property_identifier", some "name", 134, 146, []⟩,
        ⟨.node "object", some "value", 147, 152, [speltPair "property_identifier" 148 149]⟩]⟩,
    speltMethod 153 159]

def speltClass : List Tree :=
  [⟨.node "type_identifier", some "name", 6, 7, []⟩, speltHeritage,
    ⟨.node "class_body", some "body", 54, 164, speltBody⟩]

def speltFile : SourceFile Kind :=
  ⟨.node "program", [⟨.node "import_statement", [], [],
    .importFrom (some ⟨.node "import_clause", some ⟨.node "identifier", "React"⟩, none, []⟩) "react"⟩], "A.tsx"⟩

def speltStatement (form : StatementForm Kind) : Statement Kind :=
  ⟨.node "class_declaration", [], [⟨.keyword "export", "export"⟩], form⟩

theorem spelt_documented :
    ∃ form component, Conversion.classForm speltSource speltClass = .ok form ∧
      (speltStatement form).classComponent tsxCatalog speltFile "src" = .ok (some component) ∧
      component.props.map (fun prop => (prop.name, prop.defaultValue)) = [("k", "2"), ("j", "j")] := by
  have evaluated : (do
      let form ← Conversion.classForm speltSource speltClass
      let found ← (speltStatement form).classComponent tsxCatalog speltFile "src"
      return found.map fun component => component.props.map fun prop => (prop.name, prop.defaultValue)) =
        Except.ok (some [("k", "2"), ("j", "j")]) := by
    decide +kernel
  obtain ⟨form, read, evaluated⟩ := ok_of_bind evaluated
  obtain ⟨found, computed, evaluated⟩ := ok_of_bind evaluated
  obtain ⟨component, rfl, props⟩ := Option.map_eq_some_iff.mp (Except.ok.inj evaluated)
  exact ⟨form, component, read, computed, props⟩

theorem spelt_defaults_reach_props :
    ∃ form component, Conversion.classForm speltSource speltClass = .ok form ∧
      (speltStatement form).classComponent tsxCatalog speltFile "src" = .ok (some component) ∧
      component.props.map (fun prop => (prop.name, prop.defaultValue)) = [("k", "2"), ("j", "j")] ∧
      ∃ propsMembers : List (Member Kind), List.Forall₂
        (fun member prop => ∃ name, member.name = some name ∧ prop.name = name.text ∧
          prop.defaultValue = Tree.defaultFor speltSource speltBody name.text)
        (propsMembers.filter Member.isProp) component.props := by
  obtain ⟨form, component, read, found, props⟩ := spelt_documented
  obtain ⟨⟨_, _, _, _, propsMembers, -, each⟩, -⟩ :=
    @defaults_reach_props speltSource speltClass (speltStatement form) speltFile "src" component read found
  exact ⟨form, component, read, found, props, propsMembers, each⟩

end ComponentDocs
