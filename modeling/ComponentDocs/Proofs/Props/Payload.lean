import ComponentDocs.Proofs.Props.Provenance

/-! What the type name that a prop is listed under says about its other entries. The names of references are taken from
the source as they are, so one that is spelt like the name for unions or functions is the only way to be misled. -/

namespace ComponentDocs

open Utf8 (Bytes)

namespace Json

def entry (name : String) : Json → Json
  | .object entries => key name entries
  | _ => .null

structure TellsPayload (prop : Json) : Prop where
  enum : prop.entry "type" = .ofString "$enum" ↔ prop.entry "enumOf" ≠ .null
  function : prop.entry "type" = .ofString "$function" ↔ prop.entry "params" ≠ .null
  result : prop.entry "returnType" ≠ .ofString "" ↔ prop.entry "type" = .ofString "$function"
  apart : prop.entry "enumOf" = .null ∨ prop.entry "params" = .null

structure PayloadTells (prop : Json) : Prop where
  enum : prop.entry "enumOf" ≠ .null → prop.entry "type" = .ofString "$enum"
  function : prop.entry "params" ≠ .null → prop.entry "type" = .ofString "$function"
  result : prop.entry "returnType" ≠ .ofString "" ↔ prop.entry "params" ≠ .null
  apart : prop.entry "enumOf" = .null ∨ prop.entry "params" = .null

@[simp] theorem ofString_inj {first second : String} : ofString first = ofString second ↔ first = second := by
  simp [ofString]

end Json

@[simp] theorem NamedType.listToJson_eq_null {entries : Option (List NamedType)} :
    NamedType.listToJson entries = .null ↔ entries = none := by
  cases entries <;> simp [NamedType.listToJson]

namespace PropDoc

variable (prop : PropDoc)

@[simp] theorem entry_type : prop.toJson.entry "type" = .ofString prop.type.tag := rfl

@[simp] theorem entry_enumOf : prop.toJson.entry "enumOf" = NamedType.listToJson prop.type.variants? := rfl

@[simp] theorem entry_params : prop.toJson.entry "params" = NamedType.listToJson prop.type.parameters? := rfl

@[simp] theorem entry_returnType : prop.toJson.entry "returnType" = .ofString prop.type.result := rfl

end PropDoc

namespace Catalog

def typeNames : List String := unknownType :: typeTable.map (·.2)

variable {κ : Type} [DecidableEq κ] (catalog : Catalog κ)

theorem typeName_mem (kind : κ) : catalog.typeName kind ∈ typeNames := by
  rw [typeName, nameIn]
  cases found : typeTable.reverse.find? fun entry => catalog.plays [entry.1] kind with
  | none => exact List.mem_cons_self
  | some entry =>
    have listed : entry ∈ typeTable := List.mem_reverse.mp (List.mem_of_find?_eq_some found)
    exact List.mem_cons_of_mem _ (List.mem_map_of_mem listed)

theorem typeNameOf_mem (type : Option (TypeNode κ)) : catalog.typeNameOf type ∈ typeNames := by
  cases type with
  | none => exact List.mem_cons_self
  | some type => exact catalog.typeName_mem type.kind

end Catalog

/-- What a type can be listed with, by the name of the reference that it is: its name if there is one, and a known name,
a union, or a function with a known result otherwise. -/
inductive PropType.Suits (reference : Option String) : PropType → Prop where
  | referred {name : String} : properName? reference = some name → Suits reference (.named name)
  | known {name : String} : properName? reference = none → name ∈ Catalog.typeNames → Suits reference (.named name)
  | enum {variants : List NamedType} : properName? reference = none → Suits reference (.enum variants)
  | function {parameters : List NamedType} {result : String} : properName? reference = none →
      result ∈ Catalog.typeNames → Suits reference (.function parameters result)

/-- Only unions are listed with variants, and only functions with parameters and a result. -/
structure PropType.IsConsistent (type : PropType) : Prop where
  enum : type.variants? ≠ none → type.tag = "$enum"
  function : type.parameters? ≠ none → type.tag = "$function"
  result : type.result ≠ "" ↔ type.parameters? ≠ none
  apart : type.variants? = none ∨ type.parameters? = none

namespace PropType

theorem suits_of_propType {κ : Type} [DecidableEq κ] {catalog : Catalog κ} {type : TypeNode κ} {documented : PropType}
    (computed : type.propType catalog = .ok documented) : documented.Suits type.name := by
  rw [TypeNode.propType] at computed
  split at computed
  · rename_i name referred
    cases computed
    exact .referred referred
  · rename_i unnamed
    dsimp only at computed
    split at computed
    · cases computed
      exact .known unnamed (catalog.typeName_mem type.kind)
    split at computed
    · obtain ⟨variants, -, computed⟩ := ok_of_bind computed
      cases computed
      exact .enum unnamed
    split at computed
    · cases computed
      exact .function unnamed (catalog.typeNameOf_mem type.result)
    · cases computed
      exact .known unnamed List.mem_cons_self

theorem suits_of_prop {κ : Type} [DecidableEq κ] {catalog : Catalog κ} {defaults : Bindings String String}
    {member : Member κ} {prop : PropDoc} (documented : member.prop catalog defaults = .ok prop) :
    prop.type.Suits (member.type.bind (·.name)) := by
  obtain ⟨name, -, -, -, ⟨untyped, unknown⟩ | ⟨type, typed, computed⟩⟩ := Member.parts_of_prop documented
  · rw [untyped, unknown]
    exact .known rfl List.mem_cons_self
  · rw [typed]
    exact suits_of_propType computed

namespace Suits

variable {reference : Option String} {type : PropType}

theorem isConsistent (suits : type.Suits reference) : type.IsConsistent := by
  cases suits with
  | referred | known | enum => constructor <;> simp [named, PropType.enum]
  | @function parameters result unnamed listed =>
    have proper : result ≠ "" := by
      rintro rfl
      exact absurd listed (by decide)
    constructor <;> simp [PropType.function, proper]

theorem named_of_reference {name : String} (suits : type.Suits (some name)) (proper : name ≠ "") :
    type = .named name := by
  have named : properName? (some name) = some name := by simp [properName?, proper]
  cases suits with
  | referred same =>
    cases named.symm.trans same
    rfl
  | known unnamed | enum unnamed | function unnamed => cases named.symm.trans unnamed

theorem tag_eq_iff {name : String} (suits : type.Suits reference) (proper : name ≠ "")
    (foreign : name ∉ Catalog.typeNames) :
    type.tag = name ↔
      reference = some name ∨ type.variants? ≠ none ∧ name = "$enum" ∨ type.parameters? ≠ none ∧ name = "$function" := by
  have unreferred (unnamed : properName? reference = none) : reference ≠ some name := by
    rintro rfl
    simp [properName?, proper] at unnamed
  cases suits with
  | @referred given same =>
    obtain ⟨rfl, -⟩ := Option.filter_eq_some_iff.mp same
    simp [named]
  | @known given unnamed listed =>
    have other : given ≠ name := fun same => foreign (same ▸ listed)
    simp [named, other, unreferred unnamed]
  | enum unnamed => simp [PropType.enum, unreferred unnamed, eq_comm]
  | function unnamed => simp [PropType.function, unreferred unnamed, eq_comm]

theorem tag_tells_iff {name : String} {payload : Option (List NamedType)} (suits : type.Suits reference)
    (proper : name ≠ "") (tagged : type.tag = name ↔ reference = some name ∨ payload ≠ none)
    (plain : type = .named name → payload = none) : (type.tag = name ↔ payload ≠ none) ↔ reference ≠ some name := by
  constructor
  · rintro tells rfl
    have given : payload ≠ none := tells.mp (tagged.mpr (.inl rfl))
    exact given (plain (suits.named_of_reference proper))
  · intro other
    rw [tagged]
    exact ⟨fun either => either.resolve_left other, .inr⟩

theorem enum_tells_iff (suits : type.Suits reference) :
    (type.tag = "$enum" ↔ type.variants? ≠ none) ↔ reference ≠ some "$enum" := by
  refine suits.tag_tells_iff (by decide) ?_ fun named => by rw [named]; rfl
  simpa using suits.tag_eq_iff (show "$enum" ≠ "" by decide) (by decide)

theorem function_tells_iff (suits : type.Suits reference) :
    (type.tag = "$function" ↔ type.parameters? ≠ none) ↔ reference ≠ some "$function" := by
  refine suits.tag_tells_iff (by decide) ?_ fun named => by rw [named]; rfl
  simpa using suits.tag_eq_iff (show "$function" ≠ "" by decide) (by decide)

end Suits

end PropType

namespace PropDoc

variable {prop : PropDoc}

theorem payloadTells_of_isConsistent (consistent : prop.type.IsConsistent) : prop.toJson.PayloadTells where
  enum := by simpa using consistent.enum
  function := by simpa using consistent.function
  result := by simpa using consistent.result
  apart := by simpa using consistent.apart

theorem tellsPayload_iff_of_suits {reference : Option String} (suits : prop.type.Suits reference) :
    prop.toJson.TellsPayload ↔ reference ≠ some "$enum" ∧ reference ≠ some "$function" := by
  rw [← suits.enum_tells_iff, ← suits.function_tells_iff]
  constructor
  · intro tells
    exact ⟨by simpa using tells.enum, by simpa using tells.function⟩
  · rintro ⟨tellsEnum, tellsFunction⟩
    have consistent := suits.isConsistent
    exact {
      enum := by simpa using tellsEnum
      function := by simpa using tellsFunction
      result := by simpa using consistent.result.trans tellsFunction.symm
      apart := by simpa using consistent.apart }

end PropDoc

theorem Conversion.PropOf.suits {source : Bytes} {root node : Tree} {prop : PropDoc}
    (describes : PropOf source root node prop) : prop.type.Suits (node.declaredReference source) := by
  obtain ⟨member, defaults, reads, described⟩ := describes.described
  rw [← reads.reference]
  exact PropType.suits_of_prop described

theorem Conversion.PropOf.name {source : Bytes} {root node : Tree} {prop : PropDoc}
    (describes : PropOf source root node prop) :
    (Tree.field? "name" node.children).map (Tree.nameText source) = some prop.name := by
  obtain ⟨member, defaults, reads, described⟩ := describes.described
  obtain ⟨name, named, called, -⟩ := Member.parts_of_prop described
  rw [reads.name, tokenField] at named
  obtain ⟨tree, filled, same⟩ := Option.map_eq_some_iff.mp named
  rw [filled, called, ← same]
  rfl

/-- The type name of a listed prop tells its other entries just if the member that the prop describes is not declared
by a reference that the source calls like the name for unions or functions. -/
theorem tag_tells_payload {source : Bytes} {fileName path : RawText} {root : Tree} {file : SourceFile Kind}
    {components : List Component} (read : Conversion.sourceFile source fileName root = .ok file)
    (computed : file.components tsxCatalog path = .ok components) :
    ∀ component ∈ components, ∀ prop ∈ component.props, ∃ node, Conversion.PropOf source root node prop ∧
      (Tree.field? "name" node.children).map (Tree.nameText source) = some prop.name ∧
      (prop.toJson.TellsPayload ↔
        node.declaredReference source ≠ some "$enum" ∧ node.declaredReference source ≠ some "$function") ∧
      prop.toJson.PayloadTells ∧
      ∀ name, node.declaredReference source = some name → name ≠ "" →
        prop.toJson.entry "type" = .ofString name ∧ prop.toJson.entry "enumOf" = .null ∧
          prop.toJson.entry "params" = .null ∧ prop.toJson.entry "returnType" = .ofString "" := by
  intro component present prop listed
  obtain ⟨node, describes⟩ := Conversion.propOf_of_components read computed present listed
  have suits := describes.suits
  refine ⟨node, describes, describes.name, PropDoc.tellsPayload_iff_of_suits suits,
    PropDoc.payloadTells_of_isConsistent suits.isConsistent, ?_⟩
  intro name referred proper
  rw [referred] at suits
  rw [PropDoc.entry_type, PropDoc.entry_enumOf, PropDoc.entry_params, PropDoc.entry_returnType,
    suits.named_of_reference proper]
  exact ⟨rfl, rfl, rfl, rfl⟩

/-- A file with one class, whose props are a union, a function and a reference called `$enum`. -/
def tagSource : Bytes :=
  Utf8.encode ("import React from 'react';export class G extends React.Component<" ++
    "\x7bk:'a'|'b';f:(e:E)=>void;t:$enum\x7d>\x7brender()\x7b\x7d\x7d").toList

def tagText (field : Option String) (start stop : Nat) : Tree :=
  ⟨.node "string", field, start, stop,
    [⟨.keyword "'", none, start, start + 1, []⟩, ⟨.node "string_fragment", none, start + 1, stop - 1, []⟩,
      ⟨.keyword "'", none, stop - 1, stop, []⟩]⟩

def tagProp (start stop : Nat) (type : Tree) : Tree :=
  ⟨.node "property_signature", none, start, stop,
    [⟨.node "property_identifier", some "name", start, start + 1, []⟩,
      ⟨.node "type_annotation", some "type", start + 1, stop,
        [⟨.keyword ":", none, start + 1, start + 2, []⟩, type]⟩]⟩

def tagUnion : Tree :=
  ⟨.node "union_type", none, 68, 75,
    [⟨.node "literal_type", none, 68, 71, [tagText none 68 71]⟩, ⟨.keyword "|", none, 71, 72, []⟩,
      ⟨.node "literal_type", none, 72, 75, [tagText none 72 75]⟩]⟩

def tagFunction : Tree :=
  ⟨.node "function_type", none, 78, 89,
    [⟨.node "formal_parameters", some "parameters", 78, 83,
        [⟨.keyword "(", none, 78, 79, []⟩,
          ⟨.node "required_parameter", none, 79, 82,
            [⟨.node "identifier", some "pattern", 79, 80, []⟩,
              ⟨.node "type_annotation", some "type", 80, 82,
                [⟨.keyword ":", none, 80, 81, []⟩, ⟨.node "type_identifier", none, 81, 82, []⟩]⟩]⟩,
          ⟨.keyword ")", none, 82, 83, []⟩]⟩,
      ⟨.keyword "=>", none, 83, 85, []⟩,
      ⟨.node "predefined_type", some "return_type", 85, 89, [⟨.keyword "void", none, 85, 89, []⟩]⟩]⟩

def tagHeritage : Tree :=
  ⟨.node "class_heritage", none, 41, 99,
    [⟨.node "extends_clause", none, 41, 99,
      [⟨.keyword "extends", none, 41, 48, []⟩,
        ⟨.node "member_expression", some "value", 49, 64,
          [⟨.node "identifier", some "object", 49, 54, []⟩, ⟨.keyword ".", none, 54, 55, []⟩,
            ⟨.node "property_identifier", some "property", 55, 64, []⟩]⟩,
        ⟨.node "type_arguments", some "type_arguments", 64, 99,
          [⟨.keyword "<", none, 64, 65, []⟩,
            ⟨.node "object_type", none, 65, 98,
              [⟨.keyword "\x7b", none, 65, 66, []⟩, tagProp 66 75 tagUnion, ⟨.keyword ";", none, 75, 76, []⟩,
                tagProp 76 89 tagFunction, ⟨.keyword ";", none, 89, 90, []⟩,
                tagProp 90 97 ⟨.node "type_identifier", none, 92, 97, []⟩, ⟨.keyword "\x7d", none, 97, 98, []⟩]⟩,
            ⟨.keyword ">", none, 98, 99, []⟩]⟩]⟩]⟩

def tagRoot : Tree :=
  ⟨.node "program", none, 0, 111,
    [⟨.node "import_statement", none, 0, 26,
        [⟨.keyword "import", none, 0, 6, []⟩,
          ⟨.node "import_clause", none, 7, 12, [⟨.node "identifier", none, 7, 12, []⟩]⟩,
          ⟨.keyword "from", none, 13, 17, []⟩, tagText (some "source") 18 25, ⟨.keyword ";", none, 25, 26, []⟩]⟩,
      ⟨.node "export_statement", none, 26, 111,
        [⟨.keyword "export", none, 26, 32, []⟩,
          ⟨.node "class_declaration", some "declaration", 33, 111,
            [⟨.keyword "class", none, 33, 38, []⟩, ⟨.node "type_identifier", some "name", 39, 40, []⟩, tagHeritage,
              ⟨.node "class_body", some "body", 99, 111,
                [⟨.keyword "\x7b", none, 99, 100, []⟩,
                  ⟨.node "method_definition", none, 100, 110,
                    [⟨.node "property_identifier", some "name", 100, 106, []⟩,
                      ⟨.node "formal_parameters", some "parameters", 106, 108,
                        [⟨.keyword "(", none, 106, 107, []⟩, ⟨.keyword ")", none, 107, 108, []⟩]⟩,
                      ⟨.node "statement_block", some "body", 108, 110,
                        [⟨.keyword "\x7b", none, 108, 109, []⟩, ⟨.keyword "\x7d", none, 109, 110, []⟩]⟩]⟩,
                  ⟨.keyword "\x7d", none, 110, 111, []⟩]⟩]⟩]⟩]⟩

theorem tag_components :
    ∃ file component, Conversion.sourceFile tagSource "G.tsx" tagRoot = .ok file ∧
      file.components tsxCatalog "src" = .ok [component] ∧
      component.props =
        [⟨"k", .enum [⟨"a", "string"⟩, ⟨"b", "string"⟩], true, "", ""⟩,
          ⟨"f", .function [⟨"e", "$unknown"⟩] "void", true, "", ""⟩, ⟨"t", .named "$enum", true, "", ""⟩] := by
  have evaluated : (do
      let file ← Conversion.sourceFile tagSource "G.tsx" tagRoot
      file.components tsxCatalog "src") =
        Except.ok [⟨"G", "src", .classBased, "",
          [⟨"k", .enum [⟨"a", "string"⟩, ⟨"b", "string"⟩], true, "", ""⟩,
            ⟨"f", .function [⟨"e", "$unknown"⟩] "void", true, "", ""⟩, ⟨"t", .named "$enum", true, "", ""⟩], ""⟩] := by
    decide +kernel
  obtain ⟨file, read, computed⟩ := ok_of_bind evaluated
  exact ⟨file, _, read, computed, rfl⟩

theorem tagged_payloads :
    ∃ file component, Conversion.sourceFile tagSource "G.tsx" tagRoot = .ok file ∧
      file.components tsxCatalog "src" = .ok [component] ∧ component.props.map PropDoc.name = ["k", "f", "t"] ∧
      ∀ prop ∈ component.props, ∃ node, Conversion.PropOf tagSource tagRoot node prop ∧
        (prop.toJson.TellsPayload ↔
          node.declaredReference tagSource ≠ some "$enum" ∧ node.declaredReference tagSource ≠ some "$function") := by
  obtain ⟨file, component, read, computed, props⟩ := tag_components
  refine ⟨file, component, read, computed, by rw [props]; rfl, ?_⟩
  intro prop listed
  obtain ⟨node, describes, -, tells, -⟩ :=
    @tag_tells_payload tagSource "G.tsx" "src" tagRoot file [component] read computed component
      List.mem_cons_self prop listed
  exact ⟨node, describes, tells⟩

theorem enum_reference_misleads :
    ∃ file component, Conversion.sourceFile tagSource "G.tsx" tagRoot = .ok file ∧
      file.components tsxCatalog "src" = .ok [component] ∧
      ∃ prop ∈ component.props, prop.toJson.entry "type" = .ofString "$enum" ∧ prop.toJson.entry "enumOf" = .null ∧
        ¬ prop.toJson.TellsPayload := by
  obtain ⟨file, component, read, computed, props⟩ := tag_components
  refine ⟨file, component, read, computed, ⟨"t", .named "$enum", true, "", ""⟩, ?_, rfl, rfl, ?_⟩
  · rw [props]
    simp
  · intro tells
    exact tells.enum.mp rfl rfl

end ComponentDocs
