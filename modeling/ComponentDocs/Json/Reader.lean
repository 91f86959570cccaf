import ComponentDocs.Json.Token

/-! Building a JSON document from its tokens with a stack of open arrays and objects. -/

namespace ComponentDocs.Json

inductive Frame where
  | array (reversed : List Json)
  | object (reversed : List (LooseText × Json))
  | entry (reversed : List (LooseText × Json)) (name : LooseText)

inductive Expects where
  | value
  | valueOrEnd
  | name
  | nameOrEnd
  | colon
  | commaOrEnd
  | done (document : Json)

structure Builder where
  frames : List Frame
  expects : Expects

namespace Builder

def add (frames : List Frame) (value : Json) : Option Builder :=
  match frames with
  | [] => some ⟨[], .done value⟩
  | .array reversed :: outer => some ⟨.array (value :: reversed) :: outer, .commaOrEnd⟩
  | .entry reversed name :: outer => some ⟨.object ((name, value) :: reversed) :: outer, .commaOrEnd⟩
  | .object _ :: _ => none

def beginValue (frames : List Frame) : Token → Option Builder
  | .atom value => add frames value
  | .string value => add frames (.text value)
  | .mark '[' => some ⟨.array [] :: frames, .valueOrEnd⟩
  | .mark '\x7b' => some ⟨.object [] :: frames, .nameOrEnd⟩
  | .mark _ => none

def close (frames : List Frame) (mark : Char) : Option Builder :=
  match mark, frames with
  | ']', .array reversed :: outer => add outer (.array reversed.reverse)
  | '\x7d', .object reversed :: outer => add outer (.object (Bindings.ofPairs reversed.reverse))
  | _, _ => none

def beginEntry (frames : List Frame) (name : LooseText) : Option Builder :=
  match frames with
  | .object reversed :: outer => some ⟨.entry reversed name :: outer, .colon⟩
  | _ => none

def step (builder : Builder) (token : Token) : Option Builder :=
  match builder.expects, token with
  | .value, token => beginValue builder.frames token
  | .valueOrEnd, .mark ']' => close builder.frames ']'
  | .valueOrEnd, token => beginValue builder.frames token
  | .name, .string name => beginEntry builder.frames name
  | .nameOrEnd, .string name => beginEntry builder.frames name
  | .nameOrEnd, .mark '\x7d' => close builder.frames '\x7d'
  | .colon, .mark ':' => some ⟨builder.frames, .value⟩
  | .commaOrEnd, .mark ',' =>
    match builder.frames with
    | .array _ :: _ => some ⟨builder.frames, .value⟩
    | _ => some ⟨builder.frames, .name⟩
  | .commaOrEnd, .mark c => close builder.frames c
  | _, _ => none

end Builder

/-- Reads a text that is one JSON document, perhaps between white space. A key that is repeated keeps its first place
and its last value. -/
def read? (text : List Char) : Option Json := do
  let tokens ← tokens? text
  let final ← tokens.foldlM Builder.step ⟨[], .value⟩
  match final.expects with
  | .done document => some document
  | _ => none

end ComponentDocs.Json
