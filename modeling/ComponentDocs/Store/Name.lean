import ComponentDocs.Text.Raw

namespace ComponentDocs

open Utf8 (Bytes)

inductive FileProblem where
  | missing
  | isFolder
  | notAFolder
  | alreadyThere
  | unencodable
  | nullName
  | nameTooLong
deriving DecidableEq, Repr

def maxName : Nat := 255

def IsName (bytes : Bytes) : Prop :=
  bytes ≠ [] ∧ bytes ≠ [0x2E] ∧ bytes ≠ [0x2E, 0x2E] ∧ 0x2F ∉ bytes ∧ 0 ∉ bytes ∧ bytes.length ≤ maxName

instance (bytes : Bytes) : Decidable (IsName bytes) :=
  inferInstanceAs (Decidable
    (bytes ≠ [] ∧ bytes ≠ [0x2E] ∧ bytes ≠ [0x2E, 0x2E] ∧ 0x2F ∉ bytes ∧ 0 ∉ bytes ∧ bytes.length ≤ maxName))

structure Name where
  bytes : Bytes
  isName : IsName bytes
deriving DecidableEq, Repr

namespace Name

def ofBytes? (bytes : Bytes) : Option Name := if isName : IsName bytes then some ⟨bytes, isName⟩ else none

/-- The name that a text spells, or why it spells none. What has a meaning of its own in a path names nothing. -/
def ofText (text : RawText) : Except FileProblem Name :=
  match text.bytes? with
  | none => .error .unencodable
  | some bytes =>
    if 0 ∈ bytes then .error .nullName
    else if maxName < bytes.length then .error .nameTooLong
    else
      match ofBytes? bytes with
      | some name => .ok name
      | none => .error .missing

def text (name : Name) : RawText := .ofBytes name.bytes

end Name

end ComponentDocs
