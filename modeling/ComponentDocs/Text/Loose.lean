import ComponentDocs.Text.Blank

/-! Texts in which a surrogate may stand alone. Escapes can spell such texts, but no encoding can write them. -/

namespace ComponentDocs

/-- A code point: a character, or a surrogate without its partner. -/
inductive CodePoint where
  | char (c : Char)
  | surrogate (code : Nat)
deriving DecidableEq, Repr

namespace CodePoint

instance : Coe Char CodePoint := ⟨.char⟩

def char? : CodePoint → Option Char
  | .char c => some c
  | .surrogate _ => none

def isLone (point : CodePoint) : Bool := point.char?.isNone

def satisfies (holds : Char → Bool) (point : CodePoint) : Bool := point.char?.any holds

def isBlank (point : CodePoint) : Bool := point.satisfies Text.isBlank

def trimStart (points : List CodePoint) : List CodePoint := points.dropWhile isBlank

def trim (points : List CodePoint) : List CodePoint := Text.dropEndWhile isBlank (trimStart points)

def rank : CodePoint → Nat
  | .char c => 2 * c.toNat
  | .surrogate code => 2 * code + 1

instance : LE CodePoint := ⟨fun a b => a.rank ≤ b.rank⟩

instance : LT CodePoint := ⟨fun a b => a.rank < b.rank⟩

instance : DecidableLE CodePoint := fun a b => inferInstanceAs (Decidable (a.rank ≤ b.rank))

instance : DecidableLT CodePoint := fun a b => inferInstanceAs (Decidable (a.rank < b.rank))

end CodePoint

/-- A text, or code points among which a surrogate stands alone. -/
inductive LooseText where
  | proper (text : String)
  | broken (points : List CodePoint) (lone : points.any CodePoint.isLone = true)
deriving DecidableEq, Repr

namespace LooseText

instance : Coe String LooseText := ⟨.proper⟩

def points : LooseText → List CodePoint
  | .proper text => text.toList.map .char
  | .broken points _ => points

def ofPoints (points : List CodePoint) : LooseText :=
  if lone : points.any CodePoint.isLone then .broken points lone
  else .proper (String.ofList (points.filterMap CodePoint.char?))

theorem ofPoints_points (text : LooseText) : ofPoints text.points = text := by
  cases text with
  | proper text =>
    have whole : (text.toList.map CodePoint.char).any CodePoint.isLone = false := by
      simp [CodePoint.isLone, CodePoint.char?]
    have same : (text.toList.map CodePoint.char).filterMap CodePoint.char? = text.toList := by
      rw [List.filterMap_map]
      exact List.filterMap_some
    simp [points, ofPoints, whole, same]
  | broken points lone => simp [LooseText.points, ofPoints, lone]

def proper? : LooseText → Option String
  | .proper text => some text
  | .broken _ _ => none

def isEmpty (text : LooseText) : Bool := text == .proper ""

end LooseText

end ComponentDocs
