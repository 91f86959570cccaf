import ComponentDocs.Text.Loose
import ComponentDocs.Text.Utf8

/-! Texts as they come from the system: paths, the words of a command line, and what is printed. The system itself knows
bytes only. A byte that is no part of a character comes as the surrogate 0xDC00 above it, and goes back as that byte. -/

namespace ComponentDocs

open Utf8 (Bytes)

abbrev RawText := List CodePoint

instance : Coe String RawText := ⟨fun text => text.toList.map .char⟩

abbrev slash : CodePoint := .char '/'

abbrev dot : CodePoint := .char '.'

namespace CodePoint

def bytes? : CodePoint → Option Bytes
  | .char c => some (String.utf8EncodeChar c)
  | .surrogate code =>
    if 0xDC80 ≤ code ∧ code ≤ 0xDCFF then some [UInt8.ofNat (code - 0xDC00)] else none

def ofByte (byte : UInt8) : CodePoint := .surrogate (0xDC00 + byte.toNat)

end CodePoint

namespace RawText

/-- Whether no surrogate stands alone, so that the text can be written in UTF-8. -/
def isProper (text : RawText) : Bool := !text.any CodePoint.isLone

def bytes? (text : RawText) : Option Bytes := (text.mapM CodePoint.bytes?).map List.flatten

/-- The text of some bytes, of which the first few belong to a character that was read already. -/
def ofBytesFrom : (read : Nat) → Bytes → RawText
  | _, [] => []
  | read + 1, _ :: rest => ofBytesFrom read rest
  | 0, byte :: rest =>
    match Utf8.first? (byte :: rest) with
    | some c => .char c :: ofBytesFrom (c.utf8Size - 1) rest
    | none => .ofByte byte :: ofBytesFrom 0 rest

def ofBytes (bytes : Bytes) : RawText := ofBytesFrom 0 bytes

def shown (text : RawText) : String := String.ofList (text.map fun point => point.char?.getD Utf8.replacement)

def lines (text : RawText) : List RawText := Text.splitAt (CodePoint.char '\n') text

end RawText

end ComponentDocs
