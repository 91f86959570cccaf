import ComponentDocs.Proofs.Text.Slices
import ComponentDocs.Store.Basic

namespace ComponentDocs

namespace Utf8

theorem isPrefixOf_of_first? {bytes : Bytes} {c : Char} (read : first? bytes = some c) :
    String.utf8EncodeChar c <+: bytes :=
  List.isPrefixOf_iff_prefix.mp (Option.filter_eq_some_iff.mp read).2

theorem first?_of_ascii {byte : UInt8} (ascii : byte.toNat < 0x80) (rest : Bytes) :
    first? (byte :: rest) = some (Char.ofNat byte.toNat) := by
  have valid : byte.toNat.isValidChar := .inl (by omega)
  have begins : start byte = ([some (Char.ofNat byte.toNat)], none) := by rw [start, if_pos ascii]
  have value : (Char.ofNat byte.toNat).toNat = byte.toNat := by
    rw [Char.ofNat, dif_pos valid]
    exact UInt32.toNat_ofNatLT
  have encoded : String.utf8EncodeChar (Char.ofNat byte.toNat) = [byte] := by
    have bits : (Char.ofNat byte.toNat).val.toNat = byte.toNat := value
    simp [String.utf8EncodeChar, bits, Nat.le_of_lt_succ ascii]
  simp [first?, scan, scanFrom, step, begins, encoded]

end Utf8

open Utf8 (Bytes)

namespace RawText

theorem bytes?_cons (point : CodePoint) (rest : RawText) :
    bytes? (point :: rest) = point.bytes?.bind fun bytes => (bytes? rest).map (bytes ++ ·) := by
  cases here : point.bytes? with
  | none => simp [bytes?, here]
  | some bytes => cases later : rest.mapM CodePoint.bytes? <;> simp [bytes?, here, later]

theorem bytes?_ofByte {byte : UInt8} (high : 0x80 ≤ byte.toNat) : (CodePoint.ofByte byte).bytes? = some [byte] := by
  have small := byte.toNat_lt
  have inside : 0xDC80 ≤ 0xDC00 + byte.toNat ∧ 0xDC00 + byte.toNat ≤ 0xDCFF := by omega
  rw [CodePoint.ofByte, CodePoint.bytes?, if_pos inside, Nat.add_sub_cancel_left, UInt8.ofNat_toNat]

theorem bytes?_ofBytesFrom (read : Nat) (bytes : Bytes) : bytes? (ofBytesFrom read bytes) = some (bytes.drop read) := by
  fun_induction ofBytesFrom read bytes with
  | case1 read => simp [bytes?]
  | case2 read byte rest ih => rw [ih, List.drop_succ_cons]
  | case3 byte rest c first ih =>
    obtain ⟨later, whole⟩ := Utf8.isPrefixOf_of_first? first
    have size : (String.utf8EncodeChar c).length = c.utf8Size - 1 + 1 := by
      rw [String.length_utf8EncodeChar, Nat.sub_add_cancel c.utf8Size_pos]
    have dropped : rest.drop (c.utf8Size - 1) = later := by
      rw [← List.drop_succ_cons (a := byte), ← size, ← whole, List.drop_left]
    rw [bytes?_cons, ih, dropped]
    exact congrArg some whole
  | case4 byte rest none ih =>
    have high : 0x80 ≤ byte.toNat := by
      refine Nat.le_of_not_lt ?_
      intro ascii
      rw [Utf8.first?_of_ascii ascii] at none
      cases none
    rw [bytes?_cons, bytes?_ofByte high, ih]
    rfl

theorem bytes?_ofBytes (bytes : Bytes) : bytes? (ofBytes bytes) = some bytes := bytes?_ofBytesFrom 0 bytes

theorem byte_mem_of_bytes? {text : RawText} {bytes : Bytes} (written : text.bytes? = some bytes)
    (present : slash ∈ text) : 0x2F ∈ bytes := by
  induction text generalizing bytes with
  | nil => cases present
  | cons point rest ih =>
    rw [bytes?_cons] at written
    obtain ⟨own, here, written⟩ := Option.bind_eq_some_iff.mp written
    obtain ⟨others, later, rfl⟩ := Option.map_eq_some_iff.mp written
    rcases List.mem_cons.mp present with rfl | behind
    · cases here
      exact List.mem_append_left _ (by decide)
    · exact List.mem_append_right _ (ih later behind)

end RawText

namespace Name

theorem ofText_text (name : Name) : ofText name.text = .ok name := by
  obtain ⟨bytes, isName⟩ := name
  have notNull : 0 ∉ bytes := isName.2.2.2.2.1
  have short : ¬ maxName < bytes.length := Nat.not_lt.mpr isName.2.2.2.2.2
  rw [ofText, Name.text, RawText.bytes?_ofBytes]
  dsimp only
  rw [if_neg notNull, if_neg short, ofBytes?, dif_pos isName]

theorem text_injective : Function.Injective text := by
  intro name other same
  have read := ofText_text name
  rw [same, ofText_text other] at read
  exact (Except.ok.inj read).symm

theorem mapM_ofText_text (location : Location) : (location.map text).mapM ofText = .ok location := by
  induction location with
  | nil => rfl
  | cons name rest ih =>
    rw [List.map_cons, List.mapM_cons, ofText_text, ih]
    rfl

end Name

end ComponentDocs
