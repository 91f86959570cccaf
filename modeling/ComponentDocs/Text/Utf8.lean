/-! UTF-8 as a byte-by-byte scan. Every byte sequence has a scan, in which each maximal ill-formed part counts as one
unreadable item; strict decoding refuses such items and lossy decoding replaces them. -/

namespace ComponentDocs.Utf8

abbrev Bytes := List UInt8

/-- A character under way: how many continuation bytes are missing, the interval the next one has to lie in, and the
value of the bits read so far. -/
structure Pending where
  missing : Nat
  low : Nat
  high : Nat
  value : Nat
deriving DecidableEq, Repr

def replacement : Char := Char.ofNat 0xFFFD

/-- What a byte does where a character starts. The narrowed intervals after 0xE0, 0xED, 0xF0 and 0xF4 shut out overlong
forms, surrogates and values above the last code point. -/
def start (byte : UInt8) : List (Option Char) × Option Pending :=
  let b := byte.toNat
  if b < 0x80 then ([some (Char.ofNat b)], none)
  else if b < 0xC2 then ([none], none)
  else if b < 0xE0 then ([], some ⟨1, 0x80, 0xBF, b - 0xC0⟩)
  else if b = 0xE0 then ([], some ⟨2, 0xA0, 0xBF, 0⟩)
  else if b = 0xED then ([], some ⟨2, 0x80, 0x9F, b - 0xE0⟩)
  else if b < 0xF0 then ([], some ⟨2, 0x80, 0xBF, b - 0xE0⟩)
  else if b = 0xF0 then ([], some ⟨3, 0x90, 0xBF, 0⟩)
  else if b < 0xF4 then ([], some ⟨3, 0x80, 0xBF, b - 0xF0⟩)
  else if b = 0xF4 then ([], some ⟨3, 0x80, 0x8F, b - 0xF0⟩)
  else ([none], none)

def step (pending : Option Pending) (byte : UInt8) : List (Option Char) × Option Pending :=
  match pending with
  | none => start byte
  | some p =>
    if p.low ≤ byte.toNat ∧ byte.toNat ≤ p.high then
      let value := p.value * 64 + (byte.toNat - 0x80)
      if p.missing ≤ 1 then ([some (Char.ofNat value)], none)
      else ([], some ⟨p.missing - 1, 0x80, 0xBF, value⟩)
    else
      let (items, next) := start byte
      (none :: items, next)

def scanFrom : Option Pending → Bytes → List (Option Char)
  | none, [] => []
  | some _, [] => [none]
  | pending, byte :: rest =>
    let (items, next) := step pending byte
    items ++ scanFrom next rest

def scan (bytes : Bytes) : List (Option Char) := scanFrom none bytes

def decode? (bytes : Bytes) : Option (List Char) := (scan bytes).mapM id

def decodeLossy (bytes : Bytes) : List Char := (scan bytes).map fun item => item.getD replacement

def first? (bytes : Bytes) : Option Char :=
  (scan (bytes.take 4)).head?.join.filter fun c => (String.utf8EncodeChar c).isPrefixOf bytes

def encode (text : List Char) : Bytes := text.flatMap String.utf8EncodeChar

end ComponentDocs.Utf8
