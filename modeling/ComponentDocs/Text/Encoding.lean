import ComponentDocs.Text.Utf8

namespace ComponentDocs

open Utf8 (Bytes replacement)

inductive Encoding where
  | ascii
  | utf8
  | utf8Marked
  | latin1
  | windows1252
  | utf16
deriving DecidableEq, Repr

namespace Encoding

def named? (name : String) : Option Encoding :=
  match name.toLower with
  | "ascii" => some .ascii
  | "utf-8" => some .utf8
  | "utf-8-sig" => some .utf8Marked
  | "iso-8859-1" => some .latin1
  | "windows-1252" => some .windows1252
  | "utf-16" => some .utf16
  | _ => none

/-- The characters of the bytes 0x80 to 0x9F in Windows-1252; zero marks the five bytes that have none. -/
def windows1252Block : List Nat :=
  [0x20AC, 0, 0x201A, 0x0192, 0x201E, 0x2026, 0x2020, 0x2021, 0x02C6, 0x2030, 0x0160, 0x2039, 0x0152, 0, 0x017D, 0,
    0, 0x2018, 0x2019, 0x201C, 0x201D, 0x2022, 0x2013, 0x2014, 0x02DC, 0x2122, 0x0161, 0x203A, 0x0153, 0, 0x017E,
    0x0178]

def windows1252Char (byte : UInt8) : Char :=
  if byte.toNat < 0x80 ∨ 0xA0 ≤ byte.toNat then Char.ofNat byte.toNat
  else
    match windows1252Block[byte.toNat - 0x80]? with
    | some 0 => replacement
    | some value => Char.ofNat value
    | none => replacement

def isHighSurrogate (unit : Nat) : Bool := 0xD800 ≤ unit && unit < 0xDC00

def isLowSurrogate (unit : Nat) : Bool := 0xDC00 ≤ unit && unit < 0xE000

def joinSurrogates (high low : Nat) : Char :=
  Char.ofNat (0x10000 + (high - 0xD800) * 0x400 + (low - 0xDC00))

/-- Reads 16-bit units, each the value of two bytes under `unit`. An unpaired surrogate is replaced; at the end, a high
surrogate with what follows it, or a single left-over byte, is replaced as one. -/
def decodeUnits (unit : UInt8 → UInt8 → Nat) : Bytes → List Char
  | [] => []
  | [_] => [replacement]
  | a :: b :: c :: d :: rest =>
    if isHighSurrogate (unit a b) then
      if isLowSurrogate (unit c d) then joinSurrogates (unit a b) (unit c d) :: decodeUnits unit rest
      else replacement :: decodeUnits unit (c :: d :: rest)
    else (if isLowSurrogate (unit a b) then replacement else Char.ofNat (unit a b)) ::
      decodeUnits unit (c :: d :: rest)
  | a :: b :: rest =>
    if isHighSurrogate (unit a b) then [replacement]
    else (if isLowSurrogate (unit a b) then replacement else Char.ofNat (unit a b)) ::
      decodeUnits unit rest

def littleEndian (first second : UInt8) : Nat := first.toNat + 256 * second.toNat

def bigEndian (first second : UInt8) : Nat := 256 * first.toNat + second.toNat

def decodeUtf16 : Bytes → List Char
  | 0xFF :: 0xFE :: rest => decodeUnits littleEndian rest
  | 0xFE :: 0xFF :: rest => decodeUnits bigEndian rest
  | bytes => decodeUnits littleEndian bytes

def decode : Encoding → Bytes → List Char
  | .ascii, bytes => bytes.map fun b => if b.toNat < 0x80 then Char.ofNat b.toNat else replacement
  | .utf8, bytes => Utf8.decodeLossy bytes
  | .utf8Marked, 0xEF :: 0xBB :: 0xBF :: rest => Utf8.decodeLossy rest
  | .utf8Marked, bytes => Utf8.decodeLossy bytes
  | .latin1, bytes => bytes.map fun b => Char.ofNat b.toNat
  | .windows1252, bytes => bytes.map windows1252Char
  | .utf16, bytes => decodeUtf16 bytes

def decodeNamed (name : String) (bytes : Bytes) : Option (List Char) := (named? name).map (·.decode bytes)

end Encoding

end ComponentDocs
