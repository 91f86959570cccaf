import ComponentDocs.Syntax.Role

/-! The text of a node, told from the characters of the source. Offsets count bytes, so a node may begin or end inside a
character: the left-over bytes at its front are replaced one by one, and a character that breaks off at its end is
replaced as a whole. -/

namespace ComponentDocs

namespace Utf8

def Continues (byte : UInt8) : Prop := 0x80 ≤ byte.toNat ∧ byte.toNat < 0xC0

/-- The bytes that complete a character under way. -/
inductive Pending.Awaits (c : Char) : Pending → Bytes → Prop where
  | last {pending : Pending} {byte : UInt8} (continues : Continues byte)
      (interval : pending.low ≤ byte.toNat ∧ byte.toNat ≤ pending.high) (missing : pending.missing = 1)
      (value : pending.value * 64 + (byte.toNat - 0x80) = c.toNat) : pending.Awaits c [byte]
  | more {pending : Pending} {byte : UInt8} {later : Bytes} (continues : Continues byte)
      (interval : pending.low ≤ byte.toNat ∧ byte.toNat ≤ pending.high) (missing : 1 < pending.missing)
      (rest : Awaits c ⟨pending.missing - 1, 0x80, 0xBF, pending.value * 64 + (byte.toNat - 0x80)⟩ later) :
      pending.Awaits c (byte :: later)

/-- The first byte of a character is the whole of it, or puts it under way until the later bytes complete it. -/
inductive Encodes (c : Char) : Bytes → Prop where
  | alone {byte : UInt8} (begins : start byte = ([some c], none)) : Encodes c [byte]
  | wide {byte : UInt8} {later : Bytes} {pending : Pending} (begins : start byte = ([], some pending))
      (awaits : pending.Awaits c later) : Encodes c (byte :: later)

theorem Pending.Awaits.continues {c : Char} {pending : Pending} {bytes : Bytes} (awaits : pending.Awaits c bytes) :
    ∀ byte ∈ bytes, Continues byte := by
  induction awaits with
  | last continues => simpa using continues
  | more continues _ _ _ ih => exact List.forall_mem_cons.mpr ⟨continues, ih⟩

theorem scanFrom_awaited {c : Char} {pending : Pending} {bytes : Bytes} (awaits : pending.Awaits c bytes)
    (rest : Bytes) : scanFrom (some pending) (bytes ++ rest) = some c :: scanFrom none rest := by
  induction awaits with
  | last _ interval missing value => simp [scanFrom, step, interval, missing, value]
  | more _ interval missing _ ih => simp [scanFrom, step, interval, Nat.not_le.mpr missing, ih]

theorem scanFrom_awaited_take {c : Char} {pending : Pending} {bytes : Bytes} (awaits : pending.Awaits c bytes)
    {count : Nat} (short : count < bytes.length) : scanFrom (some pending) (bytes.take count) = [none] := by
  induction awaits generalizing count with
  | last =>
    have empty : count = 0 := Nat.lt_one_iff.mp short
    rw [empty]
    rfl
  | more _ interval missing _ ih =>
    cases count with
    | zero => rfl
    | succ count =>
      have shorter := ih (Nat.lt_of_succ_lt_succ short)
      simp [scanFrom, step, interval, Nat.not_le.mpr missing, shorter]

theorem start_two {byte : UInt8} (least : 0xC2 ≤ byte.toNat) (most : byte.toNat < 0xE0) :
    start byte = ([], some ⟨1, 0x80, 0xBF, byte.toNat - 0xC0⟩) := by
  rw [start, if_neg (by omega), if_neg (by omega), if_pos most]

theorem start_three {byte : UInt8} (least : 0xE0 ≤ byte.toNat) (most : byte.toNat < 0xF0) :
    start byte = ([], some ⟨2, if byte.toNat = 0xE0 then 0xA0 else 0x80, if byte.toNat = 0xED then 0x9F else 0xBF,
      byte.toNat - 0xE0⟩) := by
  rw [start, if_neg (by omega), if_neg (by omega), if_neg (by omega)]
  by_cases first : byte.toNat = 0xE0
  · simp [first]
  by_cases narrowed : byte.toNat = 0xED
  · simp [narrowed]
  · simp [first, narrowed, most]

theorem start_four {byte : UInt8} (least : 0xF0 ≤ byte.toNat) (most : byte.toNat < 0xF5) :
    start byte = ([], some ⟨3, if byte.toNat = 0xF0 then 0x90 else 0x80, if byte.toNat = 0xF4 then 0x8F else 0xBF,
      byte.toNat - 0xF0⟩) := by
  rw [start, if_neg (by omega), if_neg (by omega), if_neg (by omega), if_neg (by omega), if_neg (by omega),
    if_neg (by omega)]
  by_cases first : byte.toNat = 0xF0
  · simp [first]
  by_cases last : byte.toNat = 0xF4
  · simp [last]
  · have middle : byte.toNat < 0xF4 := by omega
    simp [first, last, middle]

theorem toNat_ofNat_of_lt {n : Nat} (small : n < 256) : (UInt8.ofNat n).toNat = n := Nat.mod_eq_of_lt small

theorem continues_ofNat {n : Nat} (bits : n < 64) :
    Continues (UInt8.ofNat (n + 0x80)) ∧ (UInt8.ofNat (n + 0x80)).toNat = n + 0x80 := by
  have byte : (UInt8.ofNat (n + 0x80)).toNat = n + 0x80 := toNat_ofNat_of_lt (by omega)
  exact ⟨⟨by omega, by omega⟩, byte⟩

theorem encodes_two {c : Char} (least : 0x7F < c.toNat) (most : c.toNat ≤ 0x7FF) :
    Encodes c [UInt8.ofNat (c.toNat / 64 % 32 + 192), UInt8.ofNat (c.toNat % 64 + 128)] := by
  have first : (UInt8.ofNat (c.toNat / 64 % 32 + 192)).toNat = c.toNat / 64 % 32 + 192 := toNat_ofNat_of_lt (by omega)
  obtain ⟨continues, second⟩ := continues_ofNat (n := c.toNat % 64) (by omega)
  refine .wide (start_two (by omega) (by omega)) (.last continues ?_ rfl ?_)
  all_goals
    dsimp only
    omega

theorem encodes_three {c : Char} (least : 0x7FF < c.toNat) (most : c.toNat ≤ 0xFFFF) :
    Encodes c [UInt8.ofNat (c.toNat / 4096 % 16 + 224), UInt8.ofNat (c.toNat / 64 % 64 + 128),
      UInt8.ofNat (c.toNat % 64 + 128)] := by
  -- no character is a surrogate, so the interval after 0xED shuts none out
  have valid : c.toNat < 0xD800 ∨ 0xDFFF < c.toNat ∧ c.toNat < 0x110000 := c.valid
  have first : (UInt8.ofNat (c.toNat / 4096 % 16 + 224)).toNat = c.toNat / 4096 % 16 + 224 :=
    toNat_ofNat_of_lt (by omega)
  obtain ⟨continues, second⟩ := continues_ofNat (n := c.toNat / 64 % 64) (by omega)
  obtain ⟨continues', third⟩ := continues_ofNat (n := c.toNat % 64) (by omega)
  refine .wide (start_three (by omega) (by omega)) (.more continues ?_ Nat.one_lt_two (.last continues' ?_ rfl ?_))
  · dsimp only
    split <;> split <;> omega
  all_goals
    dsimp only
    omega

theorem encodes_four {c : Char} (least : 0xFFFF < c.toNat) :
    Encodes c [UInt8.ofNat (c.toNat / 262144 % 8 + 240), UInt8.ofNat (c.toNat / 4096 % 64 + 128),
      UInt8.ofNat (c.toNat / 64 % 64 + 128), UInt8.ofNat (c.toNat % 64 + 128)] := by
  have valid : c.toNat < 0xD800 ∨ 0xDFFF < c.toNat ∧ c.toNat < 0x110000 := c.valid
  have first : (UInt8.ofNat (c.toNat / 262144 % 8 + 240)).toNat = c.toNat / 262144 % 8 + 240 :=
    toNat_ofNat_of_lt (by omega)
  obtain ⟨continues, second⟩ := continues_ofNat (n := c.toNat / 4096 % 64) (by omega)
  obtain ⟨continues', third⟩ := continues_ofNat (n := c.toNat / 64 % 64) (by omega)
  obtain ⟨continues'', fourth⟩ := continues_ofNat (n := c.toNat % 64) (by omega)
  refine .wide (start_four (by omega) (by omega)) (.more continues ?_ (by simp)
    (.more continues' ?_ Nat.one_lt_two (.last continues'' ?_ rfl ?_)))
  · dsimp only
    split <;> split <;> omega
  all_goals
    dsimp only
    omega

theorem encodes_utf8EncodeChar (c : Char) : Encodes c (String.utf8EncodeChar c) := by
  have value : c.val.toNat = c.toNat := rfl
  rw [String.utf8EncodeChar, value]
  split
  · have byte : (UInt8.ofNat c.toNat).toNat = c.toNat := toNat_ofNat_of_lt (by omega)
    refine .alone ?_
    rw [start, byte, if_pos (by omega), Char.ofNat_toNat]
  split
  · exact encodes_two (by omega) (by omega)
  split
  · exact encodes_three (by omega) (by omega)
  · exact encodes_four (by omega)

theorem scan_of_encodes {c : Char} {bytes : Bytes} (encodes : Encodes c bytes) (rest : Bytes) :
    scan (bytes ++ rest) = some c :: scan rest := by
  cases encodes with
  | alone begins => simp [scan, scanFrom, step, begins]
  | wide begins awaits => simp [scan, scanFrom, step, begins, scanFrom_awaited awaits rest]

theorem scan_of_encodes_take {c : Char} {bytes : Bytes} (encodes : Encodes c bytes) {count : Nat}
    (positive : 0 < count) (short : count < bytes.length) : scan (bytes.take count) = [none] := by
  obtain ⟨fewer, rfl⟩ := Nat.exists_eq_add_one.mpr positive
  cases encodes with
  | alone => exact absurd (Nat.lt_of_succ_lt_succ short) (Nat.not_lt_zero fewer)
  | wide begins awaits =>
    simp [scan, scanFrom, step, begins, scanFrom_awaited_take awaits (Nat.lt_of_succ_lt_succ short)]

theorem continues_of_mem_drop {c : Char} {bytes : Bytes} (encodes : Encodes c bytes) {count : Nat}
    (positive : 0 < count) : ∀ byte ∈ bytes.drop count, Continues byte := by
  obtain ⟨fewer, rfl⟩ := Nat.exists_eq_add_one.mpr positive
  cases encodes with
  | alone => simp
  | wide _ awaits =>
    intro byte member
    rw [List.drop_succ_cons] at member
    exact awaits.continues byte (List.mem_of_mem_drop member)

theorem scan_of_continues {bytes : Bytes} (continues : ∀ byte ∈ bytes, Continues byte) (rest : Bytes) :
    scan (bytes ++ rest) = List.replicate bytes.length none ++ scan rest := by
  induction bytes with
  | nil => rfl
  | cons byte later ih =>
    obtain ⟨⟨least, most⟩, others⟩ := List.forall_mem_cons.mp continues
    have refused : start byte = ([none], none) := by rw [start, if_neg (by omega), if_pos (by omega)]
    have after : scan (later ++ rest) = List.replicate later.length none ++ scan rest := ih others
    rw [scan] at after
    simp [scan, scanFrom, step, refused, after, List.replicate_succ]

theorem decodeLossy_of_scan {bytes rest : Bytes} {items : List (Option Char)} (read : scan bytes = items ++ scan rest) :
    decodeLossy bytes = items.map (·.getD replacement) ++ decodeLossy rest := by
  rw [decodeLossy, decodeLossy, read, List.map_append]

theorem decodeLossy_of_continues {bytes : Bytes} (continues : ∀ byte ∈ bytes, Continues byte) (rest : Bytes) :
    decodeLossy (bytes ++ rest) = List.replicate bytes.length replacement ++ decodeLossy rest := by
  rw [decodeLossy_of_scan (scan_of_continues continues rest), List.map_replicate]
  rfl

theorem decodeLossy_character (c : Char) (rest : Bytes) :
    decodeLossy (String.utf8EncodeChar c ++ rest) = c :: decodeLossy rest := by
  have read : scan (String.utf8EncodeChar c ++ rest) = [some c] ++ scan rest :=
    scan_of_encodes (encodes_utf8EncodeChar c) rest
  exact decodeLossy_of_scan read

def placed : Nat → List Char → List (Nat × Char)
  | _, [] => []
  | offset, c :: rest => (offset, c) :: placed (offset + c.utf8Size) rest

/-- The first offset from `start` on where a character starts, or `stop` if there is none before it. -/
def nextStart (places : List (Nat × Char)) (start stop : Nat) : Nat :=
  match places.find? fun place => start ≤ place.1 with
  | some place => min place.1 stop
  | none => stop

def inside (places : List (Nat × Char)) (start stop : Nat) : List Char :=
  (places.filter fun place => start ≤ place.1 ∧ place.1 + place.2.utf8Size ≤ stop).map (·.2)

/-- Whether `stop` cuts a character whose first byte is at `start` or after it. -/
def cuts (places : List (Nat × Char)) (start stop : Nat) : Bool :=
  places.any fun place => start ≤ place.1 ∧ place.1 < stop ∧ stop < place.1 + place.2.utf8Size

/-- What the bytes between two offsets show: a replacement for each byte up to the first start of a character, then the
characters inside, then one more replacement if a character is cut. -/
def shown (places : List (Nat × Char)) (start stop : Nat) : List Char :=
  List.replicate (nextStart places start stop - start) replacement ++ inside places start stop ++
    if cuts places start stop then [replacement] else []

theorem encode_cons (c : Char) (rest : List Char) : encode (c :: rest) = String.utf8EncodeChar c ++ encode rest :=
  List.flatMap_cons

theorem inside_cons (offset : Nat) (c : Char) (places : List (Nat × Char)) (start stop : Nat) :
    inside ((offset, c) :: places) start stop =
      if start ≤ offset ∧ offset + c.utf8Size ≤ stop then c :: inside places start stop
      else inside places start stop := by
  rw [inside, List.filter_cons]
  simp only [decide_eq_true_eq]
  split <;> rfl

theorem cuts_cons (offset : Nat) (c : Char) (places : List (Nat × Char)) (start stop : Nat) :
    cuts ((offset, c) :: places) start stop =
      (decide (start ≤ offset ∧ offset < stop ∧ stop < offset + c.utf8Size) || cuts places start stop) :=
  List.any_cons

theorem nextStart_cons_before {offset start : Nat} (before : offset < start) (c : Char) (places : List (Nat × Char))
    (stop : Nat) : nextStart ((offset, c) :: places) start stop = nextStart places start stop := by
  simp [nextStart, Nat.not_le.mpr before]

theorem shown_cons_before {offset start : Nat} (before : offset < start) (c : Char) (places : List (Nat × Char))
    (stop : Nat) : shown ((offset, c) :: places) start stop = shown places start stop := by
  have cut : cuts ((offset, c) :: places) start stop = cuts places start stop := by
    rw [cuts_cons, decide_eq_false (by omega), Bool.false_or]
  rw [shown, nextStart_cons_before before, inside_cons, if_neg (by omega), cut, shown]

theorem offset_le_of_placed {offset : Nat} {text : List Char} : ∀ place ∈ placed offset text, offset ≤ place.1 := by
  induction text generalizing offset with
  | nil => simp [placed]
  | cons c rest ih =>
    intro place member
    rcases List.mem_cons.mp member with rfl | later
    · exact Nat.le_refl offset
    · exact Nat.le_trans (Nat.le_add_right _ _) (ih place later)

theorem nothing_from_stop {offset stop : Nat} (reached : stop ≤ offset) (text : List Char) (start : Nat) :
    inside (placed offset text) start stop = [] ∧ cuts (placed offset text) start stop = false := by
  constructor
  · rw [inside, List.map_eq_nil_iff, List.filter_eq_nil_iff]
    intro place member
    have later := offset_le_of_placed place member
    have width := place.2.utf8Size_pos
    simp only [decide_eq_true_eq]
    omega
  · rw [cuts, List.any_eq_false]
    intro place member
    have later := offset_le_of_placed place member
    simp only [decide_eq_true_eq]
    omega

theorem decodeLossy_take {offset start stop : Nat} {text : List Char} (before : start ≤ offset)
    (within : stop ≤ offset + (encode text).length) :
    decodeLossy ((encode text).take (stop - offset)) =
      inside (placed offset text) start stop ++ if cuts (placed offset text) start stop then [replacement] else [] := by
  induction text generalizing offset with
  | nil => simp [encode, placed, inside, cuts, decodeLossy, scan, scanFrom]
  | cons c rest ih =>
    have width : (String.utf8EncodeChar c).length = c.utf8Size := String.length_utf8EncodeChar c
    by_cases empty : stop ≤ offset
    · obtain ⟨nothing, uncut⟩ := nothing_from_stop empty (c :: rest) start
      rw [Nat.sub_eq_zero_of_le empty, List.take_zero, nothing, uncut]
      rfl
    rw [encode_cons, List.length_append, width] at within
    rw [encode_cons, List.take_append, width, placed, inside_cons]
    by_cases part : stop < offset + c.utf8Size
    · obtain ⟨nothing, -⟩ := nothing_from_stop (Nat.le_of_lt part) rest start
      have cut : cuts ((offset, c) :: placed (offset + c.utf8Size) rest) start stop = true := by
        rw [cuts_cons, decide_eq_true ⟨before, Nat.lt_of_not_le empty, part⟩, Bool.true_or]
      have item : scan ((String.utf8EncodeChar c).take (stop - offset)) = [none] :=
        scan_of_encodes_take (encodes_utf8EncodeChar c) (by omega) (by omega)
      rw [show stop - offset - c.utf8Size = 0 by omega, List.take_zero, List.append_nil, decodeLossy, item,
        if_neg (by omega), nothing, cut]
      rfl
    · have uncut : cuts ((offset, c) :: placed (offset + c.utf8Size) rest) start stop =
          cuts (placed (offset + c.utf8Size) rest) start stop := by
        rw [cuts_cons, decide_eq_false (by omega), Bool.false_or]
      rw [List.take_of_length_le (by omega), decodeLossy_character, if_pos ⟨before, Nat.le_of_not_lt part⟩, uncut,
        Nat.sub_sub, ih (Nat.le_add_right_of_le before) (by omega), List.cons_append]

theorem nextStart_placed {offset start stop : Nat} {text : List Char} (before : start ≤ offset)
    (within : stop ≤ offset + (encode text).length) : nextStart (placed offset text) start stop = min offset stop := by
  cases text with
  | nil =>
    have reached : stop ≤ offset := within
    rw [Nat.min_eq_right reached]
    rfl
  | cons c rest => simp [placed, nextStart, before]

theorem shown_placed {offset start stop : Nat} {text : List Char} (before : start ≤ offset)
    (within : stop ≤ offset + (encode text).length) :
    shown (placed offset text) start stop =
      List.replicate (min offset stop - start) replacement ++ decodeLossy ((encode text).take (stop - offset)) := by
  rw [shown, nextStart_placed before within, decodeLossy_take before within, List.append_assoc]

/-- A slice begins with bytes that go on with a character, up to the next start of one, and reads on with a text. -/
theorem slice_split {offset start stop : Nat} {text : List Char} (after : offset ≤ start)
    (within : stop ≤ offset + (encode text).length) :
    ∃ strays rest, ((encode text).drop (start - offset)).take (stop - start) = strays ++ rest ∧
      (∀ byte ∈ strays, Continues byte) ∧ strays.length = nextStart (placed offset text) start stop - start ∧
      shown (placed offset text) start stop = List.replicate strays.length replacement ++ decodeLossy rest := by
  induction text generalizing offset with
  | nil =>
    have reached : stop ≤ offset := within
    have empty : stop - start = 0 := by omega
    refine ⟨[], [], ?_, by simp, ?_, ?_⟩
    · rw [empty]
      rfl
    · simp [placed, nextStart, empty]
    · simp [placed, shown, nextStart, inside, cuts, empty, decodeLossy, scan, scanFrom]
  | cons c rest ih =>
    have width : (String.utf8EncodeChar c).length = c.utf8Size := String.length_utf8EncodeChar c
    by_cases here : start = offset
    · subst here
      have none : min start stop - start = 0 := Nat.sub_eq_zero_of_le (Nat.min_le_left start stop)
      refine ⟨[], (encode (c :: rest)).take (stop - start), ?_, by simp, ?_, ?_⟩
      · rw [Nat.sub_self, List.drop_zero, List.nil_append]
      · rw [nextStart_placed (Nat.le_refl start) within, none, List.length_nil]
      · rw [shown_placed (Nat.le_refl start) within, none, List.length_nil]
    have later : offset < start := by omega
    rw [placed, shown_cons_before later, nextStart_cons_before later]
    rw [encode_cons, List.length_append, width] at within
    rw [encode_cons, List.drop_append, width]
    by_cases part : start < offset + c.utf8Size
    · -- the slice begins inside this character, whose left-over bytes stand alone
      have count : (((String.utf8EncodeChar c).drop (start - offset)).take (stop - start)).length =
          min (offset + c.utf8Size) stop - start := by
        rw [List.length_take, List.length_drop, width]
        omega
      refine ⟨((String.utf8EncodeChar c).drop (start - offset)).take (stop - start),
        (encode rest).take (stop - (offset + c.utf8Size)), ?_, ?_, ?_, ?_⟩
      · rw [List.take_append, List.length_drop, width, show start - offset - c.utf8Size = 0 by omega, List.drop_zero]
        congr 2
        omega
      · intro byte member
        exact continues_of_mem_drop (encodes_utf8EncodeChar c) (by omega) byte (List.mem_of_mem_take member)
      · rw [nextStart_placed (Nat.le_of_lt part) (by omega), count]
      · rw [shown_placed (Nat.le_of_lt part) (by omega), count]
    · rw [List.drop_eq_nil_of_le (by omega), Nat.sub_sub, List.nil_append]
      exact ih (by omega) (by omega)

theorem encode_append (front back : List Char) : encode (front ++ back) = encode front ++ encode back :=
  List.flatMap_append

theorem decodeLossy_encode_append (text : List Char) (rest : Bytes) :
    decodeLossy (encode text ++ rest) = text ++ decodeLossy rest := by
  induction text with
  | nil => rfl
  | cons c later ih => rw [encode_cons, List.append_assoc, decodeLossy_character, ih, List.cons_append]

theorem decodeLossy_encode (text : List Char) : decodeLossy (encode text) = text := by
  have alone := decodeLossy_encode_append text []
  rw [List.append_nil] at alone
  rw [alone]
  exact List.append_nil text

theorem decodeLossy_drop_encode_append (text : List Char) (count : Nat) (rest : Bytes) :
    decodeLossy ((encode text).drop count ++ rest) = decodeLossy ((encode text).drop count) ++ decodeLossy rest := by
  induction text generalizing count with
  | nil => simp [encode, decodeLossy, scan, scanFrom]
  | cons c later ih =>
    cases count with
    | zero => rw [List.drop_zero, decodeLossy_encode_append, decodeLossy_encode]
    | succ count =>
      have continues := continues_of_mem_drop (encodes_utf8EncodeChar c) (Nat.succ_pos count)
      rw [encode_cons, List.drop_append, List.append_assoc, decodeLossy_of_continues continues,
        decodeLossy_of_continues continues, ih, List.append_assoc]

end Utf8

namespace Tree

open Utf8 (encode)

theorem slice_characters (front middle back : List Char) :
    slice (encode (front ++ middle ++ back)) (encode front).length (encode (front ++ middle)).length =
      String.ofList middle := by
  rw [slice, List.append_assoc, Utf8.encode_append, Utf8.encode_append, List.drop_left, Utf8.encode_append,
    List.length_append, Nat.add_sub_cancel_left, List.take_left, Utf8.decodeLossy_encode]

theorem slice_append (front back : List Char) {start stop : Nat} (before : start ≤ (encode front).length)
    (after : (encode front).length ≤ stop) :
    slice (encode (front ++ back)) start stop =
      slice (encode (front ++ back)) start (encode front).length ++
        slice (encode (front ++ back)) (encode front).length stop := by
  have left : ((encode front ++ encode back).drop start).take ((encode front).length - start) =
      (encode front).drop start := by
    rw [List.drop_append_of_le_length before, List.take_left' (by rw [List.length_drop])]
  have whole : ((encode front ++ encode back).drop start).take (stop - start) =
      (encode front).drop start ++ (encode back).take (stop - (encode front).length) := by
    rw [List.drop_append_of_le_length before, List.take_append, List.length_drop,
      List.take_of_length_le (by rw [List.length_drop]; omega)]
    congr 2
    omega
  rw [slice, slice, slice, Utf8.encode_append, left, List.drop_left, whole, Utf8.decodeLossy_drop_encode_append,
    String.ofList_append]

end Tree

open Utf8 in
/-- The text of a node is what its bytes show, for all offsets in the source; the bytes that are replaced one by one are
left over from a character that starts before the node. Between boundaries of characters it is what stands there, and
two nodes that meet at a boundary have the text of both together. -/
theorem node_text_exact (text : List Char) {node : Tree} (ordered : node.start ≤ node.stop)
    (within : node.stop ≤ (encode text).length) :
    node.text (encode text) = String.ofList (shown (placed 0 text) node.start node.stop) ∧
      (∀ byte ∈ ((encode text).drop node.start).take (nextStart (placed 0 text) node.start node.stop - node.start),
        Continues byte) ∧
      (∀ front middle back, text = front ++ middle ++ back → node.start = (encode front).length →
        node.stop = (encode (front ++ middle)).length → node.text (encode text) = String.ofList middle) ∧
      ∀ (front back : List Char) (next union : Tree), text = front ++ back → node.stop = (encode front).length →
        next.start = node.stop → next.start ≤ next.stop → union.start = node.start → union.stop = next.stop →
        union.text (encode text) = node.text (encode text) ++ next.text (encode text) := by
  have inside : node.stop ≤ 0 + (encode text).length := by
    rw [Nat.zero_add]
    exact within
  obtain ⟨strays, rest, split, continues, count, shows⟩ := slice_split (Nat.zero_le node.start) inside
  rw [Nat.sub_zero] at split
  refine ⟨?_, ?_, ?_, ?_⟩
  · rw [Tree.text, Tree.slice, split, decodeLossy_of_continues continues, shows]
  · have front : strays <+: (encode text).drop node.start :=
      (List.prefix_append strays rest).trans (split ▸ List.take_prefix _ _)
    rw [← count, ← List.prefix_iff_eq_take.mp front]
    exact continues
  · rintro front middle back rfl starts stops
    rw [Tree.text, starts, stops]
    exact Tree.slice_characters front middle back
  · rintro front back next union rfl boundary adjacent forward starts stops
    rw [Tree.text, Tree.text, Tree.text, starts, stops, adjacent, boundary]
    rw [boundary] at ordered adjacent
    exact Tree.slice_append front back ordered (adjacent ▸ forward)

def widths : List Char := ['a', 'é', '€', '😀']

/-- From the second byte of the second character on, up to the middle of the last one. -/
def cutNode : Tree := ⟨.node "identifier", none, 2, 8, []⟩

theorem cut_node_text :
    cutNode.start ≤ cutNode.stop ∧ cutNode.stop ≤ (Utf8.encode widths).length ∧
      cutNode.text (Utf8.encode widths) = "\uFFFD€\uFFFD" := by
  have ordered : cutNode.start ≤ cutNode.stop := by decide
  have within : cutNode.stop ≤ (Utf8.encode widths).length := by decide
  refine ⟨ordered, within, ?_⟩
  obtain ⟨same, -⟩ := node_text_exact widths ordered within
  rw [same]
  decide

end ComponentDocs
