import RsMatter.Storage
import RsMatter.TlvElement

/-!
# Strings written in place (`tlv/write.rs`)

A callback may write a string straight into the write buffer. A header with a length field
of two bytes is reserved before the callback runs; a string that turns out to be short gets
the header with one byte, and its bytes move down by one.

The bytes are those of the method that is handed the whole string (`stringCb_eq`).
-/

namespace RsMatter

open Prog

namespace Storage.WriteBuf

/-! ## The write methods -/

def write (byte : UInt8) : Prog (Stop ErrorCode) WriteBuf Unit := append [byte]

def writeRawData : List UInt8 → Prog (Stop ErrorCode) WriteBuf Unit
  | [] => pure ()
  | byte :: bytes => do
    write byte
    writeRawData bytes

def writeTag : TLVTag → Prog (Stop ErrorCode) WriteBuf Unit
  | .anonymous => pure ()
  | .context v => writeRawData (toLE 1 v.toNat)
  | .commonPrf16 v => writeRawData (toLE 2 v.toNat)
  | .implPrf16 v => writeRawData (toLE 2 v.toNat)
  | .commonPrf32 v => writeRawData (toLE 4 v.toNat)
  | .implPrf32 v => writeRawData (toLE 4 v.toNat)
  | .fullQual48 vendorId profile tag => do
    writeRawData (toLE 2 vendorId.toNat)
    writeRawData (toLE 2 profile.toNat)
    writeRawData (toLE 2 tag.toNat)
  | .fullQual64 vendorId profile tag => do
    writeRawData (toLE 2 vendorId.toNat)
    writeRawData (toLE 2 profile.toNat)
    writeRawData (toLE 4 tag.toNat)

/-- Append an element whose value is encoded already. -/
def rawValue (tag : TLVTag) (valueType : TLVValueType) (valuePayload : List UInt8) :
    Prog (Stop ErrorCode) WriteBuf Unit := do
  write (TLVControl.mk tag.tagType valueType).asRaw
  writeTag tag
  writeRawData valuePayload

/-- Append a string of `len` bytes, with the shortest of four length fields. -/
def stringi (type8 type16 type32 type64 : TLVValueType) (tag : TLVTag) (len : ℕ) (data : List UInt8) :
    Prog (Stop ErrorCode) WriteBuf Unit := do
  if len ≤ 2 ^ 8 - 1 then rawValue tag type8 (toLE 1 len)
  else if len ≤ 2 ^ 16 - 1 then rawValue tag type16 (toLE 2 len)
  else if len ≤ 2 ^ 32 - 1 then rawValue tag type32 (toLE 4 len)
  else rawValue tag type64 (toLE 8 len)
  writeRawData data

def stri : TLVTag → ℕ → List UInt8 → Prog (Stop ErrorCode) WriteBuf Unit :=
  stringi .str8l .str16l .str32l .str64l

def str (tag : TLVTag) (data : List UInt8) : Prog (Stop ErrorCode) WriteBuf Unit :=
  stri tag data.length data

def utf8i : TLVTag → ℕ → List UInt8 → Prog (Stop ErrorCode) WriteBuf Unit :=
  stringi .utf8l .utf16l .utf32l .utf64l

def utf8 (tag : TLVTag) (data : String) : Prog (Stop ErrorCode) WriteBuf Unit :=
  utf8i tag (utf8Bytes data).length (utf8Bytes data)

/-- Give the reserved header the length that came out. -/
def finalizeLenHeader (controlOffset valueOffset len : ℕ) (tagType : TLVTagType)
    (shortValueType : TLVValueType) : Prog (Stop ErrorCode) WriteBuf Unit := do
  if len ≤ 2 ^ 8 - 1 then
    putAt controlOffset [(TLVControl.mk tagType shortValueType).asRaw]
    let lenOffset ← Prog.ofExcept (Stop.sub valueOffset 2)
    putAt lenOffset (toLE 1 len)
    let dest ← Prog.ofExcept (Stop.sub valueOffset 1)
    copyWithin valueOffset len dest
    let tail ← getTail
    let tail ← Prog.ofExcept (Stop.sub tail 1)
    rewindTailTo tail
  else if len ≤ 2 ^ 16 - 1 then
    let lenOffset ← Prog.ofExcept (Stop.sub valueOffset 2)
    putAt lenOffset (toLE 2 len)
  else Prog.throw .panic

def stringCb (type16 shortValueType : TLVValueType) (tag : TLVTag) (cb : Filler) :
    Prog (Stop ErrorCode) WriteBuf Unit := do
  let controlOffset ← getTail
  rawValue tag type16 (toLE 2 0)
  let valueOffset ← getTail
  let len ← appendWithBuf cb
  finalizeLenHeader controlOffset valueOffset len tag.tagType shortValueType

/-- Append an octet string that a callback writes. -/
def strCb : TLVTag → Filler → Prog (Stop ErrorCode) WriteBuf Unit := stringCb .str16l .str8l

def utf8Cb : TLVTag → Filler → Prog (Stop ErrorCode) WriteBuf Unit := stringCb .utf16l .utf8l

/-! ## Programs that append

A write method appends its bytes one by one: as many as there is room for. -/

/-- The program appends these bytes, or as many of them as there is room for. -/
def Appends (m : Prog (Stop ErrorCode) WriteBuf Unit) (bytes : List UInt8) : Prop :=
  ∀ wb, m.run wb = (wb.appended (bytes.take wb.room),
    if bytes.length ≤ wb.room then .ok () else .error (.error .noSpace))

variable {m n : Prog (Stop ErrorCode) WriteBuf Unit} {a b : List UInt8} {wb : WriteBuf}

theorem Appends.run_ok (h : Appends m a) (hroom : a.length ≤ wb.room) :
    m.run wb = (wb.appended a, .ok ()) := by
  rw [h wb, if_pos hroom, List.take_of_length_le hroom]

theorem Appends.run_error (h : Appends m a) (hroom : wb.room < a.length) :
    m.run wb = (wb.appended (a.take wb.room), .error (.error .noSpace)) := by
  rw [h wb, if_neg (Nat.not_le.mpr hroom)]

theorem room_appended (wb : WriteBuf) (a : List UInt8) : (wb.appended a).room = wb.room - a.length := by
  simp only [room, appended, overwrite]
  omega

theorem appends_nil : Appends (pure ()) [] := by
  intro wb
  rw [List.take_nil, appended_nil, List.length_nil, if_pos (Nat.zero_le _)]
  rfl

/-- **Sequencing.** The second program has the room that the first leaves. -/
theorem Appends.bind (hm : Appends m a) (hn : Appends n b) : Appends (do m; n) (a ++ b) := by
  intro wb
  rcases Nat.lt_or_ge wb.room a.length with hroom | hroom
  · rw [run_bind_of_error (hm.run_error hroom), List.take_append_of_le_length hroom.le,
      if_neg (by rw [List.length_append]; omega)]
  · rw [run_bind_of_ok (hm.run_ok hroom), hn, room_appended, List.take_append,
      List.take_of_length_le hroom, List.length_append]
    refine Prod.ext ?_ (if_congr (by omega) rfl rfl)
    rcases Nat.lt_or_ge wb.buf.length wb.tail with hout | hin
    · -- beyond the end of the array nothing is appended
      have hzero : wb.room = 0 := by
        have := wb.fits
        rw [room]
        omega
      have ha : a = [] := List.eq_nil_of_length_eq_zero (by omega)
      rw [hzero, ha, List.length_nil, List.take_zero, appended_nil, List.nil_append]
    · exact appended_appended hin a _

theorem appends_write (byte : UInt8) : Appends (write byte) [byte] := by
  intro wb
  rw [write, run_append, List.length_singleton]
  rcases Nat.lt_or_ge wb.room 1 with hroom | hroom
  · rw [if_neg (by rw [room] at hroom; omega), if_neg (Nat.not_le.mpr hroom),
      Nat.lt_one_iff.mp hroom, List.take_zero, appended_nil]
  · rw [if_pos (by rw [room] at hroom; omega), if_pos hroom, List.take_of_length_le hroom]

theorem appends_writeRawData (bytes : List UInt8) : Appends (writeRawData bytes) bytes := by
  induction bytes with
  | nil => exact appends_nil
  | cons byte bytes ih => exact (appends_write byte).bind ih

theorem appends_writeTag (tag : TLVTag) : Appends (writeTag tag) tag.bytes := by
  cases tag with
  | anonymous => exact appends_nil
  | fullQual48 vendorId profile tag =>
    exact (appends_writeRawData _).bind ((appends_writeRawData _).bind (appends_writeRawData _))
  | fullQual64 vendorId profile tag =>
    exact (appends_writeRawData _).bind ((appends_writeRawData _).bind (appends_writeRawData _))
  | _ => exact appends_writeRawData _

theorem appends_rawValue (tag : TLVTag) (t : TLVValueType) (payload : List UInt8) :
    Appends (rawValue tag t payload)
      ((TLVControl.mk tag.tagType t).asRaw :: (tag.bytes ++ payload)) :=
  (appends_write _).bind ((appends_writeTag tag).bind (appends_writeRawData payload))

theorem appends_rawValue_then (tag : TLVTag) (t : TLVValueType) (len data : List UInt8) :
    Appends (do rawValue tag t len; writeRawData data)
      ((TLVControl.mk tag.tagType t).asRaw :: (tag.bytes ++ (len ++ data))) := by
  have h := (appends_rawValue tag t len).bind (appends_writeRawData data)
  rwa [List.cons_append, List.append_assoc] at h

/-- **The octet string method** appends the element with the shortest length field. -/
theorem appends_str (tag : TLVTag) (data : List UInt8) :
    Appends (str tag data) (elemBytes tag (.ofStr data)) := by
  rw [str, stri, stringi, TLVValue.ofStr]
  split
  · exact appends_rawValue_then tag .str8l _ _
  split
  · exact appends_rawValue_then tag .str16l _ _
  split
  · exact appends_rawValue_then tag .str32l _ _
  · exact appends_rawValue_then tag .str64l _ _

/-- **The string method**, likewise. -/
theorem appends_utf8 (tag : TLVTag) (data : String) :
    Appends (utf8 tag data) (elemBytes tag (.ofUtf8 data)) := by
  rw [utf8, utf8i, stringi, TLVValue.ofUtf8]
  split
  · exact appends_rawValue_then tag .utf8l _ _
  split
  · exact appends_rawValue_then tag .utf16l _ _
  split
  · exact appends_rawValue_then tag .utf32l _ _
  · exact appends_rawValue_then tag .utf64l _ _

/-! ### The buffer as a list of bytes -/

/-- The bytes up to the end of the window, and the room behind it. -/
def view (wb : WriteBuf) : RsMatter.WriteBuf := ⟨wb.buf.take wb.tail, wb.room⟩

/-- What is before the window's end stays when bytes are appended. -/
theorem take_appended (htail : wb.tail ≤ wb.buf.length) (bytes : List UInt8) {j : ℕ}
    (hj : j ≤ wb.tail) : (wb.appended bytes).buf.take j = wb.buf.take j :=
  take_splice htail bytes hj

/-! ## What the callback is given -/

/-- The slice that is left behind `n` more bytes. -/
def offered (wb : WriteBuf) (n : ℕ) : List UInt8 := (wb.buf.take wb.bufSize).drop (wb.tail + n)

/-- The callback writes these bytes to the front of the slice, and says how many they are. -/
structure Fills (cb : Filler) (slice d : List UInt8) : Prop where
  room : d.length ≤ slice.length
  bytes : (cb slice).1.val.take d.length = d
  returns : (cb slice).2 = .ok d.length

theorem offered_appended (htail : wb.tail ≤ wb.buf.length) (bytes : List UInt8) :
    (wb.appended bytes).offered 0 = wb.offered bytes.length := by
  simp only [offered, appended, overwrite, List.drop_take, Nat.add_zero, drop_splice htail]

/-- **The callback's turn.** Its bytes stand behind what was appended. -/
theorem run_appendWithBuf {cb : Filler} {d : List UInt8} (htail : wb.tail ≤ wb.bufSize)
    (hcb : Fills cb (wb.offered 0) d) :
    ∃ t rest, (appendWithBuf cb).run wb = (t, .ok d.length) ∧
      t.buf = wb.buf.take wb.tail ++ (d ++ rest) ∧ t.tail = wb.tail + d.length ∧
      t.start = wb.start ∧ t.bufSize = wb.bufSize := by
  have hreturns : (cb ((wb.buf.take wb.bufSize).drop wb.tail)).2 = .ok d.length := hcb.returns
  have hsplit : (cb (wb.offered 0)).1.val = d ++ (cb (wb.offered 0)).1.val.drop d.length := by
    conv_lhs => rw [← List.take_append_drop d.length (cb (wb.offered 0)).1.val, hcb.bytes]
  refine ⟨{ wb.overwrite wb.tail (cb (wb.offered 0)).1.val with tail := wb.tail + d.length },
    (cb (wb.offered 0)).1.val.drop d.length ++
      wb.buf.drop (wb.tail + (cb (wb.offered 0)).1.val.length), ?_, ?_, rfl, rfl, rfl⟩
  · rw [appendWithBuf, run_bind_of_ok (run_get wb),
      run_bind_of_ok (run_ensure_of_pos htail _ _)]
    dsimp only
    rw [run_bind_of_ok (run_modify _ _), hreturns,
      run_bind_of_ok (run_ofExcept _ _), run_bind_of_ok (run_modify _ _)]
    rfl
  · dsimp only [overwrite]
    rw [splice, ← List.append_assoc d, ← hsplit]

/-- The header is reserved, and the callback has written behind it. -/
theorem run_stringCb {cb : Filler} {d : List UInt8} {tag : TLVTag} (type16 short : TLVValueType)
    (htail : wb.tail ≤ wb.buf.length) (hroom : 3 + tag.tagType.size ≤ wb.room)
    (hcb : Fills cb (wb.offered (3 + tag.tagType.size)) d) :
    ∃ t rest, (stringCb type16 short tag cb).run wb =
        (finalizeLenHeader wb.tail (wb.tail + 1 + tag.bytes.length + 2) d.length tag.tagType short).run t ∧
      t.buf = wb.buf.take wb.tail ++ (TLVControl.mk tag.tagType type16).asRaw ::
        (tag.bytes ++ 0 :: 0 :: (d ++ rest)) ∧
      t.tail = wb.tail + 1 + tag.bytes.length + 2 + d.length ∧
      t.start = wb.start ∧ t.bufSize = wb.bufSize := by
  have hraw := appends_rawValue tag type16 (toLE 2 0)
  -- the reserved header
  have hlen : ((TLVControl.mk tag.tagType type16).asRaw :: (tag.bytes ++ toLE 2 0)).length =
      3 + tag.tagType.size := by
    rw [List.length_cons, List.length_append, length_toLE, tag.length_bytes]
    omega
  have htail' : (wb.appended ((TLVControl.mk tag.tagType type16).asRaw :: (tag.bytes ++ toLE 2 0))).tail =
      wb.tail + 1 + tag.bytes.length + 2 := by
    dsimp only [appended]
    rw [hlen, tag.length_bytes]
    omega
  rw [← hlen] at hcb hroom
  rw [← offered_appended htail] at hcb
  have hin : (wb.appended ((TLVControl.mk tag.tagType type16).asRaw :: (tag.bytes ++ toLE 2 0))).tail ≤
      wb.bufSize := by
    rw [room] at hroom
    rw [hlen] at hroom
    rw [htail', tag.length_bytes]
    omega
  obtain ⟨t, rest, hrun, hbuf, ht, hstart, hsize⟩ := run_appendWithBuf hin hcb
  refine ⟨t, rest, ?_, ?_, ?_, hstart, hsize⟩
  · rw [stringCb, run_bind_of_ok (run_getTail wb), run_bind_of_ok (hraw.run_ok hroom),
      run_bind_of_ok (run_getTail _), run_bind_of_ok hrun, htail']
  · rw [hbuf]
    dsimp only [appended, overwrite]
    rw [take_splice_end htail]
    simp [toLE]
  · rw [ht, htail']

/-! ## The header afterwards -/

section Finalize

variable {pre tag d rest : List UInt8} {c : UInt8}

/-- **A short string.** The control byte is the short one, the length takes one byte, and the
string moves to where the second one was. -/
theorem run_finalizeLenHeader_short (hd : d.length ≤ 2 ^ 8 - 1)
    (hbuf : wb.buf = pre ++ c :: (tag ++ 0 :: 0 :: (d ++ rest)))
    (htail : wb.tail = pre.length + 1 + tag.length + 2 + d.length) (tagType : TLVTagType)
    (short : TLVValueType) :
    ∃ t, (finalizeLenHeader pre.length (pre.length + 1 + tag.length + 2) d.length tagType short).run wb =
        (t, .ok ()) ∧
      t.buf.take t.tail = pre ++ (TLVControl.mk tagType short).asRaw :: (tag ++ (toLE 1 d.length ++ d)) ∧
      t.tail = pre.length + 1 + tag.length + 1 + d.length ∧
      t.start = wb.start ∧ t.bufSize = wb.bufSize := by
  -- the control byte
  have hold : wb.buf = pre ++ ([c] ++ (tag ++ 0 :: 0 :: (d ++ rest))) := hbuf
  obtain ⟨t₁, hrun₁, hbuf₁, hstart₁, htail₁, hsize₁⟩ :=
    putAt_ok pre.length [(TLVControl.mk tagType short).asRaw] hold rfl rfl
  have hctl : t₁.buf =
      (pre ++ (TLVControl.mk tagType short).asRaw :: tag) ++ ([0] ++ (0 :: (d ++ rest))) := by
    rw [hbuf₁]
    simp
  -- the length
  obtain ⟨t₂, hrun₂, hbuf₂, hstart₂, htail₂, hsize₂⟩ :=
    putAt_ok (pre.length + 1 + tag.length) (toLE 1 d.length) hctl (by simp; omega) (length_toLE 1 _).symm
  have hlen : t₂.buf =
      (pre ++ (TLVControl.mk tagType short).asRaw :: (tag ++ toLE 1 d.length)) ++ ([0] ++ (d ++ rest)) := by
    rw [hbuf₂]
    simp
  -- the string
  obtain ⟨t₃, hrun₃, hbuf₃, hstart₃, htail₃, hsize₃⟩ := copyWithin_ok
    (i := pre.length + 1 + tag.length + 2) (j := pre.length + 1 + tag.length + 1) hlen
    (by simp; omega) rfl (by simp; omega)
  have hend : t₃.tail - 1 = pre.length + 1 + tag.length + 1 + d.length := by
    rw [htail₃, htail₂, htail₁, htail]
    omega
  refine ⟨{ t₃ with tail := t₃.tail - 1 }, ?_, ?_, hend, ?_, ?_⟩
  · rw [finalizeLenHeader, if_pos hd, run_bind_of_ok hrun₁, Stop.sub_ok (by omega),
      run_bind_of_ok (run_ofExcept _ _), Nat.add_sub_cancel, run_bind_of_ok hrun₂,
      Stop.sub_ok (by omega), run_bind_of_ok (run_ofExcept _ _)]
    rw [show pre.length + 1 + tag.length + 2 - 1 = pre.length + 1 + tag.length + 1 by omega,
      run_bind_of_ok hrun₃, run_bind_of_ok (run_getTail t₃), Stop.sub_ok (by omega),
      run_bind_of_ok (run_ofExcept _ _)]
    rfl
  · dsimp only
    rw [hbuf₃, hend, ← List.append_assoc]
    refine (List.take_left' ?_).trans ?_
    · simp
      omega
    · simp
  · exact hstart₃.trans (hstart₂.trans hstart₁)
  · exact hsize₃.trans (hsize₂.trans hsize₁)

/-- **A long string.** The length is filled in. -/
theorem run_finalizeLenHeader_long (hshort : 2 ^ 8 - 1 < d.length) (hd : d.length ≤ 2 ^ 16 - 1)
    (hbuf : wb.buf = pre ++ c :: (tag ++ 0 :: 0 :: (d ++ rest)))
    (htail : wb.tail = pre.length + 1 + tag.length + 2 + d.length) (tagType : TLVTagType)
    (short : TLVValueType) :
    ∃ t, (finalizeLenHeader pre.length (pre.length + 1 + tag.length + 2) d.length tagType short).run wb =
        (t, .ok ()) ∧
      t.buf.take t.tail = pre ++ c :: (tag ++ (toLE 2 d.length ++ d)) ∧
      t.tail = pre.length + 1 + tag.length + 2 + d.length ∧
      t.start = wb.start ∧ t.bufSize = wb.bufSize := by
  have hctl : wb.buf = (pre ++ c :: tag) ++ ([0, 0] ++ (d ++ rest)) := by
    rw [hbuf]
    simp
  obtain ⟨t, hrun, hput, hstart, htail', hsize⟩ :=
    putAt_ok (pre.length + 1 + tag.length) (toLE 2 d.length) hctl (by simp; omega) (length_toLE 2 _).symm
  refine ⟨t, ?_, ?_, htail'.trans htail, hstart, hsize⟩
  · rw [finalizeLenHeader, if_neg (Nat.not_le.mpr hshort), if_pos hd, Stop.sub_ok (by omega),
      run_bind_of_ok (run_ofExcept _ _), Nat.add_sub_cancel, hrun]
  · rw [hput, htail', htail, ← List.append_assoc, ← List.append_assoc]
    refine (List.take_left' ?_).trans ?_
    · simp
      omega
    · simp

end Finalize

/-! ## The main result -/

/-- What a write in place has in common with the write of the same element from outside: what was
there stays; and there was not enough space, or the bytes and the end of the window are the same. -/
def WritesLike (wb : WriteBuf) (element : List UInt8)
    (inPlace plain : WriteBuf × Except (Stop ErrorCode) Unit) : Prop :=
  inPlace.1.buf.take wb.tail = wb.buf.take wb.tail ∧
    (inPlace.2 = .error (.error .noSpace) ∧ wb.room < element.length + 1 ∨
      inPlace.2 = .ok () ∧ plain.2 = .ok () ∧ inPlace.1.tail = plain.1.tail ∧
        inPlace.1.buf.take inPlace.1.tail = plain.1.buf.take plain.1.tail ∧
        inPlace.1.start = plain.1.start ∧ inPlace.1.bufSize = plain.1.bufSize)

/-- Where a program writes what another one appends, it writes like it. -/
theorem WritesLike.of_appends {plain : Prog (Stop ErrorCode) WriteBuf Unit} {element : List UInt8}
    (hplain : Appends plain element) (htail : wb.tail ≤ wb.buf.length) (hroom : element.length ≤ wb.room)
    {t : WriteBuf} (hbytes : t.buf.take t.tail = wb.buf.take wb.tail ++ element)
    (hend : t.tail = wb.tail + element.length) (hstart : t.start = wb.start)
    (hsize : t.bufSize = wb.bufSize) :
    WritesLike wb element (t, .ok ()) (plain.run wb) := by
  rw [hplain.run_ok hroom]
  refine ⟨?_, .inr ⟨rfl, rfl, hend, ?_, hstart, hsize⟩⟩
  · have hle : wb.tail ≤ t.tail := by omega
    have htake : (t.buf.take t.tail).take wb.tail = t.buf.take wb.tail := by
      rw [List.take_take, Nat.min_eq_left hle]
    rw [← htake, hbytes, List.take_left' (List.length_take_of_le htail)]
  · rw [hbytes]
    exact (take_splice_end htail element).symm

/-- **A string from a callback** is written like a string from outside. -/
theorem stringCb_writesLike {cb : Filler} {d element : List UInt8} {tag : TLVTag}
    {type16 short : TLVValueType} {plain : Prog (Stop ErrorCode) WriteBuf Unit}
    (hplain : Appends plain element) (hd : d.length ≤ 2 ^ 16 - 1)
    (hshort : d.length ≤ 2 ^ 8 - 1 → element =
      (TLVControl.mk tag.tagType short).asRaw :: (tag.bytes ++ (toLE 1 d.length ++ d)))
    (hlong : 2 ^ 8 - 1 < d.length → element =
      (TLVControl.mk tag.tagType type16).asRaw :: (tag.bytes ++ (toLE 2 d.length ++ d)))
    (hcb : 3 + tag.tagType.size ≤ wb.room → Fills cb (wb.offered (3 + tag.tagType.size)) d) :
    WritesLike wb element ((stringCb type16 short tag cb).run wb) (plain.run wb) := by
  have hraw := appends_rawValue tag type16 (toLE 2 0)
  have helement : element.length = 1 + tag.tagType.size + (if d.length ≤ 2 ^ 8 - 1 then 1 else 2) +
      d.length := by
    split
    · next h =>
      rw [hshort h, List.length_cons, List.length_append, List.length_append, length_toLE, tag.length_bytes]
      omega
    · next h =>
      rw [hlong (Nat.lt_of_not_le h), List.length_cons, List.length_append, List.length_append,
        length_toLE, tag.length_bytes]
      omega
  rcases Nat.lt_or_ge wb.room (3 + tag.tagType.size) with hroom | hroom
  · -- the header does not fit
    have hheader : wb.room <
        ((TLVControl.mk tag.tagType type16).asRaw :: (tag.bytes ++ toLE 2 0)).length := by
      rw [List.length_cons, List.length_append, length_toLE, tag.length_bytes]
      omega
    rw [stringCb, run_bind_of_ok (run_getTail wb), run_bind_of_error (hraw.run_error hheader)]
    refine ⟨?_, .inl ⟨rfl, by split at helement <;> omega⟩⟩
    rcases Nat.lt_or_ge wb.buf.length wb.tail with hout | hin
    · have hzero : wb.room = 0 := by
        have := wb.fits
        rw [room]
        omega
      rw [hzero, List.take_zero, appended_nil]
    · exact take_appended hin _ (Nat.le_refl _)
  · have hsize := wb.fits
    have htail : wb.tail ≤ wb.buf.length := by
      rw [room] at hroom
      omega
    have hpre : (wb.buf.take wb.tail).length = wb.tail := List.length_take_of_le htail
    have hfit : 3 + tag.tagType.size + d.length ≤ wb.room := by
      have hslot := (hcb hroom).room
      rw [offered, List.length_drop, List.length_take_of_le wb.fits] at hslot
      rw [room] at hroom ⊢
      omega
    obtain ⟨t, rest, hrun, hbuf, ht, hstart, hbufSize⟩ :=
      run_stringCb type16 short htail hroom (hcb hroom)
    rw [hrun]
    rcases Nat.lt_or_ge (2 ^ 8 - 1) d.length with h | h
    · obtain ⟨u, hu, hbytes, hend, hustart, husize⟩ :=
        run_finalizeLenHeader_long h hd hbuf (by rw [hpre]; exact ht) tag.tagType short
      rw [hpre] at hu hend
      rw [hu]
      refine .of_appends hplain htail ?_ ?_ ?_ (hustart.trans hstart) (husize.trans hbufSize)
      · rw [helement, if_neg (Nat.not_le.mpr h)]
        omega
      · rw [hbytes, hlong h]
      · rw [hend, helement, if_neg (Nat.not_le.mpr h), tag.length_bytes]
        omega
    · obtain ⟨u, hu, hbytes, hend, hustart, husize⟩ :=
        run_finalizeLenHeader_short h hbuf (by rw [hpre]; exact ht) tag.tagType short
      rw [hpre] at hu hend
      rw [hu]
      refine .of_appends hplain htail ?_ ?_ ?_ (hustart.trans hstart) (husize.trans hbufSize)
      · rw [helement, if_pos h]
        omega
      · rw [hbytes, hshort h]
      · rw [hend, helement, if_pos h, tag.length_bytes]
        omega

/-- **In place is like from outside.** For every buffer, tag and callback that fills the slice it is
offered with at most 65535 bytes. -/
theorem inPlace_writesLike (wb : WriteBuf) (tag : TLVTag) (cb : Filler) :
    (∀ d, d.length ≤ 65535 →
      (3 + tag.tagType.size ≤ wb.room → Fills cb (wb.offered (3 + tag.tagType.size)) d) →
      WritesLike wb (elemBytes tag (.ofStr d)) ((strCb tag cb).run wb) ((str tag d).run wb)) ∧
    (∀ s, (utf8Bytes s).length ≤ 65535 →
      (3 + tag.tagType.size ≤ wb.room → Fills cb (wb.offered (3 + tag.tagType.size)) (utf8Bytes s)) →
      WritesLike wb (elemBytes tag (.ofUtf8 s)) ((utf8Cb tag cb).run wb) ((utf8 tag s).run wb)) := by
  constructor
  · intro d hlen hcb
    have hd : d.length ≤ 2 ^ 16 - 1 := hlen
    refine stringCb_writesLike (appends_str tag d) hd (fun h => ?_) (fun h => ?_) hcb
    · rw [TLVValue.ofStr, if_pos h]
      rfl
    · rw [TLVValue.ofStr, if_neg (Nat.not_le.mpr h), if_pos hd]
      rfl
  · intro s hlen hcb
    have hd : (utf8Bytes s).length ≤ 2 ^ 16 - 1 := hlen
    refine stringCb_writesLike (appends_utf8 tag s) hd (fun h => ?_) (fun h => ?_) hcb
    · rw [TLVValue.ofUtf8, if_pos h]
      rfl
    · rw [TLVValue.ofUtf8, if_neg (Nat.not_le.mpr h), if_pos hd]
      rfl

/-- A callback that fills its slice with one letter and keeps two of them. -/
theorem inPlace_writesLike_letters :
    let wb := newWith (List.replicate 10 0) 0 2
    let cb : Filler := fun slice => (⟨slice.map fun _ => 97, List.length_map _⟩, .ok 2)
    WritesLike wb (elemBytes (.context 1) (.ofStr [97, 97])) ((strCb (.context 1) cb).run wb)
        ((str (.context 1) [97, 97]).run wb) ∧
      WritesLike wb (elemBytes (.context 1) (.ofUtf8 "aa")) ((utf8Cb (.context 1) cb).run wb)
        ((utf8 (.context 1) "aa").run wb) :=
  ⟨(inPlace_writesLike _ _ _).1 [97, 97] (by decide) fun _ => ⟨by decide, by decide, rfl⟩,
    (inPlace_writesLike _ _ _).2 "aa" (by decide) fun _ => ⟨by decide, by decide, rfl⟩⟩

end Storage.WriteBuf

end RsMatter
