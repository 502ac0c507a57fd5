import RsMatter.Calendar
import RsMatter.Emit

/-!
# Writing ASN.1 (`cert.rs`, `cert/asn1_writer.rs`)

`ASN1Writer` turns the calls of a certificate consumer (`Call`) into DER, in a buffer of
a given size. The length of a compound value is not known when it is started: three bytes
are reserved for it, and its contents are moved back when it is ended.

`Nest` is what the writer stands for: the values that are open, each with what has been
written to it, and no limit on the room. The writer does what `Nest` does, or runs out of
room (`ASN1Writer.refines`).
-/

namespace RsMatter

open Stop

/-! ## Calls -/

/-- A method of `CertConsumer`, without the text it is given for printing. -/
inductive CertConsumer where
  | startSeq
  | endSeq
  | integer (i : List UInt8)
  | printstr (s : List UInt8)
  | utf8str (s : List UInt8)
  | bitstr (truncate : Bool) (s : List UInt8)
  | ostr (s : List UInt8)
  | startCompoundOstr
  | endCompoundOstr
  | bool (b : Bool)
  | startSet
  | endSet
  | ctx (id : UInt8) (val : List UInt8)
  | startCtx (id : UInt8)
  | endCtx
  | oid (oid : List UInt8)
  | utctime (epoch : ℕ)
  | raw (data : List UInt8)
  deriving DecidableEq

/-! ## Bit strings -/

/-- Step back from a byte to the last one before it that is not zero. -/
def lastNonZero (s : List UInt8) : ℕ → Except (Stop ErrorCode) ℕ
  | 0 => do
    let byte ← index s 0
    if byte = 0 then .error .panic else return 0
  | i + 1 => do
    let byte ← index s (i + 1)
    if byte = 0 then lastNonZero s i else return i + 1

/-- The number of zero bits at the end of a byte. -/
def trailingZeros (byte : UInt8) : UInt8 :=
  UInt8.ofNat ((List.range 8).takeWhile fun i => !byte.toNat.testBit i).length

/-- The number of unused bits of a bit string and its bytes. -/
def bitstrParts (truncate : Bool) (s : List UInt8) :
    Except (Stop ErrorCode) (UInt8 × List UInt8) := do
  let lastByte ← sub s.length 1
  if truncate then do
    let lastByte ← lastNonZero s lastByte
    let byte ← index s lastByte
    let s ← upTo s (lastByte + 1)
    return (trailingZeros byte, s)
  else do
    let s ← upTo s (lastByte + 1)
    return (0, s)

/-! ## The writer -/

/-- The writer of ASN.1. -/
structure ASN1Writer where
  buf : List UInt8
  /-- the current write offset in the buffer -/
  offset : ℕ
  /-- where the contents of the open compound values start -/
  depth : List ℕ
  currentDepth : ℕ

namespace ASN1Writer

def maxDepth : ℕ := 10

/-- The bytes reserved for the length of a compound value. -/
def reserveLenBytes : ℕ := 3

def new (buf : List UInt8) : ASN1Writer where
  buf := buf
  offset := 0
  depth := List.replicate maxDepth 0
  currentDepth := 0

def appendWith (w : ASN1Writer) (size : ℕ)
    (f : ASN1Writer → Except (Stop ErrorCode) ASN1Writer) : Except (Stop ErrorCode) ASN1Writer :=
  if w.offset + size ≤ w.buf.length then do
    let w ← f w
    return { w with offset := w.offset + size }
  else .error (.error .bufferTooSmall)

def bytesToEncodeLen (len : ℕ) : Except ErrorCode ℕ :=
  if len < 128 then .ok 1
  else if len < 256 then .ok 2
  else if len < 65536 then .ok 3
  else .error .bufferTooSmall

def encodeOctets (len : ℕ) : ℕ → ℕ → List UInt8 → Except (Stop ErrorCode) (List UInt8 × ℕ)
  | 0, atOffset, buf => do
    let buf ← store buf atOffset (UInt8.ofNat len)
    return (buf, atOffset + 1)
  | octetNumber + 1, atOffset, buf => do
    let buf ← store buf atOffset (UInt8.ofNat (len >>> ((octetNumber + 1) * 8)))
    encodeOctets len octetNumber (atOffset + 1) buf

def encodeLen (buf : List UInt8) (atOffset len : ℕ) :
    Except (Stop ErrorCode) (List UInt8 × ℕ) := do
  let bytesOfLen ← lift (bytesToEncodeLen len)
  if 1 < bytesOfLen then do
    let buf ← store buf atOffset (UInt8.ofNat (0x80 ||| (bytesOfLen - 1)))
    encodeOctets len (bytesOfLen - 1 - 1) (atOffset + 1) buf
  else encodeOctets len (bytesOfLen - 1) atOffset buf

def appendTlv (w : ASN1Writer) (tag : UInt8) (len : ℕ)
    (f : ASN1Writer → Except (Stop ErrorCode) ASN1Writer) :
    Except (Stop ErrorCode) ASN1Writer := do
  let lenLen ← lift (bytesToEncodeLen len)
  if w.offset + (1 + lenLen + len) ≤ w.buf.length then do
    let buf ← store w.buf w.offset tag
    let (buf, offset) ← encodeLen buf (w.offset + 1) len
    let w ← f { w with buf := buf, offset := offset }
    return { w with offset := w.offset + len }
  else .error (.error .bufferTooSmall)

def addCompound (w : ASN1Writer) (val : UInt8) : Except (Stop ErrorCode) ASN1Writer := do
  let w ← w.appendWith (1 + reserveLenBytes) fun t => do
    let buf ← store t.buf t.offset val
    return { t with buf := buf }
  let depth ← store w.depth w.currentDepth w.offset
  let w := { w with depth := depth, currentDepth := w.currentDepth + 1 }
  if maxDepth ≤ w.currentDepth then .error (.error .bufferTooSmall) else return w

/-- The loop of `shift`. -/
def shiftLoop (shiftLen : ℕ) : ℕ → ℕ → List UInt8 → Except (Stop ErrorCode) (List UInt8)
  | 0, _, buf => return buf
  | n + 1, writeOffset, buf => do
    let byte ← index buf (writeOffset + shiftLen)
    let buf ← store buf writeOffset byte
    shiftLoop shiftLen n (writeOffset + 1) buf

/-- Move the contents of a value back to the offset behind its length. -/
def shift (shiftLen seqLen writeOffset : ℕ) (buf : List UInt8) :
    Except (Stop ErrorCode) (List UInt8) :=
  if 0 < shiftLen then shiftLoop shiftLen seqLen writeOffset buf else return buf

def endCompound (w : ASN1Writer) : Except (Stop ErrorCode) ASN1Writer :=
  if w.currentDepth = 0 then .error (.error .invalid)
  else do
    let start ← index w.depth (w.currentDepth - 1)
    let seqLen ← sub w.offset start
    let writeOffset ← sub start reserveLenBytes
    let (buf, writeOffset) ← encodeLen w.buf writeOffset seqLen
    let shiftLen ← sub start writeOffset
    let buf ← shift shiftLen seqLen writeOffset buf
    let offset ← sub w.offset shiftLen
    return { w with buf := buf, currentDepth := w.currentDepth - 1, offset := offset }

def asSlice (w : ASN1Writer) : Except (Stop ErrorCode) (List UInt8) := upTo w.buf w.offset

def writeStr (w : ASN1Writer) (vtype : UInt8) (s : List UInt8) :
    Except (Stop ErrorCode) ASN1Writer :=
  w.appendTlv vtype s.length fun t => do
    let buf ← copyAt t.buf t.offset s
    return { t with buf := buf }

/-- Append a bit string, truncated to its last bit that is set if asked. -/
def bitstr (w : ASN1Writer) (truncate : Bool) (s : List UInt8) :
    Except (Stop ErrorCode) ASN1Writer := do
  let (numOfZero, s) ← bitstrParts truncate s
  w.appendTlv 0x03 (s.length + 1) fun t => do
    let buf ← store t.buf t.offset numOfZero
    let buf ← copyAt buf (t.offset + 1) s
    return { t with buf := buf }

def consume (cal : Calendar) : CertConsumer → ASN1Writer → Except (Stop ErrorCode) ASN1Writer
  | .startSeq, w => w.addCompound 0x30
  | .endSeq, w => w.endCompound
  | .integer i, w => w.writeStr 0x02 i
  | .printstr s, w => w.writeStr 0x13 s
  | .utf8str s, w => w.writeStr 0x0c s
  | .bitstr truncate s, w => w.bitstr truncate s
  | .ostr s, w => w.writeStr 0x04 s
  | .startCompoundOstr, w => w.addCompound 0x04
  | .endCompoundOstr, w => w.endCompound
  | .bool b, w => w.appendTlv 0x01 1 fun t => do
    let buf ← store t.buf t.offset (if b then 0xFF else 0x00)
    return { t with buf := buf }
  | .startSet, w => w.addCompound 0x31
  | .endSet, w => w.endCompound
  | .ctx id val, w => w.writeStr (0x80 ||| id) val
  | .startCtx id, w => w.addCompound (0xA0 ||| id)
  | .endCtx, w => w.endCompound
  | .oid oid, w => w.writeStr 0x06 oid
  | .utctime epoch, w => do
    let (vtype, text) ← cal.utctime epoch
    w.writeStr vtype text
  | .raw data, w => w.appendWith data.length fun t => do
    let buf ← copyAt t.buf t.offset data
    return { t with buf := buf }

end ASN1Writer

/-! ## What it stands for -/

def lenBytes (len : ℕ) : List UInt8 :=
  if len < 128 then [UInt8.ofNat len]
  else if len < 256 then [0x81, UInt8.ofNat len]
  else [0x82, UInt8.ofNat (len >>> 8), UInt8.ofNat len]

/-- A value: its tag, its length and its contents. -/
def tlv (tag : UInt8) (contents : List UInt8) : List UInt8 :=
  tag :: (lenBytes contents.length ++ contents)

/-- The greatest length of a value, exclusively. -/
def maxLen : ℕ := 65536

/-- The values that are open, each with what has been written to it. -/
inductive Nest where
  | top (contents : List UInt8)
  | inner (outer : Nest) (tag : UInt8) (contents : List UInt8)
  deriving DecidableEq

namespace Nest

def depth : Nest → ℕ
  | top _ => 0
  | inner outer _ _ => outer.depth + 1

def append : Nest → List UInt8 → Nest
  | top contents, bytes => top (contents ++ bytes)
  | inner outer tag contents, bytes => inner outer tag (contents ++ bytes)

def start (s : Nest) (tag : UInt8) : Except (Stop ErrorCode) Nest :=
  if ASN1Writer.maxDepth ≤ s.depth + 1 then .error (.error .bufferTooSmall)
  else .ok (inner s tag [])

def stop : Nest → Except (Stop ErrorCode) Nest
  | top _ => .error (.error .invalid)
  | inner outer tag contents =>
    if contents.length < maxLen then .ok (outer.append (tlv tag contents))
    else .error (.error .bufferTooSmall)

def value (s : Nest) (tag : UInt8) (contents : List UInt8) : Except (Stop ErrorCode) Nest :=
  if contents.length < maxLen then .ok (s.append (tlv tag contents))
  else .error (.error .bufferTooSmall)

@[simp] theorem depth_append (s : Nest) (bytes : List UInt8) : (s.append bytes).depth = s.depth := by
  cases s <;> rfl

@[simp] theorem append_nil (s : Nest) : s.append [] = s := by
  cases s <;> simp [append]

theorem append_append (s : Nest) (a b : List UInt8) :
    (s.append a).append b = s.append (a ++ b) := by
  cases s <;> simp [append]

end Nest

inductive Piece where
  | start (tag : UInt8)
  | stop
  | value (tag : UInt8) (contents : List UInt8)
  | raw (bytes : List UInt8)

namespace Piece

def put : Piece → Nest → Except (Stop ErrorCode) Nest
  | start tag, s => s.start tag
  | stop, s => s.stop
  | value tag contents, s => s.value tag contents
  | raw bytes, s => .ok (s.append bytes)

def cost : Piece → ℕ
  | start _ => 4
  | stop => 0
  | value _ contents => 4 + contents.length
  | raw bytes => bytes.length

end Piece

namespace CertConsumer

def piece (cal : Calendar) : CertConsumer → Except (Stop ErrorCode) Piece
  | startSeq => .ok (.start 0x30)
  | endSeq => .ok .stop
  | integer i => .ok (.value 0x02 i)
  | printstr s => .ok (.value 0x13 s)
  | utf8str s => .ok (.value 0x0c s)
  | bitstr truncate s => do
    let (numOfZero, s) ← bitstrParts truncate s
    return .value 0x03 (numOfZero :: s)
  | ostr s => .ok (.value 0x04 s)
  | startCompoundOstr => .ok (.start 0x04)
  | endCompoundOstr => .ok .stop
  | bool b => .ok (.value 0x01 [if b then 0xFF else 0x00])
  | startSet => .ok (.start 0x31)
  | endSet => .ok .stop
  | ctx id val => .ok (.value (0x80 ||| id) val)
  | startCtx id => .ok (.start (0xA0 ||| id))
  | endCtx => .ok .stop
  | oid id => .ok (.value 0x06 id)
  | utctime epoch => do
    let (vtype, text) ← cal.utctime epoch
    return .value vtype text
  | raw data => .ok (.raw data)

def cost (cal : Calendar) (c : CertConsumer) : ℕ :=
  match c.piece cal with
  | .ok p => p.cost
  | .error _ => 0

def put (cal : Calendar) (c : CertConsumer) (s : Nest) : Except (Stop ErrorCode) Nest := do
  let p ← c.piece cal
  p.put s

end CertConsumer

/-! ## The writer does the same -/

namespace ASN1Writer

/-- The bytes of the buffer up to the offset, with where the open values start in them. The
three bytes reserved for the length of an open value may hold anything. -/
inductive Lays : Nest → List UInt8 → List ℕ → Prop
  | top (contents : List UInt8) : Lays (.top contents) contents []
  | inner {outer : Nest} {bytes : List UInt8} {starts : List ℕ} (tag : UInt8)
      {reserved : List UInt8} (contents : List UInt8) (h : Lays outer bytes starts)
      (hreserved : reserved.length = reserveLenBytes) :
      Lays (.inner outer tag contents) (bytes ++ tag :: (reserved ++ contents))
        (starts ++ [bytes.length + 4])

def Represents (w : ASN1Writer) (s : Nest) : Prop :=
  ∃ bytes post starts more, Lays s bytes starts ∧ w.buf = bytes ++ post ∧
    w.offset = bytes.length ∧ w.depth = starts ++ more ∧ w.currentDepth = starts.length ∧
    w.depth.length = maxDepth ∧ starts.length < maxDepth

theorem represents_new (buf : List UInt8) : (new buf).Represents (.top []) :=
  ⟨[], buf, [], List.replicate maxDepth 0, .top [], rfl, rfl, rfl, rfl, List.length_replicate,
    Nat.zero_lt_succ _⟩

variable {s : Nest}

theorem Lays.length_starts {bytes : List UInt8} {starts : List ℕ}
    (h : Lays s bytes starts) : starts.length = s.depth := by
  induction h with
  | top contents => rfl
  | inner tag contents h hreserved ih => simp [Nest.depth, ih]

/-- What is appended to the bytes is written to the innermost value. -/
theorem Lays.append {bytes : List UInt8} {starts : List ℕ} (h : Lays s bytes starts)
    (more : List UInt8) : Lays (s.append more) (bytes ++ more) starts := by
  cases h with
  | top contents => exact .top (bytes ++ more)
  | inner tag contents h hreserved =>
    rw [List.append_assoc, List.cons_append, List.append_assoc]
    exact .inner tag (contents ++ more) h hreserved

/-! ### Lengths -/

theorem bytesToEncodeLen_eq {len : ℕ} (h : len < maxLen) :
    bytesToEncodeLen len = .ok (lenBytes len).length := by
  rw [maxLen] at h
  rw [bytesToEncodeLen, lenBytes]
  split_ifs <;> rfl

theorem bytesToEncodeLen_of_le {len : ℕ} (h : maxLen ≤ len) :
    bytesToEncodeLen len = .error .bufferTooSmall := by
  rw [maxLen] at h
  rw [bytesToEncodeLen, if_neg (by omega), if_neg (by omega), if_neg (by omega)]

theorem length_lenBytes_le (len : ℕ) : (lenBytes len).length ≤ reserveLenBytes := by
  rw [lenBytes, reserveLenBytes]
  split_ifs <;> simp

theorem encodeLen_ok (pre : List UInt8) {old : List UInt8} (post : List UInt8) {i len : ℕ}
    (hi : i = pre.length) (hlen : len < maxLen) (hold : old.length = (lenBytes len).length) :
    encodeLen (pre ++ (old ++ post)) i len =
      .ok (pre ++ (lenBytes len ++ post), pre.length + (lenBytes len).length) := by
  subst hi
  rw [maxLen] at hlen
  rw [encodeLen, bytesToEncodeLen, lenBytes]
  rw [lenBytes] at hold
  split_ifs at hold ⊢ with h1 h2
  · obtain ⟨a, rfl⟩ := List.length_eq_one_iff.mp hold
    change encodeOctets len 0 pre.length (pre ++ a :: post) = _
    rw [encodeOctets, store_ok rfl]
    rfl
  · obtain ⟨a, b, rfl⟩ := List.length_eq_two.mp hold
    change (store (pre ++ a :: b :: post) pre.length 0x81 >>= fun buf =>
      encodeOctets len 0 (pre.length + 1) buf) = _
    rw [store_ok rfl, ok_bind, encodeOctets, List.append_cons, store_ok (by simp)]
    simp
  · obtain ⟨a, b, c, rfl⟩ := List.length_eq_three.mp hold
    change (store (pre ++ a :: b :: c :: post) pre.length 0x82 >>= fun buf =>
      encodeOctets len 1 (pre.length + 1) buf) = _
    rw [store_ok rfl, ok_bind, encodeOctets, List.append_cons, store_ok (by simp), ok_bind,
      encodeOctets, List.append_cons, store_ok (by simp)]
    simp

/-! ### Calls -/

/-- What a method did is what it does on the open values, or there was too little room. -/
abbrev Refines (w : ASN1Writer) (cost : ℕ) (x : Except (Stop ErrorCode) ASN1Writer)
    (y : Except (Stop ErrorCode) Nest) : Prop :=
  Emit.CallRefines Represents offset (fun w => w.buf.length) (.error .bufferTooSmall) w cost x y

def Fills (f : ASN1Writer → Except (Stop ErrorCode) ASN1Writer) (contents : List UInt8) : Prop :=
  ∀ (w : ASN1Writer) (pre old post : List UInt8), w.buf = pre ++ (old ++ post) →
    w.offset = pre.length → old.length = contents.length →
    f w = .ok { w with buf := pre ++ (contents ++ post) }

theorem exists_split {α : Type} (post : List α) {n : ℕ} (h : n ≤ post.length) :
    ∃ old post', post = old ++ post' ∧ old.length = n :=
  ⟨post.take n, post.drop n, (List.take_append_drop n post).symm, List.length_take_of_le h⟩

theorem exists_cons {α : Type} (post : List α) (h : 0 < post.length) :
    ∃ x post', post = x :: post' := by
  cases post with
  | nil => cases h
  | cons x post' => exact ⟨x, post', rfl⟩

variable {w : ASN1Writer} {contents : List UInt8}

theorem appendTlv_refines (hw : w.Represents s) (tag : UInt8)
    {f : ASN1Writer → Except (Stop ErrorCode) ASN1Writer} {len : ℕ}
    (hlen : contents.length = len) (hf : Fills f contents) :
    w.Refines (4 + contents.length) (w.appendTlv tag len f) (s.value tag contents) := by
  subst hlen
  obtain ⟨bytes, post, starts, more, hlays, hbuf, hoffset, hdepth, hcurrent, htotal, hmax⟩ := hw
  rw [appendTlv, Nest.value]
  by_cases hlen : contents.length < maxLen
  · have hle := length_lenBytes_le contents.length
    rw [reserveLenBytes] at hle
    rw [bytesToEncodeLen_eq hlen, if_pos hlen]
    by_cases hroom : w.offset + (1 + (lenBytes contents.length).length + contents.length) ≤
        w.buf.length
    · refine .inr (.inl ?_)
      -- what is overwritten: a byte for the tag, the length, the contents
      have hfits := hroom
      rw [hbuf, List.length_append, hoffset] at hfits
      obtain ⟨x, post, rfl⟩ := exists_cons post (by omega)
      rw [List.length_cons] at hfits
      obtain ⟨l, post, rfl, hl⟩ := exists_split post
        (show (lenBytes contents.length).length ≤ _ by omega)
      rw [List.length_append] at hfits
      obtain ⟨c, post, rfl, hc⟩ := exists_split post (show contents.length ≤ _ by omega)
      have hwrite := hf ⟨bytes ++ [tag] ++ (lenBytes contents.length ++ (c ++ post)),
        (bytes ++ [tag]).length + (lenBytes contents.length).length, w.depth, w.currentDepth⟩
        (bytes ++ [tag] ++ lenBytes contents.length) c post (by simp) (by simp; omega) hc
      refine ⟨⟨bytes ++ tlv tag contents ++ post, (bytes ++ tlv tag contents).length, w.depth,
        w.currentDepth⟩, s.append (tlv tag contents), ?_, rfl, ?_, ?_, ?_⟩
      · rw [lift_ok, ok_bind, if_pos hroom, hbuf, store_ok hoffset, ok_bind, List.append_cons,
          hoffset, encodeLen_ok _ _ (by simp) hlen hl, ok_bind]
        simp only
        rw [hwrite]
        simp [tlv, Pure.pure, Except.pure, Bind.bind, Except.bind]
        omega
      · exact ⟨bytes ++ tlv tag contents, post, starts, more, hlays.append _, rfl, rfl, hdepth,
          hcurrent, htotal, hmax⟩
      · simp [hbuf, tlv, hl, hc]
      · simp [hoffset, tlv]
        omega
    · refine .inl ⟨?_, ?_⟩
      · rw [lift_ok, ok_bind, if_neg hroom]
      · simp only
        omega
  · refine .inr (.inr ⟨.error .bufferTooSmall, ?_, ?_⟩)
    · rw [bytesToEncodeLen_of_le (Nat.le_of_not_lt hlen)]
      rfl
    · rw [if_neg hlen]

theorem raw_refines (hw : w.Represents s)
    {f : ASN1Writer → Except (Stop ErrorCode) ASN1Writer}
    (hf : Fills f contents) :
    w.Refines contents.length (w.appendWith contents.length f) (.ok (s.append contents)) := by
  obtain ⟨bytes, post, starts, more, hlays, hbuf, hoffset, hdepth, hcurrent, htotal, hmax⟩ := hw
  rw [appendWith]
  by_cases hroom : w.offset + contents.length ≤ w.buf.length
  · refine .inr (.inl ?_)
    have hfits := hroom
    rw [hbuf, List.length_append, hoffset] at hfits
    obtain ⟨old, post, rfl, hold⟩ := exists_split post (show contents.length ≤ _ by omega)
    refine ⟨⟨bytes ++ contents ++ post, (bytes ++ contents).length, w.depth, w.currentDepth⟩,
      s.append contents, ?_, rfl, ?_, ?_, ?_⟩
    · rw [if_pos hroom, hf w bytes old post hbuf hoffset hold]
      simp [hoffset, Pure.pure, Except.pure, Bind.bind, Except.bind]
    · exact ⟨bytes ++ contents, post, starts, more, hlays.append _, rfl, rfl, hdepth, hcurrent,
        htotal, hmax⟩
    · simp [hbuf, hold]
    · simp [hoffset]
  · refine .inl ⟨if_neg hroom, ?_⟩
    simp only
    omega

theorem addCompound_refines (hw : w.Represents s) (tag : UInt8) :
    w.Refines 4 (w.addCompound tag) (s.start tag) := by
  obtain ⟨bytes, post, starts, more, hlays, hbuf, hoffset, hdepth, hcurrent, htotal, hmax⟩ := hw
  rw [addCompound, appendWith, reserveLenBytes, Nest.start, ← hlays.length_starts]
  by_cases hroom : w.offset + (1 + 3) ≤ w.buf.length
  · have hfits := hroom
    rw [hbuf, List.length_append, hoffset] at hfits
    obtain ⟨x, post, rfl⟩ := exists_cons post (by omega)
    rw [List.length_cons] at hfits
    obtain ⟨reserved, post, rfl, hreserved⟩ := exists_split post (show 3 ≤ _ by omega)
    rw [hdepth, List.length_append] at htotal
    obtain ⟨d, more, rfl⟩ := exists_cons more (by omega)
    rw [if_pos hroom, hbuf, store_ok hoffset, ok_bind]
    simp only [Pure.pure, Except.pure, Bind.bind, Except.bind]
    rw [hdepth, store_ok hcurrent, hcurrent]
    simp only
    split
    · exact .inr (.inr ⟨_, rfl, rfl⟩)
    · next hbelow =>
      refine .inr (.inl ⟨_, _, rfl, rfl, ?_, ?_, ?_⟩)
      · refine ⟨bytes ++ tag :: (reserved ++ []), post, starts ++ [bytes.length + 4], more,
          .inner tag [] hlays hreserved, ?_, ?_, ?_, ?_, ?_, ?_⟩
        · simp
        · simp [hoffset, hreserved]
        · simp [hoffset]
        · simp
        · simpa using htotal
        · simpa using hbelow
      · simp [hbuf]
      · simp
  · refine .inl ⟨?_, ?_⟩
    · rw [if_neg hroom]
      rfl
    · simp only
      omega

theorem shiftLoop_ok (body : List UInt8) {pre gap : List UInt8} (post : List UInt8) {k i : ℕ}
    (hgap : gap.length = k) (hk : 0 < k) (hi : i = pre.length) :
    ∃ gap', gap'.length = k ∧ shiftLoop k body.length i (pre ++ (gap ++ (body ++ post))) =
      .ok (pre ++ (body ++ (gap' ++ post))) := by
  induction body generalizing pre gap i with
  | nil => exact ⟨gap, hgap, rfl⟩
  | cons x body ih =>
    obtain ⟨g, gap, rfl⟩ := exists_cons gap (by omega)
    have hlen : (gap ++ [x]).length = k := by simpa using hgap
    have hnext : i + 1 = (pre ++ [x]).length := by simp [hi]
    obtain ⟨gap', hgap', hshift⟩ := ih hlen hnext
    refine ⟨gap', hgap', ?_⟩
    have hpos : i + k = (pre ++ g :: gap).length := by simp [hi, ← hgap]
    have hindex : (index (pre ++ (g :: gap ++ (x :: body ++ post))) (i + k) :
        Except (Stop ErrorCode) UInt8) = .ok x := by
      simpa using index_ok hpos x (body ++ post)
    rw [List.length_cons, shiftLoop, hindex, ok_bind, List.cons_append, store_ok hi, ok_bind]
    simpa using hshift

theorem shift_ok (body : List UInt8) {pre gap : List UInt8} (post : List UInt8) {k i : ℕ}
    (hgap : gap.length = k) (hi : i = pre.length) :
    ∃ gap', gap'.length = k ∧ shift k body.length i (pre ++ (gap ++ (body ++ post))) =
      .ok (pre ++ (body ++ (gap' ++ post))) := by
  rw [shift]
  by_cases hk : 0 < k
  · rw [if_pos hk]
    exact shiftLoop_ok body post hgap hk hi
  · obtain rfl : gap = [] := List.eq_nil_of_length_eq_zero (by omega)
    rw [if_neg hk]
    exact ⟨[], hgap, rfl⟩

theorem endCompound_refines (hw : w.Represents s) :
    w.Refines 0 w.endCompound s.stop := by
  obtain ⟨bytes, post, starts, more, hlays, hbuf, hoffset, hdepth, hcurrent, htotal, hmax⟩ := hw
  rw [endCompound]
  cases hlays with
  | top contents => exact .inr (.inr ⟨.error .invalid, if_pos hcurrent, rfl⟩)
  | @inner outer bytes starts tag reserved contents hlays hreserved =>
    rw [List.length_append, List.length_singleton] at hcurrent hmax
    rw [List.append_assoc] at hdepth
    have hstart : w.currentDepth - 1 = starts.length := by omega
    have hlen : w.offset - (bytes.length + 4) = contents.length := by
      simp [hoffset, hreserved, reserveLenBytes]
      omega
    rw [if_neg (by omega), hdepth, List.singleton_append, index_ok hstart, ok_bind,
      sub_ok (by simp [hoffset, hreserved, reserveLenBytes]), ok_bind, hlen,
      sub_ok (by simp [reserveLenBytes]), ok_bind, Nest.stop]
    by_cases hmaxLen : contents.length < maxLen
    · refine .inr (.inl ?_)
      -- the length takes the first of the reserved bytes, the rest is the gap
      have hle := length_lenBytes_le contents.length
      obtain ⟨old, gap, rfl, hold⟩ := exists_split reserved
        (show (lenBytes contents.length).length ≤ _ by omega)
      have hgap : gap.length = 3 - (lenBytes contents.length).length := by
        rw [List.length_append, reserveLenBytes] at hreserved
        omega
      have hbuf' : w.buf = bytes ++ [tag] ++ (old ++ (gap ++ (contents ++ post))) := by
        simp [hbuf]
      have hpre : (bytes ++ [tag]).length + (lenBytes contents.length).length =
          (bytes ++ [tag] ++ lenBytes contents.length).length := List.length_append.symm
      have hk : bytes.length + 4 - ((bytes ++ [tag]).length + (lenBytes contents.length).length) =
          gap.length := by
        simp
        omega
      have hback : w.offset - gap.length = (bytes ++ tlv tag contents).length := by
        simp [hoffset, hold, tlv]
        omega
      obtain ⟨gap', hgap', hshift⟩ := shift_ok contents post (rfl : gap.length = _) hpre
      refine ⟨⟨bytes ++ tlv tag contents ++ (gap' ++ post), (bytes ++ tlv tag contents).length,
        w.depth, w.currentDepth - 1⟩, outer.append (tlv tag contents), ?_, if_pos hmaxLen,
        ?_, ?_, ?_⟩
      · rw [hbuf', encodeLen_ok _ _ (by simp [reserveLenBytes]) hmaxLen hold, ok_bind]
        simp only
        rw [← List.append_assoc (bytes ++ [tag]), sub_ok (by simp [reserveLenBytes] at hle ⊢; omega),
          ok_bind, hk, hshift, ok_bind, sub_ok (by simp [hoffset]; omega), ok_bind, hback, hdepth]
        simp [tlv, Pure.pure, Except.pure]
      · refine ⟨bytes ++ tlv tag contents, gap' ++ post, starts, _, hlays.append _, rfl, rfl,
          hdepth, hstart, htotal, ?_⟩
        omega
      · simp [hbuf, tlv, hgap', hold]
        omega
      · simp [← hback]
    · refine .inr (.inr ⟨.error .bufferTooSmall, ?_, if_neg hmaxLen⟩)
      rw [encodeLen, bytesToEncodeLen_of_le (Nat.le_of_not_lt hmaxLen)]
      rfl

theorem fills_copyAt (s : List UInt8) :
    Fills (fun t => do
      let buf ← copyAt t.buf t.offset s
      return { t with buf := buf }) s := by
  intro w pre old post hbuf hoffset hold
  simp only
  rw [hbuf, copyAt_ok hoffset hold]
  rfl

theorem fills_store (byte : UInt8) :
    Fills (fun t => do
      let buf ← store t.buf t.offset byte
      return { t with buf := buf }) [byte] := by
  intro w pre old post hbuf hoffset hold
  obtain ⟨x, rfl⟩ := List.length_eq_one_iff.mp hold
  simp only
  rw [hbuf, List.singleton_append, store_ok hoffset]
  rfl

theorem fills_bitstr (numOfZero : UInt8) (s : List UInt8) :
    Fills (fun t => do
      let buf ← store t.buf t.offset numOfZero
      let buf ← copyAt buf (t.offset + 1) s
      return { t with buf := buf }) (numOfZero :: s) := by
  intro w pre old post hbuf hoffset hold
  obtain ⟨x, old, rfl⟩ := exists_cons old (by simp [hold])
  have hnext : w.offset + 1 = (pre ++ [numOfZero]).length := by simp [hoffset]
  have hlen : old.length = s.length := by simpa using hold
  simp only
  rw [hbuf, List.cons_append, store_ok hoffset, ok_bind, List.append_cons, copyAt_ok hnext hlen]
  simp [Pure.pure, Except.pure, Bind.bind, Except.bind]

theorem writeStr_refines (hw : w.Represents s) (tag : UInt8) (data : List UInt8) :
    w.Refines (4 + data.length) (w.writeStr tag data) (s.value tag data) :=
  appendTlv_refines hw tag rfl (fills_copyAt data)

theorem refines_of_piece {cal : Calendar} {c : CertConsumer} {p : Piece}
    {r : Except (Stop ErrorCode) ASN1Writer} (hp : c.piece cal = .ok p) (hr : consume cal c w = r)
    (h : w.Refines p.cost r (p.put s)) : w.Refines (c.cost cal) (consume cal c w) (c.put cal s) := by
  rw [CertConsumer.cost, CertConsumer.put, hp, hr]
  exact h

/-- **A call** of the writer does what it does on the open values, or there is too little
room for what it writes. -/
theorem consume_refines (cal : Calendar) (c : CertConsumer)
    (hw : w.Represents s) : w.Refines (c.cost cal) (consume cal c w) (c.put cal s) := by
  cases c with
  | startSeq | startCompoundOstr | startSet | startCtx => exact refines_of_piece rfl rfl (addCompound_refines hw _)
  | endSeq | endCompoundOstr | endSet | endCtx => exact refines_of_piece rfl rfl (endCompound_refines hw)
  | integer data | printstr data | utf8str data | ostr data | oid data =>
    exact refines_of_piece rfl rfl (writeStr_refines hw _ data)
  | ctx id data => exact refines_of_piece rfl rfl (writeStr_refines hw _ data)
  | bool b => exact refines_of_piece rfl rfl (appendTlv_refines hw _ rfl (fills_store _))
  | raw data => exact refines_of_piece rfl rfl (raw_refines hw (fills_copyAt data))
  | bitstr truncate bits =>
    rw [consume, bitstr, CertConsumer.put, CertConsumer.cost, CertConsumer.piece]
    cases bitstrParts truncate bits with
    | error e => exact .inr (.inr ⟨e, rfl, rfl⟩)
    | ok parts => exact appendTlv_refines hw _ rfl (fills_bitstr parts.1 parts.2)
  | utctime epoch =>
    rw [consume, CertConsumer.put, CertConsumer.cost, CertConsumer.piece]
    cases cal.utctime epoch with
    | error e => exact .inr (.inr ⟨e, rfl, rfl⟩)
    | ok text => exact writeStr_refines hw _ text.2

theorem asSlice_top (hw : w.Represents (.top contents)) :
    w.asSlice = .ok contents := by
  obtain ⟨bytes, post, starts, more, hlays, hbuf, hoffset, -⟩ := hw
  cases hlays
  rw [asSlice, hbuf, hoffset, upTo_ok]

end ASN1Writer

end RsMatter
