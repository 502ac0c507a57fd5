import RsMatter.Dedup
import RsMatter.Headers

/-!
# Decoding packets (`transport/plain_hdr.rs`, `transport/proto_hdr.rs`, `transport/dedup.rs`)

A packet starts with the plain header; the rest is decrypted under the key of the session
the header leads to, with the plain header as associated data, and starts with the protocol
header. The counters of group messages are kept apart from the sessions, for each sender.

The AEAD is not in the repository. What is asked of it is that data it decrypts under a key
was encrypted under that key.
-/

namespace RsMatter

def aeadTagLen : ℕ := 16

structure Aead where
  /-- encrypt under a key, with a nonce and associated data: the ciphertext with its tag -/
  encrypt : List UInt8 → List UInt8 → List UInt8 → List UInt8 → List UInt8
  /-- decrypt under a key, with a nonce and associated data -/
  decrypt : List UInt8 → List UInt8 → List UInt8 → List UInt8 → Except ErrorCode (List UInt8)
  /-- what is decrypted under a key was encrypted under it -/
  encrypt_of_decrypt : ∀ {key iv aad data text}, decrypt key iv aad data = .ok text →
    data = encrypt key iv aad text

structure ParseBuf where
  parsed : List UInt8
  left : List UInt8
  deriving DecidableEq

namespace ParseBuf

/-- Parse a little-endian integer of `n` bytes. -/
def le (n w : ℕ) (pb : ParseBuf) : Except ErrorCode (BitVec w × ParseBuf) :=
  if n ≤ pb.left.length then
    .ok (BitVec.ofNat w (ofLE (pb.left.take n)), ⟨pb.parsed ++ pb.left.take n, pb.left.drop n⟩)
  else .error .truncatedPacket

/-- Parse an integer if it is there; else keep what was there before. -/
def leIf (present : Bool) (n w : ℕ) (old : BitVec w) (pb : ParseBuf) :
    Except ErrorCode (BitVec w × ParseBuf) :=
  if present then pb.le n w else .ok (old, pb)

def tail (n : ℕ) (pb : ParseBuf) : Except ErrorCode ParseBuf :=
  if n ≤ pb.left.length then .ok { pb with left := pb.left.take (pb.left.length - n) }
  else .error .truncatedPacket

end ParseBuf

/-- `from_bits`: flags with a bit that has no meaning are refused. -/
def flagsFromBits (known flags : BitVec 8) : Except ErrorCode (BitVec 8) :=
  if flags &&& ~~~known = 0 then .ok flags else .error .invalid

namespace PlainHdr

/-- The group that is the destination, if there is one. -/
def getDstGroupcastNodeid (h : PlainHdr) : Option (BitVec 16) :=
  if h.flags &&& MsgFlags.dsizMask = MsgFlags.dsizGroupcastNodeid then
    some (h.dstNodeid.setWidth 16)
  else none

/-- Parse the plain header. Fields that are not there keep their value. -/
def decode (h : PlainHdr) (pb : ParseBuf) : Except ErrorCode (PlainHdr × ParseBuf) := do
  let (flags, pb) ← pb.le 1 8
  let flags ← flagsFromBits (MsgFlags.dsizMask ||| MsgFlags.srcAddrPresent) flags
  let (sessId, pb) ← pb.le 2 16
  let (secFlags, pb) ← pb.le 1 8
  let secFlags ← flagsFromBits SecFlags.groupSession secFlags
  let (ctr, pb) ← pb.le 4 32
  let (srcNodeid, pb) ← pb.leIf (flagsContain flags MsgFlags.srcAddrPresent) 8 64 h.srcNodeid
  let (dstNodeid, pb) ←
    if flagsContain flags MsgFlags.dsizMask then Except.ok (h.dstNodeid, pb)
    else if flagsContain flags MsgFlags.dsizUnicastNodeid then pb.le 8 64
    else pb.leIf (flagsContain flags MsgFlags.dsizGroupcastNodeid) 2 64 h.dstNodeid
  return (⟨flags, sessId, secFlags, ctr, srcNodeid, dstNodeid⟩, pb)

/-- The nonce of a packet with this header (`get_iv`). -/
def iv (h : PlainHdr) (peerNodeid : BitVec 64) : List UInt8 :=
  toLE 1 h.secFlags.toNat ++ toLE 4 h.ctr.toNat ++ toLE 8 peerNodeid.toNat

end PlainHdr

/-- Decrypt what is left of a packet and drop the tag; what has been parsed is the associated
data. -/
def decryptInPlace (aead : Aead) (key : List UInt8) (plain : PlainHdr) (peerNodeid : BitVec 64)
    (pb : ParseBuf) : Except ErrorCode ParseBuf := do
  let text ← aead.decrypt key (plain.iv peerNodeid) pb.parsed pb.left
  let tag := pb.left.drop (pb.left.length - aeadTagLen)
  ParseBuf.tail aeadTagLen { pb with left := text ++ tag }

namespace ProtoHdr

/-- Decrypt the rest of a packet, if there is a key, and parse the protocol header. -/
def decryptAndDecode (h : ProtoHdr) (aead : Aead) (decKey : Option (List UInt8))
    (peerNodeid : BitVec 64) (plain : PlainHdr) (pb : ParseBuf) :
    Except ErrorCode (ProtoHdr × ParseBuf) := do
  let pb ←
    match decKey with
    | some key => decryptInPlace aead key plain peerNodeid pb
    | none => Except.ok pb
  let (exchFlags, pb) ← pb.le 1 8
  let exchFlags ← flagsFromBits (ExchFlags.vendor ||| ExchFlags.secex ||| ExchFlags.reliable |||
    ExchFlags.ack ||| ExchFlags.initiator) exchFlags
  let (protoOpcode, pb) ← pb.le 1 8
  let (exchId, pb) ← pb.le 2 16
  let (protoId, pb) ← pb.le 2 16
  let (protoVendorId, pb) ←
    pb.leIf (flagsContain exchFlags ExchFlags.vendor) 2 16 h.protoVendorId
  let (ackMsgCtr, pb) ← pb.leIf (flagsContain exchFlags ExchFlags.ack) 4 32 h.ackMsgCtr
  return (⟨exchId, exchFlags, protoId, protoOpcode, protoVendorId, ackMsgCtr⟩, pb)

/-- A packet whose rest was decrypted under a key was encrypted under it. -/
theorem encrypted_of_decryptAndDecode {h : ProtoHdr} {aead : Aead} {key : List UInt8}
    {peerNodeid : BitVec 64} {plain : PlainHdr} {pb : ParseBuf} {out : ProtoHdr × ParseBuf}
    (hdec : h.decryptAndDecode aead (some key) peerNodeid plain pb = .ok out) :
    ∃ text, pb.left = aead.encrypt key (plain.iv peerNodeid) pb.parsed text := by
  rw [decryptAndDecode] at hdec
  simp only [decryptInPlace] at hdec
  cases htext : aead.decrypt key (plain.iv peerNodeid) pb.parsed pb.left with
  | error code =>
    rw [htext] at hdec
    cases hdec
  | ok text => exact ⟨text, aead.encrypt_of_decrypt htext⟩

end ProtoHdr

/-! ## What is sent is read back -/

namespace ParseBuf

theorem le_append {n : ℕ} (w : ℕ) {bytes : List UInt8} (hn : bytes.length = n)
    (parsed rest : List UInt8) : (⟨parsed, bytes ++ rest⟩ : ParseBuf).le n w =
      .ok (BitVec.ofNat w (ofLE bytes), ⟨parsed ++ bytes, rest⟩) := by
  rw [le, if_pos (by simp [hn]), List.take_left' hn, List.drop_left' hn]

theorem le_toLE {n w : ℕ} (hn : 8 * n = w) (v : BitVec w) (parsed rest : List UInt8) :
    (⟨parsed, toLE n v.toNat ++ rest⟩ : ParseBuf).le n w =
      .ok (v, ⟨parsed ++ toLE n v.toNat, rest⟩) := by
  rw [le_append w (length_toLE n _), ofLE_toLE (toNat_lt_pow n hn v), BitVec.ofNat_toNat,
    BitVec.setWidth_eq]

end ParseBuf

namespace PlainHdr

theorem decode_encode {h h' : PlainHdr} {body : List UInt8} {pb : ParseBuf}
    (hdec : PlainHdr.new.decode ⟨[], h.encode ++ body⟩ = .ok (h', pb)) :
    h'.sessId = h.sessId ∧ h'.secFlags = h.secFlags ∧ pb = ⟨h.encode, body⟩ := by
  simp only [decode, encode, List.append_assoc, bind, Except.bind,
    ParseBuf.le_toLE (n := 1) (w := 8) rfl, ParseBuf.le_toLE (n := 2) (w := 16) rfl,
    ParseBuf.le_toLE (n := 4) (w := 32) rfl] at hdec
  cases hflags : flagsFromBits (MsgFlags.dsizMask ||| MsgFlags.srcAddrPresent) h.flags with
  | error code =>
    rw [hflags] at hdec
    cases hdec
  | ok flags =>
    cases hsec : flagsFromBits SecFlags.groupSession h.secFlags with
    | error code =>
      rw [hflags, hsec] at hdec
      cases hdec
    | ok secFlags =>
      obtain rfl : h.flags = flags := by
        rw [flagsFromBits] at hflags
        split_ifs at hflags
        exact Except.ok.inj hflags
      obtain rfl : h.secFlags = secFlags := by
        rw [flagsFromBits] at hsec
        split_ifs at hsec
        exact Except.ok.inj hsec
      rw [hflags, hsec] at hdec
      dsimp only at hdec
      rw [encode]
      -- which of the optional fields there are
      cases hs : flagsContain h.flags MsgFlags.srcAddrPresent <;>
        cases hm : flagsContain h.flags MsgFlags.dsizMask <;>
        cases hu : flagsContain h.flags MsgFlags.dsizUnicastNodeid <;>
        cases hg : flagsContain h.flags MsgFlags.dsizGroupcastNodeid <;>
        simp only [hs, hm, hu, hg, ParseBuf.leIf, ParseBuf.le_append (n := 8) 64 (length_toLE 8 _),
          ParseBuf.le_append (n := 2) 64 (length_toLE 2 _), pure, Except.pure, if_true, if_false,
          Bool.false_eq_true, List.nil_append] at hdec ⊢ <;>
        cases hdec <;>
        simp

end PlainHdr

structure Aead.Lawful (aead : Aead) : Prop where
  /-- what is decrypted is what was encrypted -/
  authentic : ∀ {key iv aad text key' iv' aad' text'},
    aead.decrypt key iv aad (aead.encrypt key' iv' aad' text') = .ok text → text = text'
  tag : ∀ key iv aad text, (aead.encrypt key iv aad text).length = text.length + aeadTagLen
  failure : ∀ {key iv aad data code}, aead.decrypt key iv aad data = .error code →
    code = .bufferTooSmall ∨ code = .invalidData

namespace ProtoHdr

variable {h proto proto' : ProtoHdr} {aead : Aead} {peerNodeid : BitVec 64} {plain : PlainHdr}
  {parsed payload : List UInt8} {pb' : ParseBuf}

theorem decode_encode (hdec : h.decryptAndDecode aead none peerNodeid plain
    ⟨parsed, proto.encode ++ payload⟩ = .ok (proto', pb')) :
    proto'.protoId = proto.protoId ∧ proto'.protoOpcode = proto.protoOpcode := by
  simp only [decryptAndDecode, encode, List.append_assoc, bind, Except.bind,
    ParseBuf.le_toLE (n := 1) (w := 8) rfl, ParseBuf.le_toLE (n := 2) (w := 16) rfl] at hdec
  split at hdec
  · cases hdec
  · split at hdec
    · cases hdec
    · split at hdec
      · cases hdec
      · cases hdec
        exact ⟨rfl, rfl⟩

theorem decryptInPlace_encrypt (haead : aead.Lawful) {key key' iv aad text : List UInt8}
    (hdec : decryptInPlace aead key plain peerNodeid ⟨parsed, aead.encrypt key' iv aad text⟩ = .ok pb') :
    pb' = ⟨parsed, text⟩ := by
  cases htext : aead.decrypt key (plain.iv peerNodeid) parsed (aead.encrypt key' iv aad text) with
  | error code =>
    simp only [decryptInPlace, bind, Except.bind, htext] at hdec
    cases hdec
  | ok text' =>
    obtain rfl := haead.authentic htext
    have hlen := haead.tag key' iv aad text'
    have htag : (List.drop ((aead.encrypt key' iv aad text').length - aeadTagLen)
        (aead.encrypt key' iv aad text')).length = aeadTagLen := by
      rw [List.length_drop, hlen]
      omega
    simp only [decryptInPlace, bind, Except.bind, htext, ParseBuf.tail, List.length_append, htag,
      Nat.le_add_left, if_true, Nat.add_sub_cancel, List.take_left] at hdec
    exact (Except.ok.inj hdec).symm

theorem decode_encrypt (haead : aead.Lawful) {key key' iv aad : List UInt8}
    (hdec : h.decryptAndDecode aead (some key) peerNodeid plain
      ⟨parsed, aead.encrypt key' iv aad (proto.encode ++ payload)⟩ = .ok (proto', pb')) :
    proto'.protoId = proto.protoId ∧ proto'.protoOpcode = proto.protoOpcode := by
  rw [decryptAndDecode.eq_def] at hdec
  dsimp only at hdec
  cases hplace : decryptInPlace aead key plain peerNodeid
      ⟨parsed, aead.encrypt key' iv aad (proto.encode ++ payload)⟩ with
  | error code =>
    rw [hplace] at hdec
    cases hdec
  | ok pb =>
    rw [hplace, decryptInPlace_encrypt haead hplace] at hdec
    have hplain : h.decryptAndDecode aead none peerNodeid plain ⟨parsed, proto.encode ++ payload⟩ =
        .ok (proto', pb') := hdec
    exact decode_encode hplain

end ProtoHdr

/-! ## How parsing fails -/

/-- The errors of a computation have a property. -/
def FailsWith {α : Type} (P : ErrorCode → Prop) (x : Except ErrorCode α) : Prop :=
  ∀ code, x = .error code → P code

section FailsWith

variable {α β : Type} {P : ErrorCode → Prop}

theorem FailsWith.ok (a : α) : FailsWith P (.ok a : Except ErrorCode α) := nofun

theorem FailsWith.bind {x : Except ErrorCode α} {f : α → Except ErrorCode β} (hx : FailsWith P x)
    (hf : ∀ a, FailsWith P (f a)) : FailsWith P (x >>= f) := by
  cases x with
  | error e =>
    intro code h
    cases h
    exact hx e rfl
  | ok a => exact hf a

end FailsWith

def ErrorCode.IsParse (code : ErrorCode) : Prop :=
  code = .truncatedPacket ∨ code = .invalid ∨ code = .bufferTooSmall ∨ code = .invalidData

instance (code : ErrorCode) : Decidable code.IsParse := inferInstanceAs (Decidable (_ ∨ _ ∨ _ ∨ _))

theorem ParseBuf.fails_le (n w : ℕ) (pb : ParseBuf) : FailsWith ErrorCode.IsParse (pb.le n w) := by
  intro code h
  rw [le] at h
  split at h
  · cases h
  · cases h
    exact .inl rfl

theorem ParseBuf.fails_leIf (present : Bool) (n w : ℕ) (old : BitVec w) (pb : ParseBuf) :
    FailsWith ErrorCode.IsParse (pb.leIf present n w old) := by
  rw [leIf]
  split
  · exact fails_le n w pb
  · exact .ok _

theorem fails_flagsFromBits (known flags : BitVec 8) :
    FailsWith ErrorCode.IsParse (flagsFromBits known flags) := by
  intro code h
  rw [flagsFromBits] at h
  split at h
  · cases h
  · cases h
    exact .inr (.inl rfl)

theorem PlainHdr.fails_decode (h : PlainHdr) (pb : ParseBuf) :
    FailsWith ErrorCode.IsParse (h.decode pb) := by
  refine .bind (pb.fails_le 1 8) fun flags => .bind (fails_flagsFromBits _ _) fun _ => ?_
  refine .bind (ParseBuf.fails_le _ _ _) fun _ => .bind (ParseBuf.fails_le _ _ _) fun _ => ?_
  refine .bind (fails_flagsFromBits _ _) fun _ => .bind (ParseBuf.fails_le _ _ _) fun _ => ?_
  refine .bind (ParseBuf.fails_leIf _ _ _ _ _) fun _ => ?_
  dsimp only
  split
  · exact .ok _
  · split
    · exact .bind (ParseBuf.fails_le _ _ _) fun _ => .ok _
    · exact .bind (ParseBuf.fails_leIf _ _ _ _ _) fun _ => .ok _

theorem ProtoHdr.fails_decode (h : ProtoHdr) (aead : Aead) (peerNodeid : BitVec 64)
    (plain : PlainHdr) (pb : ParseBuf) :
    FailsWith ErrorCode.IsParse (h.decryptAndDecode aead none peerNodeid plain pb) := by
  refine .bind (.ok pb) fun _ => .bind (ParseBuf.fails_le _ _ _) fun _ => ?_
  refine .bind (fails_flagsFromBits _ _) fun _ => ?_
  refine .bind (ParseBuf.fails_le _ _ _) fun _ => .bind (ParseBuf.fails_le _ _ _) fun _ => ?_
  refine .bind (ParseBuf.fails_le _ _ _) fun _ => .bind (ParseBuf.fails_leIf _ _ _ _ _) fun _ => ?_
  exact .bind (ParseBuf.fails_leIf _ _ _ _ _) fun _ => .ok _

theorem ProtoHdr.fails_decryptAndDecode {aead : Aead} (haead : aead.Lawful) (h : ProtoHdr)
    (decKey : Option (List UInt8)) (peerNodeid : BitVec 64) (plain : PlainHdr) (pb : ParseBuf) :
    FailsWith ErrorCode.IsParse (h.decryptAndDecode aead decKey peerNodeid plain pb) := by
  have hproto := fun pb => h.fails_decode aead peerNodeid plain pb
  cases decKey with
  | none => exact hproto pb
  | some key =>
    refine FailsWith.bind ?_ hproto
    refine .bind (fun code hcode => .inr (.inr (haead.failure hcode))) fun text => ?_
    intro code hcode
    rw [ParseBuf.tail] at hcode
    split at hcode
    · cases hcode
    · cases hcode
      exact .inl rfl

/-! ## Group counters -/

/-- The counters of a sender of group messages. -/
structure GroupCtrEntry where
  fabIdx : ℕ
  srcNodeid : BitVec 64
  rxCtr : RxCtrState
  lastUsed : BitVec 32
  deriving DecidableEq

/-- The counters of the senders of group messages. -/
structure GroupCtrStore where
  entries : List GroupCtrEntry
  /-- how many group messages have come in -/
  clock : BitVec 32
  deriving DecidableEq

namespace GroupCtrStore

def maxGroupCtrEntries : ℕ := 16

def new : GroupCtrStore := ⟨[], 0⟩

/-- Receive a group counter: `false` for a duplicate. A new sender is trusted; it takes the
place of the one that was last heard of the longest ago if there is no room. -/
def postRecv (store : GroupCtrStore) (fabIdx : ℕ) (srcNodeid : BitVec 64) (msgCtr : BitVec 32) :
    Bool × GroupCtrStore :=
  let clock := store.clock + 1
  match store.entries.findIdx? (fun e => e.fabIdx == fabIdx && e.srcNodeid == srcNodeid) with
  | some i =>
    match store.entries[i]? with
    | some e =>
      let (isNew, rxCtr) := e.rxCtr.postRecv msgCtr true
      (isNew, ⟨store.entries.set i { e with rxCtr, lastUsed := clock }, clock⟩)
    | none => (false, ⟨store.entries, clock⟩)
  | none =>
    let entry : GroupCtrEntry := ⟨fabIdx, srcNodeid, .new msgCtr, clock⟩
    if store.entries.length < maxGroupCtrEntries then
      (true, ⟨store.entries ++ [entry], clock⟩)
    else
      let lru := store.entries.findIdx fun e => store.entries.all fun e' => e.lastUsed ≤ e'.lastUsed
      (true, ⟨store.entries.set lru entry, clock⟩)

end GroupCtrStore

end RsMatter
