import RsMatter.ReadBuf
import RsMatter.SentHeaders

/-!
# Packets on buffers (`transport/packet.rs`, `transport/plain_hdr.rs`, `transport/proto_hdr.rs`)

A packet is encoded in place: the protocol header is put before the payload, both are
encrypted where they are, with room for the tag behind them, and the plain header, which is
the associated data, is put before it all. Decoding goes the other way: the nonce and the
associated data are rebuilt from the plain header as it was read.

The AEAD is not in the repository. It is given a slice to write to, and what is asked of it
is that it decrypts what it has encrypted (`InPlaceAead.Inverse`).
-/

namespace RsMatter

/-! ## The AEAD -/

/-- An authenticated encryption in place. Getting hold of it (`crypto.aead()`) is part of its
functions, and may fail. -/
structure InPlaceAead where
  /-- encrypt so many bytes under a key, with a nonce and associated data; the tag goes behind them -/
  encryptInPlace : (key nonce aad : List UInt8) → (dataLen : ℕ) → Storage.Rewrite
  /-- decrypt under a key, with a nonce and associated data -/
  decryptInPlace : (key nonce aad : List UInt8) → Storage.Rewrite

/-- What is encrypted is decrypted under the same key, with the same nonce and associated data. -/
def InPlaceAead.Inverse (aead : InPlaceAead) : Prop :=
  ∀ key nonce aad data n, n + aeadTagLen = data.length →
    (aead.encryptInPlace key nonce aad n data).2 = .ok () →
    let cipher := (aead.encryptInPlace key nonce aad n data).1.val
    (aead.decryptInPlace key nonce aad cipher).2 = .ok () ∧
      (aead.decryptInPlace key nonce aad cipher).1.val.take n = data.take n

/-- The most bytes a plain header takes (`MAX_LEN`). -/
def PlainHdr.maxLen : ℕ := 2 + 1 + 1 + 2 + 4 + 8 + 8

/-- The most bytes a protocol header takes (`MAX_LEN`). -/
def ProtoHdr.maxLen : ℕ := 1 + 1 + 2 + 2 + 2 + 4

def aeadNonceLen : ℕ := 13

namespace Storage

/-! ## Encoding -/

/-- What a program leaves in a buffer of `n` zero bytes of its own. -/
def scratch (n : ℕ) (m : Prog (Stop ErrorCode) WriteBuf Unit) : Except (Stop ErrorCode) (List UInt8) :=
  (Prog.run (do m; WriteBuf.asSlice) (WriteBuf.new (List.replicate n 0))).2

/-- The nonce (`get_iv`). -/
def getIv (secFlags : BitVec 8) (recvdCtr : BitVec 32) (peerNodeid : BitVec 64) :
    Except (Stop ErrorCode) (List UInt8) :=
  scratch aeadNonceLen do
    WriteBuf.le 1 secFlags
    WriteBuf.le 4 recvdCtr
    WriteBuf.le 8 peerNodeid

/-- Write the plain header (`PlainHdr::encode`). -/
def encodePlain (h : PlainHdr) : Prog (Stop ErrorCode) WriteBuf Unit := do
  WriteBuf.le 1 h.flags
  WriteBuf.le 2 h.sessId
  WriteBuf.le 1 h.secFlags
  WriteBuf.le 4 h.ctr
  Prog.onlyIf (flagsContain h.flags MsgFlags.srcAddrPresent = true) (WriteBuf.le 8 h.srcNodeid)
  if flagsContain h.flags MsgFlags.dsizMask then pure ()
  else if flagsContain h.flags MsgFlags.dsizUnicastNodeid then WriteBuf.le 8 h.dstNodeid
  else
    Prog.onlyIf (flagsContain h.flags MsgFlags.dsizGroupcastNodeid = true)
      (WriteBuf.le 2 (h.dstNodeid.setWidth 16))

/-- Write the protocol header (`ProtoHdr::encode`). -/
def encodeProto (h : ProtoHdr) : Prog (Stop ErrorCode) WriteBuf Unit := do
  WriteBuf.le 1 h.exchFlags
  WriteBuf.le 1 h.protoOpcode
  WriteBuf.le 2 h.exchId
  WriteBuf.le 2 h.protoId
  Prog.whenSome h.getVendor fun vendorId => WriteBuf.le 2 vendorId
  Prog.whenSome h.getAck fun ackMsgCtr => WriteBuf.le 4 ackMsgCtr

/-- Encrypt the window of a buffer, with the tag behind it. -/
def encryptInPlace (aead : InPlaceAead) (key : List UInt8) (secFlags : BitVec 8) (sendCtr : BitVec 32)
    (peerNodeid : BitVec 64) (aad : List UInt8) : Prog (Stop ErrorCode) WriteBuf Unit := do
  let iv ← Prog.ofExcept (getIv secFlags sendCtr peerNodeid)
  WriteBuf.append (List.replicate aeadTagLen 0)
  WriteBuf.asMutSlice fun cipherText =>
    match Stop.sub cipherText.length aeadTagLen with
    | .ok dataLen => aead.encryptInPlace key iv aad dataLen cipherText
    | .error stop => (⟨cipherText, rfl⟩, .error stop)

/-- Turn the payload in a buffer into a packet (`PacketHdr::encode`). -/
def encode (hdr : PacketHdr) (aead : InPlaceAead) (encKey : Option (List UInt8))
    (localNodeid : BitVec 64) : Prog (Stop ErrorCode) WriteBuf Unit := do
  let protoHdrBytes ← Prog.ofExcept (scratch ProtoHdr.maxLen (encodeProto hdr.proto))
  WriteBuf.prepend protoHdrBytes
  let plainHdrBytes ← Prog.ofExcept (scratch PlainHdr.maxLen (encodePlain hdr.plain))
  Prog.whenSome encKey fun key =>
    encryptInPlace aead key hdr.plain.secFlags hdr.plain.ctr localNodeid plainHdrBytes
  WriteBuf.prepend plainHdrBytes

/-! ## Decoding -/

/-- Read an integer if it is there; else keep what was there before. -/
def leIf (present : Bool) (n w : ℕ) (old : BitVec w) : Prog (Stop ErrorCode) ReadBuf (BitVec w) :=
  if present then ReadBuf.le n w else pure old

/-- Read the plain header (`PlainHdr::decode`). -/
def decodePlain (h : PlainHdr) : Prog (Stop ErrorCode) ReadBuf PlainHdr := do
  let flags ← ReadBuf.le 1 8
  let flags ← Prog.ofExcept
    (Stop.lift (flagsFromBits (MsgFlags.dsizMask ||| MsgFlags.srcAddrPresent) flags))
  let sessId ← ReadBuf.le 2 16
  let secFlags ← ReadBuf.le 1 8
  let secFlags ← Prog.ofExcept (Stop.lift (flagsFromBits SecFlags.groupSession secFlags))
  let ctr ← ReadBuf.le 4 32
  let srcNodeid ← leIf (flagsContain flags MsgFlags.srcAddrPresent) 8 64 h.srcNodeid
  let dstNodeid ←
    if flagsContain flags MsgFlags.dsizMask then pure h.dstNodeid
    else if flagsContain flags MsgFlags.dsizUnicastNodeid then ReadBuf.le 8 64
    else leIf (flagsContain flags MsgFlags.dsizGroupcastNodeid) 2 64 h.dstNodeid
  return ⟨flags, sessId, secFlags, ctr, srcNodeid, dstNodeid⟩

/-- Decrypt what is left of a packet and drop the tag. -/
def decryptInPlace (aead : InPlaceAead) (key : List UInt8) (secFlags : BitVec 8) (recvdCtr : BitVec 32)
    (peerNodeid : BitVec 64) : Prog (Stop ErrorCode) ReadBuf Unit := do
  let aad ← ReadBuf.parsedAsSlice
  -- `aad_buf[..aad_len]`
  Prog.ensure (aad.length ≤ PlainHdr.maxLen) .panic
  let iv ← Prog.ofExcept (getIv secFlags recvdCtr peerNodeid)
  ReadBuf.asMutSlice (aead.decryptInPlace key iv aad)
  let _ ← ReadBuf.tail aeadTagLen

def decodeProto (h : ProtoHdr) : Prog (Stop ErrorCode) ReadBuf ProtoHdr := do
  let exchFlags ← ReadBuf.le 1 8
  let exchFlags ← Prog.ofExcept (Stop.lift (flagsFromBits (ExchFlags.vendor ||| ExchFlags.secex |||
    ExchFlags.reliable ||| ExchFlags.ack ||| ExchFlags.initiator) exchFlags))
  let protoOpcode ← ReadBuf.le 1 8
  let exchId ← ReadBuf.le 2 16
  let protoId ← ReadBuf.le 2 16
  let protoVendorId ← leIf (flagsContain exchFlags ExchFlags.vendor) 2 16 h.protoVendorId
  let ackMsgCtr ← leIf (flagsContain exchFlags ExchFlags.ack) 4 32 h.ackMsgCtr
  return ⟨exchId, exchFlags, protoId, protoOpcode, protoVendorId, ackMsgCtr⟩

/-- Decrypt the rest of a packet, if there is a key, and read the protocol header
(`ProtoHdr::decrypt_and_decode`). -/
def decryptAndDecode (h : ProtoHdr) (aead : InPlaceAead) (decKey : Option (List UInt8))
    (peerNodeid : BitVec 64) (plainHdr : PlainHdr) : Prog (Stop ErrorCode) ReadBuf ProtoHdr := do
  Prog.whenSome decKey fun key =>
    decryptInPlace aead key plainHdr.secFlags plainHdr.ctr peerNodeid
  decodeProto h

/-- Read the rest of a packet (`PacketHdr::decode_remaining`). -/
def decodeRemaining (hdr : PacketHdr) (aead : InPlaceAead) (decKey : Option (List UInt8))
    (peerNodeid : BitVec 64) : Prog (Stop ErrorCode) ReadBuf PacketHdr := do
  let proto ← decryptAndDecode hdr.proto aead decKey peerNodeid hdr.plain
  return { hdr with proto := proto }

/-- Read a whole packet over a header: first the plain header, then the rest. -/
def decode (hdr : PacketHdr) (aead : InPlaceAead) (decKey : Option (List UInt8))
    (peerNodeid : BitVec 64) : Prog (Stop ErrorCode) ReadBuf PacketHdr := do
  let plain ← decodePlain hdr.plain
  decodeRemaining { hdr with plain := plain } aead decKey peerNodeid

/-! ## What is encoded -/

section Encoding

open WriteBuf

theorem serializes_le {w : ℕ} (n : ℕ) (v : BitVec w) : Serializes (le n v) (toLE n v.toNat) :=
  serializes_append _

theorem scratch_ok {m : Prog (Stop ErrorCode) WriteBuf Unit} {bytes : List UInt8} {n : ℕ}
    (hm : Serializes m bytes) (hlen : bytes.length ≤ n) : scratch n m = .ok bytes := by
  have hwindow : ((new (List.replicate n 0)).appended bytes).Window [] bytes
      (List.drop bytes.length (List.replicate n 0)) := by
    refine ⟨?_, rfl, ?_⟩
    · dsimp only [appended, overwrite, new, newWith]
      exact splice_append_left [] bytes (List.replicate n 0)
    · simp [appended, new, newWith]
  have hroom : (new (List.replicate n 0)).tail + bytes.length ≤ (new (List.replicate n 0)).bufSize := by
    simpa [new, newWith] using hlen
  rw [scratch, Prog.run_bind_of_ok (hm _ hroom), hwindow.run_asSlice]

theorem getIv_eq (h : PlainHdr) (peerNodeid : BitVec 64) :
    getIv h.secFlags h.ctr peerNodeid = .ok (h.iv peerNodeid) := by
  rw [PlainHdr.iv, List.append_assoc]
  apply scratch_ok ((serializes_le 1 _).bind ((serializes_le 4 _).bind (serializes_le 8 _)))
  simp [aeadNonceLen]

/-- **The plain header is written** as it is on the wire. -/
theorem serializes_encodePlain (h : PlainHdr) : Serializes (encodePlain h) h.encode := by
  have hdst : Serializes
      (if flagsContain h.flags MsgFlags.dsizMask then pure ()
        else if flagsContain h.flags MsgFlags.dsizUnicastNodeid then WriteBuf.le 8 h.dstNodeid
        else
          Prog.onlyIf (flagsContain h.flags MsgFlags.dsizGroupcastNodeid = true)
            (WriteBuf.le 2 (h.dstNodeid.setWidth 16)))
      (if flagsContain h.flags MsgFlags.dsizMask then []
        else if flagsContain h.flags MsgFlags.dsizUnicastNodeid then toLE 8 h.dstNodeid.toNat
        else if flagsContain h.flags MsgFlags.dsizGroupcastNodeid then
          toLE 2 (h.dstNodeid.setWidth 16).toNat
        else []) := by
    split
    · exact serializes_nil
    · split
      · exact serializes_le 8 _
      · exact (serializes_le 2 _).onlyIf _
  simp only [PlainHdr.encode, List.append_assoc]
  exact (serializes_le 1 _).bind ((serializes_le 2 _).bind ((serializes_le 1 _).bind
    ((serializes_le 4 _).bind (((serializes_le 8 _).onlyIf _).bind hdst))))

/-- **The protocol header is written** as it is on the wire. -/
theorem serializes_encodeProto (h : ProtoHdr) : Serializes (encodeProto h) h.encode := by
  simp only [ProtoHdr.encode, List.append_assoc]
  refine (serializes_le 1 _).bind ((serializes_le 1 _).bind ((serializes_le 2 _).bind
    ((serializes_le 2 _).bind (.bind ?_ ?_))))
  · cases h.getVendor with
    | none => exact serializes_nil
    | some vendorId => exact serializes_le 2 vendorId
  · cases h.getAck with
    | none => exact serializes_nil
    | some ackMsgCtr => exact serializes_le 4 ackMsgCtr

theorem length_encode_plain_le (h : PlainHdr) : h.encode.length ≤ 24 := by
  simp only [PlainHdr.encode, List.length_append, length_toLE]
  (repeat' split) <;> simp

theorem length_encode_proto_le (h : ProtoHdr) : h.encode.length ≤ ProtoHdr.maxLen := by
  simp only [ProtoHdr.encode, List.length_append, length_toLE, ProtoHdr.maxLen]
  (repeat' split) <;> simp

/-- What stands behind the plain header of a packet, and how its encryption ends. -/
def body (hdr : PacketHdr) (aead : InPlaceAead) (encKey : Option (List UInt8)) (localNodeid : BitVec 64)
    (payload : List UInt8) : List UInt8 × Except (Stop ErrorCode) Unit :=
  match encKey with
  | none => (hdr.proto.encode ++ payload, .ok ())
  | some key =>
    let out := aead.encryptInPlace key (hdr.plain.iv localNodeid) hdr.plain.encode
      (hdr.proto.encode ++ payload).length (hdr.proto.encode ++ payload ++ List.replicate aeadTagLen 0)
    (out.1, out.2)

/-- **Encryption in place** of a window, with room for the tag behind it. -/
theorem run_encryptInPlace {wb : WriteBuf} {pre mid gap post : List UInt8} (aead : InPlaceAead)
    (key aad : List UInt8) (h : PlainHdr) (nodeid : BitVec 64) (hwindow : wb.Window pre mid (gap ++ post))
    (hgap : gap.length = aeadTagLen) (hroom : wb.tail + aeadTagLen ≤ wb.bufSize) :
    let out := aead.encryptInPlace key (h.iv nodeid) aad mid.length (mid ++ List.replicate aeadTagLen 0)
    ∃ t : WriteBuf, (encryptInPlace aead key h.secFlags h.ctr nodeid aad).run wb = (t, out.2) ∧
      t.Window pre out.1 post := by
  have htag : gap.length = (List.replicate aeadTagLen (0 : UInt8)).length := by
    simpa using hgap
  obtain ⟨wb₁, happend, hwindow₁, -⟩ := hwindow.run_append htag (by simpa using hroom)
  have hsub : (Stop.sub (mid ++ List.replicate aeadTagLen (0 : UInt8)).length aeadTagLen :
      Except (Stop ErrorCode) ℕ) = .ok mid.length := by
    rw [List.length_append, List.length_replicate, Stop.sub_ok (Nat.le_add_left _ _), Nat.add_sub_cancel]
  obtain ⟨t, hrun, hwindow', -⟩ := hwindow₁.run_asMutSlice fun cipherText =>
    match Stop.sub cipherText.length aeadTagLen with
    | .ok dataLen => aead.encryptInPlace key (h.iv nodeid) aad dataLen cipherText
    | .error stop => (⟨cipherText, rfl⟩, .error stop)
  simp only [hsub] at hrun hwindow'
  refine ⟨t, ?_, hwindow'⟩
  rw [encryptInPlace, getIv_eq, Prog.run_bind_of_ok (Prog.run_ofExcept _ _), Prog.run_bind_of_ok happend]
  exact hrun

/-- **Encoding** leaves the plain header and what stands behind it, if the encryption succeeds. -/
theorem run_encode {wb : WriteBuf} {payload : List UInt8} (hdr : PacketHdr) (aead : InPlaceAead)
    (encKey : Option (List UInt8)) (localNodeid : BitVec 64) (hstart : wb.start ≤ wb.tail)
    (htail : wb.tail ≤ wb.buf.length)
    (hpayload : (wb.buf.drop wb.start).take (wb.tail - wb.start) = payload)
    (hhead : hdr.plain.encode.length + hdr.proto.encode.length ≤ wb.start)
    (htag : encKey.isSome → wb.tail + aeadTagLen ≤ wb.bufSize) :
    ∃ t : WriteBuf, (encode hdr aead encKey localNodeid).run wb =
        (t, (body hdr aead encKey localNodeid payload).2) ∧
      ((body hdr aead encKey localNodeid payload).2 = .ok () →
        asSlice.run t = (t, .ok (hdr.plain.encode ++ (body hdr aead encKey localNodeid payload).1))) := by
  have hproto := scratch_ok (serializes_encodeProto hdr.proto) (length_encode_proto_le hdr.proto)
  have hplain := scratch_ok (n := PlainHdr.maxLen) (serializes_encodePlain hdr.plain)
    (Nat.le_trans (length_encode_plain_le hdr.plain) (by decide))
  have hwindow := window_of_le hstart htail
  rw [hpayload] at hwindow
  -- the room before the payload: what is left, the plain header, the protocol header
  obtain ⟨pre, gap, hpre, hgap⟩ : ∃ pre gap, wb.buf.take wb.start = pre ++ gap ∧
      gap.length = hdr.proto.encode.length := by
    refine ⟨_, _, (List.take_append_drop (wb.start - hdr.proto.encode.length) _).symm, ?_⟩
    rw [List.length_drop, List.length_take_of_le (by omega)]
    omega
  obtain ⟨pre', gap', hpre', hgap'⟩ : ∃ pre' gap', pre = pre' ++ gap' ∧
      gap'.length = hdr.plain.encode.length := by
    refine ⟨_, _, (List.take_append_drop (pre.length - hdr.plain.encode.length) _).symm, ?_⟩
    have hlen := congrArg List.length hpre
    rw [List.length_take_of_le (by omega), List.length_append] at hlen
    rw [List.length_drop]
    omega
  rw [hpre] at hwindow
  obtain ⟨wb₁, hrun₁, hwindow₁, hsize₁⟩ := hwindow.run_prepend hgap
  rw [hpre'] at hwindow₁
  rw [encode, hproto, Prog.run_bind_of_ok (Prog.run_ofExcept _ _), Prog.run_bind_of_ok hrun₁, hplain,
    Prog.run_bind_of_ok (Prog.run_ofExcept _ _)]
  cases encKey with
  | none =>
    obtain ⟨t, hrun, hwindow', -⟩ := hwindow₁.run_prepend hgap'
    exact ⟨t, hrun, fun _ => hwindow'.run_asSlice⟩
  | some key =>
    -- the room behind the payload: the tag, and what is left
    have hroom : wb.tail + aeadTagLen ≤ wb.bufSize := htag rfl
    have hfits := wb.fits
    have hpost : (wb.buf.drop wb.tail).length = wb.buf.length - wb.tail := List.length_drop
    rw [← List.take_append_drop aeadTagLen (wb.buf.drop wb.tail)] at hwindow₁
    have htail₁ : wb₁.tail + aeadTagLen ≤ wb₁.bufSize := by
      have hold := hwindow.tail
      have hnew := hwindow₁.tail
      rw [hpre'] at hold
      simp only [List.length_append] at hold hnew
      omega
    obtain ⟨wb₂, hrun₂, hwindow₂⟩ := run_encryptInPlace aead key hdr.plain.encode hdr.plain localNodeid
      hwindow₁ (List.length_take_of_le (by omega)) htail₁
    cases hout : (aead.encryptInPlace key (hdr.plain.iv localNodeid) hdr.plain.encode
        (hdr.proto.encode ++ payload).length
        (hdr.proto.encode ++ payload ++ List.replicate aeadTagLen 0)).2 with
    | error stop =>
      rw [hout] at hrun₂
      refine ⟨wb₂, ?_, fun hok => ?_⟩
      · rw [Prog.whenSome, Prog.run_bind_of_error hrun₂]
        exact congrArg (wb₂, ·) hout.symm
      · cases hout.symm.trans hok
    | ok u =>
      rw [hout] at hrun₂
      obtain ⟨t, hrun, hwindow', -⟩ := hwindow₂.run_prepend hgap'
      refine ⟨t, ?_, fun _ => hwindow'.run_asSlice⟩
      rw [Prog.whenSome, Prog.run_bind_of_ok hrun₂, hrun]
      exact congrArg (t, ·) hout.symm

end Encoding

/-! ## What is decoded -/

open ReadBuf

theorem parses_leIf (present : Bool) (n w : ℕ) (old : BitVec w) :
    Parses (leIf present n w old) fun pb => Stop.lift (pb.leIf present n w old) := by
  cases present with
  | true => exact parses_le n w
  | false => exact parses_pure old

/-- **The plain header is read** as from a list of bytes. -/
theorem parses_decodePlain (h : PlainHdr) :
    Parses (decodePlain h) fun pb => Stop.lift (h.decode pb) := by
  unfold decodePlain PlainHdr.decode
  refine (parses_le 1 8).lift_bind fun flags => .lift_check _ fun flags => ?_
  refine (parses_le 2 16).lift_bind fun sessId => ?_
  refine (parses_le 1 8).lift_bind fun secFlags => .lift_check _ fun secFlags => ?_
  refine (parses_le 4 32).lift_bind fun ctr => ?_
  refine (parses_leIf _ 8 64 _).lift_bind fun srcNodeid => ?_
  dsimp only
  split
  · exact parses_pure _
  · split
    · exact (parses_le 8 64).lift_bind fun dstNodeid => parses_pure _
    · exact (parses_leIf _ 2 64 _).lift_bind fun dstNodeid => parses_pure _

/-- **The protocol header is read** as from a list of bytes. -/
theorem parses_decodeProto (h : ProtoHdr) :
    Parses (decodeProto h) fun pb => Stop.lift (h.decode pb) := by
  unfold decodeProto ProtoHdr.decode
  refine (parses_le 1 8).lift_bind fun exchFlags => .lift_check _ fun exchFlags => ?_
  refine (parses_le 1 8).lift_bind fun protoOpcode => ?_
  refine (parses_le 2 16).lift_bind fun exchId => ?_
  refine (parses_le 2 16).lift_bind fun protoId => ?_
  refine (parses_leIf _ 2 16 _).lift_bind fun protoVendorId => ?_
  exact (parses_leIf _ 4 32 _).lift_bind fun ackMsgCtr => parses_pure _

/-- What decrypting makes of a packet whose plain header has been read. -/
def opened (aead : InPlaceAead) (decKey : Option (List UInt8)) (plain : PlainHdr) (peerNodeid : BitVec 64)
    (pb : ParseBuf) : Except (Stop ErrorCode) ParseBuf :=
  match decKey with
  | none => .ok pb
  | some key =>
    if pb.parsed.length ≤ PlainHdr.maxLen then do
      let out := aead.decryptInPlace key (plain.iv peerNodeid) pb.parsed pb.left
      let () ← out.2
      Stop.lift (ParseBuf.tail aeadTagLen { pb with left := out.1 })
    else .error .panic

theorem parses_dropTag : Parses (do let _ ← ReadBuf.tail aeadTagLen) fun pb =>
    (do let pb ← Stop.lift (pb.tail aeadTagLen); .ok ((), pb)) := by
  refine (Parses.bind (g := fun x => .ok ((), x.2)) (parses_tail aeadTagLen) fun _ =>
    parses_pure ()).congr fun pb => ?_
  cases pb.tail aeadTagLen <;> rfl

theorem parses_openSlice (aead : InPlaceAead) (key aad : List UInt8) (plain : PlainHdr)
    (peerNodeid : BitVec 64) :
    Parses
      (do
        let iv ← Prog.ofExcept (getIv plain.secFlags plain.ctr peerNodeid)
        ReadBuf.asMutSlice (aead.decryptInPlace key iv aad)
        let _ ← ReadBuf.tail aeadTagLen)
      (fun pb => do
        let out := aead.decryptInPlace key (plain.iv peerNodeid) aad pb.left
        let () ← out.2
        let pb ← Stop.lift (ParseBuf.tail aeadTagLen { pb with left := out.1 })
        .ok ((), pb)) := by
  rw [getIv_eq]
  refine (Parses.bind (g := fun x => do let pb ← Stop.lift (x.2.tail aeadTagLen); .ok ((), pb))
    (parses_asMutSlice _) fun _ => parses_dropTag).congr fun pb => ?_
  dsimp only
  cases (aead.decryptInPlace key (plain.iv peerNodeid) aad pb.left).2 <;> rfl

/-- **What is left of a packet is opened** as a list of bytes is, if there is a key. -/
theorem parses_opened (aead : InPlaceAead) (decKey : Option (List UInt8)) (plain : PlainHdr)
    (peerNodeid : BitVec 64) :
    Parses (Prog.whenSome decKey fun key => decryptInPlace aead key plain.secFlags plain.ctr peerNodeid)
      fun pb => (do let pb ← opened aead decKey plain peerNodeid pb; .ok ((), pb)) := by
  cases decKey with
  | none => exact parses_pure ()
  | some key =>
    refine (Parses.bind (g := fun x =>
      if x.1.length ≤ PlainHdr.maxLen then do
        let out := aead.decryptInPlace key (plain.iv peerNodeid) x.1 x.2.left
        let () ← out.2
        let pb ← Stop.lift (ParseBuf.tail aeadTagLen { x.2 with left := out.1 })
        .ok ((), pb)
      else .error .panic) parses_parsedAsSlice fun aad =>
        .ensure_bind _ .panic (parses_openSlice aead key aad plain peerNodeid)).congr fun pb => ?_
    rw [ok_bind]
    dsimp only [opened]
    split
    · cases (aead.decryptInPlace key (plain.iv peerNodeid) pb.parsed pb.left).2 <;> rfl
    · rfl

def decodeBytes (hdr : PacketHdr) (aead : InPlaceAead) (decKey : Option (List UInt8))
    (peerNodeid : BitVec 64) (pb : ParseBuf) : Except (Stop ErrorCode) (PacketHdr × ParseBuf) := do
  let (plain, pb) ← Stop.lift (hdr.plain.decode pb)
  let pb ← opened aead decKey plain peerNodeid pb
  let (proto, pb) ← Stop.lift (hdr.proto.decode pb)
  return (⟨plain, proto⟩, pb)

/-- **A packet is read** as from a list of bytes. -/
theorem parses_decode (hdr : PacketHdr) (aead : InPlaceAead) (decKey : Option (List UInt8))
    (peerNodeid : BitVec 64) :
    Parses (decode hdr aead decKey peerNodeid) (decodeBytes hdr aead decKey peerNodeid) := by
  have hrest (plain : PlainHdr) : Parses
      (decodeRemaining { hdr with plain := plain } aead decKey peerNodeid)
      (fun pb => do
        let pb ← opened aead decKey plain peerNodeid pb
        let (proto, pb) ← Stop.lift (hdr.proto.decode pb)
        return (⟨plain, proto⟩, pb)) := by
    have hproto : Parses (decryptAndDecode hdr.proto aead decKey peerNodeid plain) fun pb =>
        (do let pb ← opened aead decKey plain peerNodeid pb; Stop.lift (hdr.proto.decode pb)) := by
      refine (Parses.bind (g := fun x => Stop.lift (hdr.proto.decode x.2))
        (parses_opened aead decKey plain peerNodeid) fun _ => parses_decodeProto hdr.proto).congr fun pb => ?_
      cases opened aead decKey plain peerNodeid pb <;> rfl
    refine (Parses.bind (g := fun x => .ok (⟨plain, x.1⟩, x.2)) hproto fun proto => parses_pure _).congr
      fun pb => ?_
    cases opened aead decKey plain peerNodeid pb <;> rfl
  exact (parses_decodePlain hdr.plain).bind hrest

end Storage

end RsMatter
