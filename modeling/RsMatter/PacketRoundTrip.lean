import RsMatter.PacketCodec

/-!
# The round trip of packets (`transport/packet.rs`)

What stands behind the plain header of a packet is opened again under the same key and node id
(`opened_body`), since the nonce and the associated data are rebuilt from the header as it was
read. Decoding is given the packet and nothing else, and so is the AEAD (`panic_of_decodeBytes`).
-/

namespace RsMatter

namespace Storage

open ReadBuf

/-! ## There and back -/

section RoundTrip

variable {aead : InPlaceAead} {hdr : PacketHdr} {key : Option (List UInt8)} {nodeid : BitVec 64}
  {payload : List UInt8}

theorem tail_of_length {pb : ParseBuf} {n size : ℕ} (h : pb.left.length = n + size) :
    pb.tail size = .ok { pb with left := pb.left.take n } := by
  rw [ParseBuf.tail, if_pos (by omega), h, Nat.add_sub_cancel]

/-- What was encrypted behind a plain header is decrypted behind it. -/
theorem opened_body (haead : aead.Inverse) (hok : (body hdr aead key nodeid payload).2 = .ok ())
    {plain : PlainHdr} (hsec : plain.secFlags = hdr.plain.secFlags) (hctr : plain.ctr = hdr.plain.ctr) :
    opened aead key plain nodeid ⟨hdr.plain.encode, (body hdr aead key nodeid payload).1⟩ =
      .ok ⟨hdr.plain.encode, hdr.proto.encode ++ payload⟩ := by
  cases key with
  | none => rfl
  | some key =>
    have hiv : plain.iv nodeid = hdr.plain.iv nodeid := by
      rw [PlainHdr.iv, PlainHdr.iv, hsec, hctr]
    have hlen : (hdr.proto.encode ++ payload ++ List.replicate aeadTagLen 0).length =
        (hdr.proto.encode ++ payload).length + aeadTagLen := by
      simp [Nat.add_assoc]
    obtain ⟨hdec, htext⟩ := haead key (hdr.plain.iv nodeid) hdr.plain.encode
      (hdr.proto.encode ++ payload ++ List.replicate aeadTagLen 0) (hdr.proto.encode ++ payload).length
      hlen.symm hok
    rw [List.take_left] at htext
    have hcipher := (aead.encryptInPlace key (hdr.plain.iv nodeid) hdr.plain.encode
      (hdr.proto.encode ++ payload).length
      (hdr.proto.encode ++ payload ++ List.replicate aeadTagLen 0)).1.property
    have hplain : hdr.plain.encode.length ≤ PlainHdr.maxLen :=
      Nat.le_trans (length_encode_plain_le hdr.plain) (by decide)
    have hopen := (aead.decryptInPlace key (hdr.plain.iv nodeid) hdr.plain.encode
      (body hdr aead (some key) nodeid payload).1).1.property
    rw [opened, if_pos hplain, hiv]
    dsimp only [body] at hopen ⊢
    rw [hdec, ok_bind, tail_of_length (hopen.trans (hcipher.trans hlen)), htext]
    rfl

/-- **A packet is read back** over any header. -/
theorem decodeBytes_body (haead : aead.Inverse) (hplain : hdr.plain.Consistent)
    (hproto : hdr.proto.Consistent) (hok : (body hdr aead key nodeid payload).2 = .ok ()) (h₀ : PacketHdr) :
    decodeBytes h₀ aead key nodeid ⟨[], hdr.plain.encode ++ (body hdr aead key nodeid payload).1⟩ =
      .ok (⟨h₀.plain.readOver hdr.plain, h₀.proto.readOver hdr.proto⟩,
        ⟨hdr.plain.encode ++ hdr.proto.encode, payload⟩) := by
  have hopened : opened aead key (h₀.plain.readOver hdr.plain) nodeid
      ⟨hdr.plain.encode, (body hdr aead key nodeid payload).1⟩ =
      .ok ⟨hdr.plain.encode, hdr.proto.encode ++ payload⟩ := opened_body haead hok rfl rfl
  rw [decodeBytes, PlainHdr.decode_encode_over h₀.plain hplain, Stop.lift_ok, ok_bind]
  dsimp only
  rw [List.nil_append, hopened, ok_bind, ProtoHdr.decode_encode_over h₀.proto hproto, Stop.lift_ok, ok_bind]
  rfl

/-! ## No further than the packet -/

/-- At most `k` bytes more have been read. -/
def Took (k : ℕ) (pb pb' : ParseBuf) : Prop :=
  ∃ n ≤ k, pb' = ⟨pb.parsed ++ pb.left.take n, pb.left.drop n⟩

theorem Took.trans {j k : ℕ} {pb₁ pb₂ pb₃ : ParseBuf} (h : Took j pb₁ pb₂) (h' : Took k pb₂ pb₃) :
    Took (j + k) pb₁ pb₃ := by
  obtain ⟨m, hm, rfl⟩ := h
  obtain ⟨n, hn, rfl⟩ := h'
  refine ⟨m + n, Nat.add_le_add hm hn, ?_⟩
  simp [List.take_add]

theorem took_le {n w : ℕ} {v : BitVec w} {pb pb' : ParseBuf} (h : pb.le n w = .ok (v, pb')) :
    Took n pb pb' := by
  rw [ParseBuf.le] at h
  split at h
  · cases h
    exact ⟨n, Nat.le_refl n, rfl⟩
  · cases h

theorem took_leIf {present : Bool} {n w : ℕ} {old v : BitVec w} {pb pb' : ParseBuf}
    (h : pb.leIf present n w old = .ok (v, pb')) : Took n pb pb' := by
  cases present with
  | true => exact took_le h
  | false =>
    cases h
    exact ⟨0, Nat.zero_le n, by simp⟩

/-- **The plain header** takes at most 24 bytes. -/
theorem took_decode {h h' : PlainHdr} {pb pb' : ParseBuf} (hdec : h.decode pb = .ok (h', pb')) :
    Took 24 pb pb' := by
  rw [PlainHdr.decode] at hdec
  obtain ⟨⟨flags, pb₁⟩, h₁, hdec⟩ := Prog.except_bind_eq_ok.mp hdec
  obtain ⟨flags', -, hdec⟩ := Prog.except_bind_eq_ok.mp hdec
  obtain ⟨⟨sessId, pb₂⟩, h₂, hdec⟩ := Prog.except_bind_eq_ok.mp hdec
  obtain ⟨⟨secFlags, pb₃⟩, h₃, hdec⟩ := Prog.except_bind_eq_ok.mp hdec
  obtain ⟨secFlags', -, hdec⟩ := Prog.except_bind_eq_ok.mp hdec
  obtain ⟨⟨ctr, pb₄⟩, h₄, hdec⟩ := Prog.except_bind_eq_ok.mp hdec
  obtain ⟨⟨src, pb₅⟩, h₅, hdec⟩ := Prog.except_bind_eq_ok.mp hdec
  have htook : Took 16 pb pb₅ := (took_le h₁).trans ((took_le h₂).trans ((took_le h₃).trans
    ((took_le h₄).trans (took_leIf h₅))))
  have hdst : Took 8 pb₅ pb' := by
    dsimp only at hdec
    split at hdec
    · cases hdec
      exact ⟨0, Nat.zero_le 8, by simp⟩
    · split at hdec
      · obtain ⟨⟨dst, pb₆⟩, h₆, hdec⟩ := Prog.except_bind_eq_ok.mp hdec
        cases hdec
        exact took_le h₆
      · obtain ⟨⟨dst, pb₆⟩, h₆, hdec⟩ := Prog.except_bind_eq_ok.mp hdec
        cases hdec
        obtain ⟨n, hn, htook⟩ := took_leIf h₆
        exact ⟨n, Nat.le_trans hn (by decide), htook⟩
  exact htook.trans hdst

/-- Only an AEAD can panic, and it is given the packet, cut in two. -/
theorem panic_of_decodeBytes {h₀ : PacketHdr} {packet : List UInt8}
    (h : decodeBytes h₀ aead key nodeid ⟨[], packet⟩ = .error .panic) :
    ∃ key' ∈ key, ∃ nonce n,
      (aead.decryptInPlace key' nonce (packet.take n) (packet.drop n)).2 = .error .panic := by
  rw [decodeBytes] at h
  cases hplain : h₀.plain.decode ⟨[], packet⟩ with
  | error e =>
    rw [hplain] at h
    cases h
  | ok p =>
    obtain ⟨plain, pb⟩ := p
    obtain ⟨n, hn, rfl⟩ := took_decode hplain
    rw [hplain, Stop.lift_ok, ok_bind] at h
    dsimp only at h
    cases hopened : opened aead key plain nodeid ⟨[] ++ packet.take n, packet.drop n⟩ with
    | ok pb =>
      -- what follows is parsing
      rw [hopened, ok_bind] at h
      cases hproto : h₀.proto.decode pb <;> rw [hproto] at h <;> cases h
    | error stop =>
      rw [hopened] at h
      have hstop : stop = .panic := Except.error.inj h
      subst hstop
      cases key with
      | none => cases hopened
      | some key =>
        have hlen : ([] ++ packet.take n).length ≤ PlainHdr.maxLen := by
          rw [List.nil_append, List.length_take]
          exact Nat.le_trans (Nat.min_le_left _ _) (Nat.le_trans hn (by decide))
        rw [opened, if_pos hlen] at hopened
        refine ⟨key, rfl, plain.iv nodeid, n, ?_⟩
        dsimp only [List.nil_append] at hopened
        cases hout : (aead.decryptInPlace key (plain.iv nodeid) (packet.take n) (packet.drop n)).2 with
        | error stop =>
          rw [hout] at hopened
          exact congrArg Except.error (Except.error.inj hopened)
        | ok u =>
          rw [hout, ok_bind] at hopened
          cases htail : ParseBuf.tail aeadTagLen ⟨packet.take n,
            (aead.decryptInPlace key (plain.iv nodeid) (packet.take n) (packet.drop n)).1⟩ <;>
            rw [htail] at hopened <;> cases hopened

/-! ## The main result -/

/-- A payload in a buffer, with room for the headers before it and for the tag behind it. -/
structure Carries (wb : WriteBuf) (hdr : PacketHdr) (key : Option (List UInt8)) (payload : List UInt8) :
    Prop where
  window : wb.start ≤ wb.tail
  inside : wb.tail ≤ wb.buf.length
  payload : (wb.buf.drop wb.start).take (wb.tail - wb.start) = payload
  head : hdr.plain.encode.length + hdr.proto.encode.length ≤ wb.start
  tag : key.isSome → wb.tail + aeadTagLen ≤ wb.bufSize

end RoundTrip

theorem within_new (packet : List UInt8) : (ReadBuf.new packet).Within :=
  Nat.le_of_eq (Nat.zero_add packet.length)

theorem view_new (packet : List UInt8) : (ReadBuf.new packet).view = ⟨[], packet⟩ := by
  simp [ReadBuf.new, view]

theorem run_decode_body {aead : InPlaceAead} (haead : aead.Inverse) {hdr : PacketHdr}
    {key : Option (List UInt8)} {nodeid : BitVec 64} {payload : List UInt8} (hplain : hdr.plain.Built)
    (hproto : hdr.proto.Built) (hok : (body hdr aead key nodeid payload).2 = .ok ()) (h₀ : PacketHdr) :
    ∃ rb out, (decode h₀ aead key nodeid).run
        (ReadBuf.new (hdr.plain.encode ++ (body hdr aead key nodeid payload).1)) = (rb, .ok out) ∧
      out.plain.Same hdr.plain ∧ out.proto.Same hdr.proto ∧ (h₀ = .reset → out = hdr) ∧
      ReadBuf.asSlice.run rb = (rb, .ok payload) := by
  have hwithin := within_new (hdr.plain.encode ++ (body hdr aead key nodeid payload).1)
  obtain ⟨hinside, hended⟩ := parses_decode h₀ aead key nodeid _ hwithin
  rw [view_new, decodeBytes_body haead hplain.consistent hproto.consistent hok] at hended
  obtain ⟨hout, hview⟩ := hended
  refine ⟨_, _, Prod.ext rfl hout, hplain.consistent.same_over _, ProtoHdr.same_over _ _, ?_, ?_⟩
  · rintro rfl
    rw [hplain.consistent.over_eq rfl rfl, hproto.consistent.over_eq rfl rfl]
  · rw [run_asSlice (hinside.within hwithin), hview]

theorem Ended.same {α : Type} {out out' : ReadBuf × Except (Stop ErrorCode) α}
    {x : Except (Stop ErrorCode) (α × ParseBuf)} (h : Ended out x) (h' : Ended out' x) : out.2 = out'.2 := by
  cases x with
  | error stop => exact Eq.trans h (Eq.symm h')
  | ok p => exact h.1.trans h'.1.symm

/-- **Packets are read back, and nothing else is read.** A packet that is encoded in place, under an
AEAD that does not refuse it, is decoded to the same headers and payload, over whatever header; and
decoding any bytes neither depends on what lies behind them nor changes it, nor does it panic of its
own accord. -/
theorem packet_decode_encode (aead : InPlaceAead) (haead : aead.Inverse) :
    (∀ (hdr : PacketHdr) (key : Option (List UInt8)) (nodeid : BitVec 64) (wb : WriteBuf)
      (payload : List UInt8), hdr.plain.Built → hdr.proto.Built → Carries wb hdr key payload →
      ∃ t r, (encode hdr aead key nodeid).run wb = (t, r) ∧
        ((∃ key' ∈ key, ∃ nonce aad n data, (aead.encryptInPlace key' nonce aad n data).2 = r ∧ r ≠ .ok ()) ∨
          r = .ok () ∧ ∃ packet, WriteBuf.asSlice.run t = (t, .ok packet) ∧
            ∀ h₀, ∃ rb out, (decode h₀ aead key nodeid).run (ReadBuf.new packet) = (rb, .ok out) ∧
              out.plain.Same hdr.plain ∧ out.proto.Same hdr.proto ∧ (h₀ = .reset → out = hdr) ∧
              ReadBuf.asSlice.run rb = (rb, .ok payload))) ∧
    (∀ (h₀ : PacketHdr) (key : Option (List UInt8)) (nodeid : BitVec 64) (packet behind : List UInt8),
      let alone := (decode h₀ aead key nodeid).run (ReadBuf.new packet)
      let among := (decode h₀ aead key nodeid).run ⟨packet ++ behind, 0, packet.length⟩
      among.2 = alone.2 ∧ among.1.buf.drop packet.length = behind ∧
        (among.2 = .error .panic → ∃ key' ∈ key, ∃ nonce n,
          (aead.decryptInPlace key' nonce (packet.take n) (packet.drop n)).2 = .error .panic)) := by
  constructor
  · intro hdr key nodeid wb payload hplain hproto hwb
    obtain ⟨t, hrun, hslice⟩ := run_encode hdr aead key nodeid hwb.window hwb.inside hwb.payload
      hwb.head hwb.tag
    refine ⟨t, _, hrun, ?_⟩
    cases hbody : (body hdr aead key nodeid payload).2 with
    | ok u => exact .inr ⟨rfl, _, hslice hbody, run_decode_body haead hplain hproto hbody⟩
    | error stop =>
      -- the AEAD has refused
      cases key with
      | none => cases hbody
      | some key => exact .inl ⟨key, rfl, _, _, _, _, hbody, nofun⟩
  · intro h₀ key nodeid packet behind
    have hwithin : (⟨packet ++ behind, 0, packet.length⟩ : ReadBuf).Within := by
      simp [Within]
    have hview : (⟨packet ++ behind, 0, packet.length⟩ : ReadBuf).view = ⟨[], packet⟩ := by
      simp [view]
    obtain ⟨-, halone⟩ := parses_decode h₀ aead key nodeid _ (within_new packet)
    obtain ⟨hinside, hamong⟩ := parses_decode h₀ aead key nodeid _ hwithin
    rw [view_new] at halone
    rw [hview] at hamong
    refine ⟨Ended.same hamong halone, ?_, fun hpanic => ?_⟩
    · have hbehind := hinside.behind
      rwa [Nat.zero_add, List.drop_left] at hbehind
    · apply panic_of_decodeBytes
      cases hbytes : decodeBytes h₀ aead key nodeid ⟨[], packet⟩ with
      | error stop =>
        rw [hbytes] at hamong
        have hend : _ = Except.error stop := hamong
        exact congrArg Except.error (Except.error.inj (hend.symm.trans hpanic))
      | ok p =>
        rw [hbytes] at hamong
        cases hamong.1.symm.trans hpanic

/-! ### The message of the source's test of encryption -/

namespace TestMessage

def key : List UInt8 :=
  [0x44, 0xd4, 0x3c, 0x91, 0xd2, 0x27, 0xf3, 0xba, 0x08, 0x24, 0xc5, 0xd8, 0x7c, 0xb8, 0x1b, 0x33]

/-- The headers: session 17, counter 41, a reliable message of the initiator. -/
def hdr : PacketHdr where
  plain := { PlainHdr.new with sessId := 0x11, ctr := 41 }
  proto := { ProtoHdr.new.setReliable.setInitiator with exchId := 0x2858, protoId := 1, protoOpcode := 8 }

def payload : List UInt8 :=
  [0x15, 0x36, 0x00, 0x15, 0x37, 0x00, 0x24, 0x00, 0x01, 0x24, 0x02, 0x06, 0x24, 0x03, 0x01, 0x18, 0x35,
    0x01, 0x18, 0x18, 0x18, 0x18]

def cipherText : List UInt8 :=
  [189, 83, 250, 121, 38, 87, 97, 17, 153, 78, 243, 20, 36, 11, 131, 142, 136, 165, 227, 107, 204, 129,
    193, 153, 42, 131, 138, 254, 22, 190, 76, 244, 116, 45, 156, 215, 229, 130, 215, 147, 73, 21, 88, 216]

def plainText : List UInt8 := hdr.proto.encode ++ payload

theorem length_cipherText {key' nonce aad data : List UInt8} {n : ℕ}
    (h : (key', nonce, aad, n, data) = (key, hdr.plain.iv 0, hdr.plain.encode, plainText.length,
      plainText ++ List.replicate aeadTagLen 0)) : cipherText.length = data.length := by
  cases h
  decide

theorem length_plainText {key' nonce aad data : List UInt8}
    (h : (key', nonce, aad, data) = (key, hdr.plain.iv 0, hdr.plain.encode, cipherText)) :
    (plainText ++ cipherText.drop plainText.length).length = data.length := by
  cases h
  decide

theorem length_unchanged (data : List UInt8) : data.length = data.length := rfl

def aead : InPlaceAead where
  encryptInPlace key' nonce aad n data :=
    if h : (key', nonce, aad, n, data) = (key, hdr.plain.iv 0, hdr.plain.encode, plainText.length,
        plainText ++ List.replicate aeadTagLen 0) then
      (⟨cipherText, length_cipherText h⟩, .ok ())
    else (⟨data, length_unchanged data⟩, .error (.error .bufferTooSmall))
  decryptInPlace key' nonce aad data :=
    if h : (key', nonce, aad, data) = (key, hdr.plain.iv 0, hdr.plain.encode, cipherText) then
      (⟨plainText ++ cipherText.drop plainText.length, length_plainText h⟩, .ok ())
    else (⟨data, length_unchanged data⟩, .error (.error .bufferTooSmall))

theorem inverse : aead.Inverse := by
  intro key' nonce aad data n _ hok
  by_cases h : (key', nonce, aad, n, data) = (key, hdr.plain.iv 0, hdr.plain.encode, plainText.length,
      plainText ++ List.replicate aeadTagLen 0)
  · cases h
    exact ⟨rfl, by decide⟩
  · have hrefused : aead.encryptInPlace key' nonce aad n data =
        (⟨data, rfl⟩, .error (.error .bufferTooSmall)) := dif_neg h
    rw [hrefused] at hok
    cases hok

/-- The payload in a buffer as the sender prepares it. -/
def buffer : WriteBuf :=
  .newWith (List.replicate 38 0 ++ payload ++ List.replicate 20 0) 38 60

end TestMessage

theorem packet_decode_encode_test :
    ∃ t r,
      (encode TestMessage.hdr TestMessage.aead (some TestMessage.key) 0).run TestMessage.buffer = (t, r) ∧
      ((∃ key' ∈ some TestMessage.key, ∃ nonce aad n data,
          (TestMessage.aead.encryptInPlace key' nonce aad n data).2 = r ∧ r ≠ .ok ()) ∨
        r = .ok () ∧ ∃ packet, WriteBuf.asSlice.run t = (t, .ok packet) ∧
          ∀ h₀, ∃ rb out, (decode h₀ TestMessage.aead (some TestMessage.key) 0).run (ReadBuf.new packet) =
              (rb, .ok out) ∧
            out.plain.Same TestMessage.hdr.plain ∧ out.proto.Same TestMessage.hdr.proto ∧
            (h₀ = .reset → out = TestMessage.hdr) ∧ ReadBuf.asSlice.run rb = (rb, .ok TestMessage.payload)) :=
  (packet_decode_encode TestMessage.aead TestMessage.inverse).1 TestMessage.hdr (some TestMessage.key) 0
    TestMessage.buffer TestMessage.payload (.ctr 41 (.sessId 0x11 .new))
    (.protoOpcode 8 (.protoId 1 (.exchId 0x2858 (.setInitiator (.setReliable .new)))))
    ⟨by decide, by decide, by decide, by decide, fun _ => by decide⟩

end Storage

end RsMatter
