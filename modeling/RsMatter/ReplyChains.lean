import RsMatter.Eviction
import RsMatter.RxReplies
import RsMatter.SoundSessions

/-!
# How long two nodes answer each other (`transport.rs`)

What the transport sends on its own is received by a transport, which may answer in turn. It does
so a few times only. Every packet in flight has a price (`Price`), which covers the delivery and
what is sent for it: an acknowledgement is not answered, an unsecured report is acknowledged at
best. Closing a secured session costs more than the packet that brought it about; the session pays
for the rest, and it is gone then.

A packet that is encrypted for a session the peer knows under the id `0` is read as unsecured, and
then it can be anything. That is why a secured report has a higher price than an unsecured one.
-/

namespace RsMatter

namespace Outgoing

variable {q : Outgoing}

/-- A packet whose header tells whether it is encrypted, and that is not a group message. -/
structure Proper (q : Outgoing) : Prop where
  secFlags : q.packet.hdr.plain.secFlags = 0
  /-- it is encrypted if it has a session id -/
  encKey : q.encKey.isSome = true ↔ q.packet.hdr.plain.sessId ≠ 0

theorem decode_bytes {aead : Aead} {plain : PlainHdr} {pb : ParseBuf}
    (hdec : PlainHdr.new.decode ⟨[], q.bytes aead⟩ = .ok (plain, pb)) :
    plain.sessId = q.packet.hdr.plain.sessId ∧ plain.secFlags = q.packet.hdr.plain.secFlags ∧
      pb.left = match q.encKey with
        | some key => aead.encrypt key (q.packet.nonce q.localNodeid) q.packet.aad q.packet.plaintext
        | none => q.packet.plaintext := by
  obtain ⟨hid, hsec, rfl⟩ := PlainHdr.decode_encode hdec
  exact ⟨hid, hsec, rfl⟩

/-- A packet without security flags that has the session id `0` is taken for an unsecured one. -/
theorem isEncrypted_of_decode {aead : Aead} {plain : PlainHdr} {pb : ParseBuf}
    (hsec : q.packet.hdr.plain.secFlags = 0)
    (hdec : PlainHdr.new.decode ⟨[], q.bytes aead⟩ = .ok (plain, pb)) :
    plain.isGroupSession = false ∧ plain.isEncrypted = (q.packet.hdr.plain.sessId != 0) := by
  obtain ⟨hid, hsec', -⟩ := decode_bytes hdec
  have hgroup : plain.isGroupSession = false := by
    rw [PlainHdr.isGroupSession, hsec', hsec]
    rfl
  refine ⟨hgroup, ?_⟩
  rw [PlainHdr.isEncrypted, hgroup, hid, Bool.or_false]

/-- So are the protocol and the opcode, where a key is used if one has been used. -/
theorem kind_of_decode {aead : Aead} (haead : aead.Lawful) {h proto : ProtoHdr}
    {decKey : Option (List UInt8)} {peerNodeid : BitVec 64} {plain : PlainHdr} {pb pb' : ParseBuf}
    (hkey : decKey.isSome = q.encKey.isSome)
    (hleft : pb.left = match q.encKey with
      | some key => aead.encrypt key (q.packet.nonce q.localNodeid) q.packet.aad q.packet.plaintext
      | none => q.packet.plaintext)
    (hdec : h.decryptAndDecode aead decKey peerNodeid plain pb = .ok (proto, pb')) :
    proto.kind = q.packet.hdr.proto.kind := by
  obtain ⟨parsed, left⟩ := pb
  dsimp only at hleft
  subst hleft
  cases henc : q.encKey with
  | none =>
    rw [henc] at hkey hdec
    cases decKey with
    | none =>
      obtain ⟨hid, hop⟩ := ProtoHdr.decode_encode hdec
      exact Prod.ext hid hop
    | some key => cases hkey
  | some key' =>
    rw [henc] at hkey hdec
    cases decKey with
    | none => cases hkey
    | some key =>
      obtain ⟨hid, hop⟩ := ProtoHdr.decode_encrypt haead hdec
      exact Prod.ext hid hop

end Outgoing

namespace KeyedSession

variable {s : KeyedSession}

theorem isSome_getDecKey (s : KeyedSession) : s.getDecKey.isSome = s.isEncrypted := by
  rw [getDecKey, Session.isEncrypted]
  cases s.mode <;> rfl

theorem isSome_getEncKey (s : KeyedSession) : s.getEncKey.isSome = s.isEncrypted := by
  rw [getEncKey, Session.isEncrypted]
  cases s.mode <;> rfl

theorem isEncrypted_of_isForRx {peer : Address} {plain : PlainHdr} (h : s.isForRx peer plain = true) :
    s.isEncrypted = plain.isEncrypted := by
  simp only [isForRx, Bool.and_eq_true, beq_iff_eq] at h
  exact h.1.2

end KeyedSession

namespace KeyedSessions

variable {ss : KeyedSessions}

theorem mem_of_getForRx {s : KeyedSession} {peer : Address} {plain : PlainHdr}
    (h : ss.getForRx peer plain = some s) : s ∈ ss.sessions ∧ s.isForRx peer plain = true := by
  have hfor := List.find?_some h
  exact ⟨List.mem_of_find?_eq_some h, (Bool.and_eq_true_iff.mp hfor).2⟩

def secured (ss : KeyedSessions) : ℕ := ss.sessions.countP (·.isEncrypted)

theorem secured_remove {s : KeyedSession} {id : BitVec 32} (h : ss.get id = some s) :
    (ss.remove id).secured + (if s.isEncrypted then 1 else 0) = ss.secured := by
  obtain ⟨hid, a, c, hsessions, hbefore⟩ := List.find?_eq_some_iff_append.mp h
  have hindex : ss.sessions.findIdx? (·.id == id) = some a.length := by
    rw [hsessions, List.findIdx?_append, List.findIdx?_eq_none_iff.mpr, List.findIdx?_cons, hid]
    · simp
    · intro x hx
      exact Bool.not_eq_true' _ ▸ hbefore x hx
  obtain ⟨c', hswap, hperm⟩ := swapRemove_append a s c
  rw [remove, hindex, secured, secured]
  dsimp only
  rw [hsessions, hswap, List.countP_append, List.countP_append, List.countP_cons, hperm.countP_eq]
  exact Nat.add_assoc ..

theorem secured_decodePacket {env : RxEnv} {peer : Address} {buf : List UInt8}
    (hgroup : ∀ plain pb, PlainHdr.new.decode ⟨[], buf⟩ = .ok (plain, pb) → plain.isGroupSession = false) :
    (ss.decodePacket env peer buf).1.secured ≤ ss.secured := by
  cases received_decodePacket env peer buf ss with
  | refused hsub _ => exact hsub.countP_le _
  | undecoded a s c code _ hold hnew _ =>
    rw [secured, secured, hold, hnew, List.countP_append, List.countP_append, List.countP_cons,
      List.countP_cons]
    rfl
  | taken a s c plain pb rx _ _ _ hold hnew _ =>
    have henc : ((s.updateLastUsed env.now).postRecv rx env.now).1.isEncrypted = s.isEncrypted := by
      rw [Session.isEncrypted, mode_postRecv]
      rfl
    rw [secured, secured, hold, hnew, List.countP_append, List.countP_append, List.countP_cons,
      List.countP_cons, henc]
  | opened kept s rx hkept _ _ hmode hnew _ =>
    rcases hmode with hmode | ⟨-, hopens⟩
    · have henc : (s.postRecv rx env.now).1.isEncrypted = false := by
        rw [Session.isEncrypted, mode_postRecv, hmode]
      rw [secured, secured, hnew, List.countP_append, List.countP_singleton, henc]
      exact hkept.countP_le _
    · exfalso
      rw [opensGroup] at hopens
      split at hopens
      · cases hopens
      · next hdecode =>
        rw [hgroup _ _ hdecode] at hopens
        simp at hopens

end KeyedSessions

namespace TransportRunner

variable {env : RxEnv} {peer : Address} {buf : List UInt8} {t t' : TransportRunner}
  {sent : List Outgoing} {q : Outgoing}

variable {ss : KeyedSessions}

theorem rxPacket_of_error {code : ErrorCode}
    (hdecode : PlainHdr.new.decode ⟨[], buf⟩ = .error code) :
    ss.rxPacket env peer buf = (.reset, []) := by
  rw [KeyedSessions.rxPacket, hdecode]

theorem isGroupSession_rxPacket (hgroup : ∀ plain pb,
    PlainHdr.new.decode ⟨[], buf⟩ = .ok (plain, pb) → plain.isGroupSession = false) :
    (ss.rxPacket env peer buf).1.plain.isGroupSession = false := by
  cases hdecode : PlainHdr.new.decode ⟨[], buf⟩ with
  | error code =>
    rw [rxPacket_of_error hdecode]
    decide
  | ok decoded =>
    rw [plain_rxPacket hdecode]
    exact hgroup _ _ hdecode

/-- A packet that is sent is read as what it is, if it is read at all. -/
theorem kind_of_proper (haead : env.aead.Lawful) (hq : q.Proper) :
    (ss.rxPacket env peer (q.bytes env.aead)).1.proto.kind = q.packet.hdr.proto.kind ∨
      ∃ code, (ss.decodePacket env peer (q.bytes env.aead)).2 = .error code ∧
        (code.IsParse ∨ code = .noSession) := by
  cases hdecode : PlainHdr.new.decode ⟨[], q.bytes env.aead⟩ with
  | error code =>
    refine .inr ⟨code, ?_, .inl (PlainHdr.fails_decode _ _ code hdecode)⟩
    rw [KeyedSessions.decodePacket, hdecode]
  | ok decoded =>
    obtain ⟨plain, pb⟩ := decoded
    obtain ⟨-, -, hleft⟩ := Outgoing.decode_bytes hdecode
    obtain ⟨hgroup, henc⟩ := Outgoing.isEncrypted_of_decode hq.secFlags hdecode
    have hkey : q.encKey.isSome = plain.isEncrypted := by
      rw [henc, Bool.eq_iff_iff, hq.encKey, bne_iff_ne]
    cases hget : ss.getForRx peer plain with
    | some s =>
      have hfor := (KeyedSessions.mem_of_getForRx hget).2
      rcases rxPacket_of_session env hdecode hget with ⟨rx, hrem, hrx, -⟩ | ⟨code, hrem, -, hres⟩
      · refine .inl ?_
        rw [hrx]
        rw [KeyedSession.decodeRemaining] at hrem
        dsimp only at hrem
        cases hproto : PacketHdr.reset.proto.decryptAndDecode env.aead s.getDecKey
            (s.peerNodeid.getD 0) plain pb with
        | error code =>
          rw [hproto] at hrem
          cases hrem
        | ok decoded =>
          rw [hproto] at hrem
          rw [← Except.ok.inj hrem, ProtoHdr.kind_adjustReliability]
          refine Outgoing.kind_of_decode haead ?_ hleft hproto
          rw [s.isSome_getDecKey, KeyedSession.isEncrypted_of_isForRx hfor, hkey]
      · refine .inr ⟨code, hres, .inl ?_⟩
        refine FailsWith.bind (ProtoHdr.fails_decryptAndDecode haead _ _ _ _ _) (fun _ => ?_) code hrem
        exact .ok _
    | none =>
      rw [KeyedSessions.rxPacket, KeyedSessions.decodePacket, hdecode]
      dsimp only
      rw [hget, decodeForSession_of_getForRx { PacketHdr.reset with plain } pb hget, hgroup]
      dsimp only
      by_cases hplain : (!plain.isEncrypted) = true
      · rw [if_pos hplain, if_pos hplain]
        rw [Bool.not_eq_true'] at hplain
        cases hproto : PacketHdr.reset.proto.decryptAndDecode env.aead none 0 plain pb with
        | error code =>
          exact .inr ⟨code, rfl, .inl (ProtoHdr.fails_decryptAndDecode haead _ _ _ _ _ code hproto)⟩
        | ok decoded =>
          refine .inl ?_
          dsimp only
          rw [ProtoHdr.kind_adjustReliability]
          refine Outgoing.kind_of_decode haead ?_ hleft hproto
          rw [hkey, hplain]
          rfl
      · rw [if_neg hplain, if_neg hplain]
        exact .inr ⟨_, rfl, .inr rfl⟩

end TransportRunner

/-! ## Prices -/

/-- How many packets a packet in flight can be answered with, and how many those, at most. -/
inductive Price (aead : Aead) : List UInt8 → ℕ → Prop where
  | ack (q : Outgoing) (hq : q.Proper) (hack : q.isAck = true) : Price aead (q.bytes aead) 1
  | report (q : Outgoing) (hq : q.Proper) (hplain : q.encKey = none) (hstatus : q.isStatus = true) :
    Price aead (q.bytes aead) 2
  | unsecured (buf : List UInt8) (hplain : ∀ plain pb, PlainHdr.new.decode ⟨[], buf⟩ = .ok (plain, pb) →
    plain.isEncrypted = false) : Price aead buf 5
  /-- any packet that is not a group message -/
  | secured (buf : List UInt8) (hgroup : ∀ plain pb, PlainHdr.new.decode ⟨[], buf⟩ = .ok (plain, pb) →
    plain.isGroupSession = false) : Price aead buf 6

theorem Price.one_le {aead : Aead} {buf : List UInt8} {p : ℕ} (h : Price aead buf p) : 1 ≤ p := by
  cases h <;> decide

inductive Total (aead : Aead) : List (List UInt8) → ℕ → Prop where
  | nil : Total aead [] 0
  | cons {buf : List UInt8} {bufs : List (List UInt8)} {p n : ℕ} (hp : Price aead buf p)
    (hn : Total aead bufs n) : Total aead (buf :: bufs) (p + n)

namespace TransportRunner

theorem price_ack {s : KeyedSession} {q : Outgoing} (aead : Aead) (hs : s.Sound)
    (hsent : SentOn s q .standaloneAck []) :
    ∃ p, Price aead (q.bytes aead) p ∧ p ≤ if s.isEncrypted then 5 else 1 := by
  have hkey : q.encKey.isSome = s.isEncrypted := by rw [hsent.encKey, s.isSome_getEncKey]
  have hack : q.isAck = true := by
    rw [Outgoing.isAck, MessageMeta.isStandaloneAck_iff, hsent.kind]
    rfl
  by_cases hq : q.Proper
  · refine ⟨1, .ack q hq hack, ?_⟩
    split <;> decide
  · -- it is encrypted, and does not look like it
    have hzero : q.packet.hdr.plain.sessId = 0 ∧ s.isEncrypted = true := by
      by_contra hnot
      refine hq ⟨hsent.secFlags, ?_⟩
      rw [hkey, hsent.sessId]
      rw [hsent.sessId] at hnot
      cases henc : s.isEncrypted with
      | false =>
        simp [hs.peerSessId henc]
      | true =>
        simp only [henc, and_true] at hnot
        simpa using hnot
    refine ⟨5, .unsecured _ fun plain pb hdec => ?_, ?_⟩
    · rw [(Outgoing.isEncrypted_of_decode hsent.secFlags hdec).2, hzero.1]
      rfl
    · rw [hzero.2]
      rfl

theorem price_close {s : KeyedSession} {q : Outgoing} (aead : Aead) (hs : s.Sound)
    (hsent : SentOn s q SCStatusCodes.closeSession.scMeta (SCStatusCodes.closeSession.asReport [])) :
    ∃ p, Price aead (q.bytes aead) p ∧ p ≤ 2 + 4 * (if s.isEncrypted then 1 else 0) := by
  cases henc : s.isEncrypted with
  | true =>
    refine ⟨6, .secured _ fun plain pb hdec => ?_, Nat.le_refl _⟩
    exact (Outgoing.isEncrypted_of_decode hsent.secFlags hdec).1
  | false =>
    have hkey : q.encKey = none := by
      rw [← Option.not_isSome_iff_eq_none, hsent.encKey, s.isSome_getEncKey, henc]
      exact Bool.false_ne_true
    refine ⟨2, .report q ⟨hsent.secFlags, ?_⟩ hkey ?_, Nat.le_refl _⟩
    · rw [hkey, hsent.sessId, hs.peerSessId henc]
      simp
    · rw [Outgoing.isStatus, MessageMeta.isScStatus_iff, hsent.kind]
      rfl

theorem writeUnsecured_eq_ok {peer : Address} {hdr : PacketHdr} {mm : MessageMeta}
    {payload : List UInt8} {q : Outgoing} (h : writeUnsecured peer hdr mm payload = .ok q) :
    q.peer = peer ∧ q.encKey = none ∧ q.packet.payload = payload ∧
      q.packet.hdr.plain.sessId = 0 ∧ q.packet.hdr.plain.secFlags = 0 ∧
      q.packet.hdr.proto.kind = (mm.protoId, mm.protoOpcode) := by
  rw [writeUnsecured] at h
  dsimp only at h
  split_ifs at h
  cases h
  refine ⟨rfl, rfl, rfl, ?_, ?_, ?_⟩
  · cases hdr.plain.getSrcNodeid <;> rfl
  · cases hdr.plain.getSrcNodeid <;> rfl
  · dsimp only
    rw [ProtoHdr.kind_adjustReliability]
    exact ProtoHdr.kind_setInto ..

theorem proper_of_writeUnsecured {peer : Address} {hdr : PacketHdr} {mm : MessageMeta}
    {payload : List UInt8} {q : Outgoing} (h : writeUnsecured peer hdr mm payload = .ok q) : q.Proper := by
  obtain ⟨-, hkey, -, hid, hsec, -⟩ := writeUnsecured_eq_ok h
  refine ⟨hsec, ?_⟩
  rw [hkey, hid]
  simp

theorem total_close {t t' : TransportRunner} {id : BitVec 32} {proto : ProtoHdr} {q : Outgoing}
    (aead : Aead) (ht : t.sessions.Sound)
    (h : t.writeEvictSessionPacket id proto = some (t', q)) :
    t'.sessions.Sound ∧ ∃ n, Total aead [q.bytes aead] n ∧
      n + 4 * t'.sessions.secured ≤ 2 + 4 * t.sessions.secured := by
  obtain ⟨s, hget, ht', hsent⟩ := writeEvictSessionPacket_cases h
  have hs := ht.sessions s (List.mem_of_find?_eq_some hget)
  obtain ⟨p, hp, hle⟩ := price_close aead hs hsent
  have hsecured := KeyedSessions.secured_remove hget
  rw [ht']
  refine ⟨ht.of_subperm (KeyedSessions.remove_subperm id _), p + 0, .cons hp .nil, ?_⟩
  omega

theorem total_evict {t t' : TransportRunner} {now : ℕ} {proto : ProtoHdr} {more : List Outgoing}
    (aead : Aead) (ht : t.sessions.Sound)
    (h : t.writeEvictSomeSessionPacket now proto = some (t', more)) :
    t'.sessions.Sound ∧ ∃ n, Total aead (more.map (·.bytes aead)) n ∧
      n + 4 * t'.sessions.secured ≤ 2 + 4 * t.sessions.secured := by
  rw [writeEvictSomeSessionPacket] at h
  split at h
  · obtain ⟨⟨t₁, q⟩, hwrite, heq⟩ := Option.map_eq_some_iff.mp h
    cases heq
    exact total_close aead ht hwrite
  · cases h
    exact ⟨ht, 0, .nil, by omega⟩

/-! ## Deliveries are paid for -/

variable {env : RxEnv} {peer : Address} {buf : List UInt8} {t t' : TransportRunner}
  {sent : List Outgoing} {r : Except ErrorCode Bool} {p : ℕ}

theorem isGroupSession_of_price (h : Price env.aead buf p) {plain : PlainHdr} {pb : ParseBuf}
    (hdecode : PlainHdr.new.decode ⟨[], buf⟩ = .ok (plain, pb)) : plain.isGroupSession = false := by
  cases h with
  | ack q hq _ => exact (Outgoing.isEncrypted_of_decode hq.secFlags hdecode).1
  | report q hq _ _ => exact (Outgoing.isEncrypted_of_decode hq.secFlags hdecode).1
  | unsecured _ hplain =>
    have hplain := hplain plain pb hdecode
    rw [PlainHdr.isEncrypted, Bool.or_eq_false_iff] at hplain
    exact hplain.2
  | secured _ hgroup => exact hgroup plain pb hdecode

/-- A packet with a low price is not encrypted, or it is an acknowledgement. -/
theorem isEncrypted_of_price (h : Price env.aead buf p) (hlow : 1 < p ∧ p < 6) (ss : KeyedSessions) :
    (ss.rxPacket env peer buf).1.plain.isEncrypted = false := by
  cases hdecode : PlainHdr.new.decode ⟨[], buf⟩ with
  | error code =>
    rw [rxPacket_of_error hdecode]
    decide
  | ok decoded =>
    obtain ⟨plain, pb⟩ := decoded
    rw [plain_rxPacket hdecode]
    cases h with
    | ack q hq _ => omega
    | report q hq hkey _ =>
      have hid : q.packet.hdr.plain.sessId = 0 := by
        by_contra hne
        have hsome := hq.encKey.mpr hne
        rw [hkey] at hsome
        cases hsome
      rw [(Outgoing.isEncrypted_of_decode hq.secFlags hdecode).2, hid]
      rfl
    | unsecured _ hplain => exact hplain plain pb hdecode
    | secured _ _ => omega

theorem isNewExchange_of_price (haead : env.aead.Lawful) (h : Price env.aead buf p) (hlow : p < 5)
    (ss : KeyedSessions) :
    (MessageMeta.ofProto (ss.rxPacket env peer buf).1.proto).isNewExchange = false ∧
        (p = 1 → (MessageMeta.ofProto (ss.rxPacket env peer buf).1.proto).isStandaloneAck = true) ∨
      ∃ code, (ss.decodePacket env peer buf).2 = .error code ∧ (code.IsParse ∨ code = .noSession) := by
  cases h with
  | ack q hq hack =>
    refine (kind_of_proper haead hq).imp_left fun hkind => ?_
    have hack := (MessageMeta.isStandaloneAck_congr hkind).trans hack
    exact ⟨by rw [MessageMeta.isNewExchange, hack]; rfl, fun _ => hack⟩
  | report q hq _ hstatus =>
    refine (kind_of_proper haead hq).imp_left fun hkind => ⟨?_, by rintro ⟨⟩⟩
    rw [MessageMeta.isNewExchange, (MessageMeta.isScStatus_congr hkind).trans hstatus]
    exact Bool.and_false _
  | unsecured _ _ => omega
  | secured _ _ => omega

/-- **One delivery.** -/
theorem total_handleRxPacket (haead : env.aead.Lawful) (ht : t.sessions.Sound)
    (hp : Price env.aead buf p) (h : t.handleRxPacket env peer buf = some (t', sent, r)) :
    t'.sessions.Sound ∧ ∃ n, Total env.aead (sent.map (·.bytes env.aead)) n ∧
      1 + n + 4 * t'.sessions.secured ≤ p + 4 * t.sessions.secured := by
  have hgroup : ∀ plain pb, PlainHdr.new.decode ⟨[], buf⟩ = .ok (plain, pb) →
      plain.isGroupSession = false := fun plain pb => isGroupSession_of_price hp
  have hsecured : (t.sessions.decodePacket env peer buf).1.secured ≤ t.sessions.secured :=
    KeyedSessions.secured_decodePacket hgroup
  have hsound := ht.decodePacket env peer buf
  have hplainGroup : (t.sessions.rxPacket env peer buf).1.plain.isGroupSession = false :=
    isGroupSession_rxPacket hgroup
  have hone := hp.one_le
  -- the errors that are answered are not those of reading a packet
  have hharmless : ∀ {code' : ErrorCode}, (∃ code, (t.sessions.decodePacket env peer buf).2 =
      .error code ∧ (code.IsParse ∨ code = .noSession)) →
      (t.sessions.decodePacket env peer buf).2 = .error code' →
      ¬ (code'.IsParse ∨ code' = .noSession) → False := by
    rintro code' ⟨code, hcode, hparse⟩ hres hnot
    rw [hcode] at hres
    cases hres
    exact hnot hparse
  cases handled_of_handleRxPacket h with
  | silent hsent hsub =>
    subst hsent
    have hcount := hsub.countP_le (·.isEncrypted)
    refine ⟨hsound.of_subperm hsub, 0, .nil, ?_⟩
    simp only [KeyedSessions.secured] at hsecured hcount ⊢
    omega
  | acked q hsent hres hack hwrite =>
    subst hsent
    obtain ⟨a, s, c, msgCtr, hold, hfor, hsentOn, hnew⟩ := writeAck_cases hwrite
    have hs : s.Sound := hsound.sessions s (by rw [hold]; simp)
    have hneOne : p ≠ 1 := by
      intro hpOne
      rcases isNewExchange_of_price haead hp (by omega) t.sessions with ⟨-, hacked⟩ | hfails
      · rw [hacked hpOne] at hack
        cases hack
      · exact hharmless hfails hres (by decide)
    obtain ⟨p', hp', hle⟩ := price_ack env.aead hs hsentOn
    have hcount : t'.sessions.secured = (t.sessions.decodePacket env peer buf).1.secured := by
      rw [KeyedSessions.secured, KeyedSessions.secured, hnew, hold, List.countP_append,
        List.countP_append, List.countP_cons, List.countP_cons]
      rfl
    refine ⟨hsound.of_middle hold hnew fun hs => ⟨hs.peerSessId, hs.exchanges⟩, p' + 0, .cons hp' .nil, ?_⟩
    have hcost : 1 + p' ≤ p := by
      by_cases hlow : p < 6
      · have hencrypted : s.isEncrypted = false := by
          rw [KeyedSession.isEncrypted_of_isForRx hfor]
          exact isEncrypted_of_price hp ⟨Nat.lt_of_le_of_ne hone (Ne.symm hneOne), hlow⟩ t.sessions
        rw [hencrypted] at hle
        simp only [Bool.false_eq_true, if_false] at hle
        omega
      · split at hle <;> omega
    omega
  | busy q more hdr hsent hres hnew hwrite hevict =>
    subst hsent
    obtain ⟨-, hkey, -, -, -, hkind⟩ := writeUnsecured_eq_ok hwrite
    obtain ⟨hsound', n, hn, hle⟩ := total_evict env.aead hsound hevict
    have hstatus : q.isStatus = true := by
      rw [Outgoing.isStatus, MessageMeta.isScStatus_iff, hkind]
      rfl
    refine ⟨hsound', 2 + n, .cons (.report q (proper_of_writeUnsecured hwrite) hkey hstatus) hn, ?_⟩
    have hcost : 5 ≤ p := by
      by_contra hlow
      rcases isNewExchange_of_price haead hp (by omega) t.sessions with ⟨hkind, -⟩ | hfails
      · rw [MessageMeta.isNewExchange_of_isNewSession hnew] at hkind
        cases hkind
      · exact hharmless hfails hres (by decide)
    dsimp only at hle
    omega
  | closed q s proto hsent hres hget hwrite =>
    subst hsent
    obtain ⟨hsound', n, hn, hle⟩ := total_close env.aead hsound hwrite
    refine ⟨hsound', n, hn, ?_⟩
    have hcost : 5 ≤ p := by
      by_contra hlow
      rcases isNewExchange_of_price haead hp (by omega) t.sessions with ⟨hkind, -⟩ | hfails
      · rw [isNewExchange_of_noSpaceExchanges hplainGroup hres] at hkind
        cases hkind
      · exact hharmless hfails hres (by decide)
    dsimp only at hle
    omega

end TransportRunner

/-! ## Two nodes -/

/-- Two nodes, and what is on its way between them. -/
structure Network where
  a : TransportRunner
  b : TransportRunner
  inFlight : List (List UInt8)
  deriving DecidableEq

namespace Network

structure Delivery where
  toA : Bool
  index : ℕ
  env : RxEnv
  peer : Address

/-- The node that a packet is delivered to receives it; what it answers is on its way then. -/
def step (aead : Aead) (n : Network) (d : Delivery) : Option Network :=
  match n.inFlight[d.index]? with
  | none => none
  | some buf =>
    let t := if d.toA then n.a else n.b
    match t.handleRxPacket { d.env with aead } d.peer buf with
    | none => none
    | some (t, sent, _) =>
      let inFlight := n.inFlight.eraseIdx d.index ++ sent.map (·.bytes aead)
      some (if d.toA then { n with a := t, inFlight } else { n with b := t, inFlight })

def machine (aead : Aead) : Machine Network Delivery := ⟨step aead⟩

variable {aead : Aead} {n n' : Network}

variable {bufs : List (List UInt8)}

theorem Total.eraseIdx {total i : ℕ} {buf : List UInt8}
    (h : Total aead bufs total) (hi : bufs[i]? = some buf) :
    ∃ p rest, Price aead buf p ∧ Total aead (bufs.eraseIdx i) rest ∧ total = p + rest := by
  induction h generalizing i with
  | nil => cases hi
  | @cons buf' bufs p m hp hm ih =>
    cases i with
    | zero =>
      cases hi
      exact ⟨p, m, hp, hm, rfl⟩
    | succ i =>
      obtain ⟨p', rest, hp', hrest, rfl⟩ := ih hi
      exact ⟨p', p + rest, hp', .cons hp hrest, by omega⟩

theorem Total.append {bufs bufs' : List (List UInt8)} {m m' : ℕ} (h : Total aead bufs m)
    (h' : Total aead bufs' m') : Total aead (bufs ++ bufs') (m + m') := by
  induction h with
  | nil => rwa [Nat.zero_add]
  | cons hp _ ih =>
    rw [Nat.add_assoc]
    exact .cons hp ih

theorem Total.length_le {m : ℕ} (h : Total aead bufs m) : bufs.length ≤ m := by
  induction h with
  | nil => exact Nat.le_refl 0
  | cons hp _ ih =>
    have hone := hp.one_le
    rw [List.length_cons]
    omega

/-- The packets in flight and the secured sessions cost at most so much. -/
structure Costs (aead : Aead) (n : Network) (total : ℕ) : Prop where
  a : n.a.sessions.Sound
  b : n.b.sessions.Sound
  inFlight : ∃ m, Total aead n.inFlight m ∧
    m + 4 * (n.a.sessions.secured + n.b.sessions.secured) ≤ total

/-- **One delivery** makes the network cheaper. -/
theorem Costs.step (haead : aead.Lawful) {d : Delivery} {total : ℕ} (h : n.Costs aead total)
    (hstep : n.step aead d = some n') : ∃ total', n'.Costs aead total' ∧ 1 + total' ≤ total := by
  obtain ⟨ha, hb, m, hm, hle⟩ := h
  rw [Network.step] at hstep
  split at hstep
  · cases hstep
  · next buf hbuf =>
    obtain ⟨p, rest, hp, hrest, rfl⟩ := Total.eraseIdx hm hbuf
    dsimp only at hstep
    split at hstep
    · cases hstep
    · next t sent r hhandle =>
      cases hto : d.toA with
      | true =>
        rw [hto] at hhandle hstep
        rw [if_pos rfl] at hhandle hstep
        obtain ⟨ht, m', hm', hcost⟩ := TransportRunner.total_handleRxPacket haead ha hp hhandle
        cases hstep
        refine ⟨_, ⟨ht, hb, rest + m', Total.append hrest hm', Nat.le_refl _⟩, ?_⟩
        dsimp only
        omega
      | false =>
        rw [hto] at hhandle hstep
        rw [if_neg Bool.false_ne_true] at hhandle hstep
        obtain ⟨ht, m', hm', hcost⟩ := TransportRunner.total_handleRxPacket haead hb hp hhandle
        cases hstep
        refine ⟨_, ⟨ha, ht, rest + m', Total.append hrest hm', Nat.le_refl _⟩, ?_⟩
        dsimp only
        omega

/-- **A run.** -/
theorem Costs.run (haead : aead.Lawful) {ds : List Delivery} {total : ℕ} (h : n.Costs aead total)
    (hrun : (machine aead).run n ds = some n') :
    ∃ total', n'.Costs aead total' ∧ ds.length + total' ≤ total := by
  induction ds generalizing n total with
  | nil =>
    cases hrun
    exact ⟨total, h, by rw [List.length_nil]; omega⟩
  | cons d ds ih =>
    obtain ⟨n₁, hstep, hrun⟩ := Machine.run_cons_eq_some.mp hrun
    obtain ⟨total₁, h₁, hle₁⟩ := h.step haead hstep
    obtain ⟨total', h', hle'⟩ := ih h₁ hrun
    refine ⟨total', h', ?_⟩
    rw [List.length_cons]
    omega

theorem Total.price {m : ℕ} (h : Total aead bufs m) {buf : List UInt8}
    (hbuf : buf ∈ bufs) : ∃ p, Price aead buf p := by
  induction h with
  | nil => cases hbuf
  | cons hp _ ih =>
    rcases List.mem_cons.mp hbuf with rfl | hbuf
    · exact ⟨_, hp⟩
    · exact ih hbuf

end Network

namespace TransportRunner

variable {env : RxEnv} {peer : Address} {buf : List UInt8} {t t' : TransportRunner}
  {sent : List Outgoing} {r : Except ErrorCode Bool}

/-- If a packet is read as a report, no report is sent for it. -/
def StatusUnanswered (aead : Aead) (buf : List UInt8) (t : TransportRunner) : Prop :=
  ∀ env peer t' sent r, env.aead = aead → t.handleRxPacket env peer buf = some (t', sent, r) →
    (MessageMeta.ofProto (t.sessions.rxPacket env peer buf).1.proto).isScStatus = true →
    ∀ q ∈ sent, q.isStatus = false

theorem statusUnanswered_of_price {aead : Aead} {p : ℕ} (hp : Price aead buf p) :
    StatusUnanswered aead buf t := by
  rintro env peer t' sent r rfl h hstatus q hq
  have hgroup : (t.sessions.rxPacket env peer buf).1.plain.isGroupSession = false :=
    isGroupSession_rxPacket fun plain pb => isGroupSession_of_price hp
  have hkind : (MessageMeta.ofProto (t.sessions.rxPacket env peer buf).1.proto).isNewExchange = false := by
    rw [MessageMeta.isNewExchange, hstatus]
    exact Bool.and_false _
  rcases (handled_of_handleRxPacket h).of_not_isNewExchange hgroup hkind with
    ⟨hsent, -⟩ | ⟨q', hsent, -, hwrite⟩
  · rw [hsent] at hq
    cases hq
  · rw [hsent] at hq
    obtain rfl := List.mem_singleton.mp hq
    obtain ⟨a, s, c, msgCtr, -, -, hsentOn, -⟩ := writeAck_cases hwrite
    rw [Bool.eq_false_iff, Ne, Outgoing.isStatus, MessageMeta.isScStatus_iff, hsentOn.kind]
    decide

/-! ## The replies -/

/-- What a packet is answered with, for which there is no session. -/
structure Replies (env : RxEnv) (peer : Address) (buf : List UInt8) (t : TransportRunner) : Prop where
  /-- an encrypted packet of an unknown session: the peer is told so -/
  notFound : OfUnknownSession peer buf t.sessions → ∃ t' q r,
    t.handleRxPacket env peer buf = some (t', [q], r) ∧
      q.IsUnsecuredReport .sessionNotFound [] peer
  /-- a request that there is no room for: the peer is told to come back, and a session is evicted
  if one can be -/
  busy : ∀ hdr, FindsTableFull env peer buf t.sessions hdr →
    ∃ (t₁ t' : TransportRunner) (q : Outgoing) (more : List Outgoing) (r : Except ErrorCode Bool),
    t.handleRxPacket env peer buf = some (t', q :: more, r) ∧
      q.IsUnsecuredReport .busy [0xF4, 0x01] peer ∧ t₁.sessions.sessions = t.sessions.sessions ∧
      t₁.writeEvictSomeSessionPacket env.now q.packet.hdr.proto = some (t', more)
  /-- with any other node, either packet leads to a few packets, and no report is sent for a
  report -/
  finite : (OfUnknownSession peer buf t.sessions ∨ ∃ hdr, FindsTableFull env peer buf t.sessions hdr) →
    ∀ (u : TransportRunner) (as : List KeyedSessions.Action) (ds : List Network.Delivery) (n : Network),
      KeyedSessions.machine.run .new as = some u.sessions →
      (Network.machine env.aead).run ⟨t, u, [buf]⟩ ds = some n →
      ds.length + n.inFlight.length ≤ 6 + 4 * (t.sessions.secured + u.sessions.secured) ∧
        ∀ buf' ∈ n.inFlight, StatusUnanswered env.aead buf' n.a ∧ StatusUnanswered env.aead buf' n.b

variable {ss : KeyedSessions}

theorem price_of_unknown (h : OfUnknownSession peer buf ss) :
    Price env.aead buf 6 := by
  obtain ⟨plain, pb, hdecode, -, -, hgroup⟩ := h
  refine .secured buf fun plain' pb' hdecode' => ?_
  rw [hdecode] at hdecode'
  cases hdecode'
  exact hgroup

variable {hdr : PacketHdr}

theorem price_of_full (h : FindsTableFull env peer buf ss hdr) :
    Price env.aead buf 6 := by
  obtain ⟨pb, proto, pb', hdecode, -, henc, -, -⟩ := h.read
  refine .secured buf fun plain' pb' hdecode' => ?_
  rw [hdecode] at hdecode'
  cases hdecode'
  rw [PlainHdr.isEncrypted, Bool.or_eq_false_iff] at henc
  exact henc.2

theorem finite_of_price (haead : env.aead.Lawful) (ht : t.sessions.Sound) {p : ℕ}
    (hp : Price env.aead buf p) {u : TransportRunner} (hu : u.sessions.Sound)
    {ds : List Network.Delivery} {n : Network}
    (hrun : (Network.machine env.aead).run ⟨t, u, [buf]⟩ ds = some n) :
    ds.length + n.inFlight.length ≤ p + 4 * (t.sessions.secured + u.sessions.secured) ∧
      ∀ buf' ∈ n.inFlight, StatusUnanswered env.aead buf' n.a ∧ StatusUnanswered env.aead buf' n.b := by
  have hcosts : Network.Costs env.aead ⟨t, u, [buf]⟩
      (p + 4 * (t.sessions.secured + u.sessions.secured)) :=
    ⟨ht, hu, p + 0, .cons hp .nil, Nat.le_refl _⟩
  obtain ⟨total', ⟨-, -, m, hm, hle⟩, htotal⟩ := hcosts.run haead hrun
  have hlen := Network.Total.length_le hm
  refine ⟨by omega, fun buf' hbuf' => ?_⟩
  obtain ⟨p', hp'⟩ := Network.Total.price hm hbuf'
  exact ⟨statusUnanswered_of_price hp', statusUnanswered_of_price hp'⟩

theorem exists_writeEvictSomeSessionPacket (ht : t.sessions.Sound) (now : ℕ) (proto : ProtoHdr) :
    ∃ t' more, t.writeEvictSomeSessionPacket now proto = some (t', more) := by
  rw [writeEvictSomeSessionPacket]
  cases hlru : t.sessions.getSessionForEviction now with
  | none => exact ⟨_, _, rfl⟩
  | some id =>
    obtain ⟨⟨exchId, nextExchId⟩, hnext⟩ := KeyedSessions.exists_nextExchId ht.few
      (fun s hs => (ht.sessions s hs).exchanges) t.nextExchId
    obtain ⟨s, hget⟩ := KeyedSessions.get_of_eviction hlru
    obtain ⟨msgCtr, q, hwrite, -⟩ := exists_writePacket s { proto with exchId }.setInitiator
      SCStatusCodes.closeSession.scMeta (SCStatusCodes.closeSession.asReport [])
    have hevict : t.writeEvictSessionPacket id proto =
        some (⟨t.sessions.remove id, nextExchId⟩, q) := by
      rw [writeEvictSessionPacket, hnext, hget]
      dsimp only
      rw [hwrite]
    dsimp only
    rw [hevict]
    exact ⟨_, _, rfl⟩

theorem handleRxPacket_of_decode
    (h : FindsTableFull env peer buf t.sessions hdr)
    (hdecode : t.sessions.decodePacket env peer buf = (ss, .error .noSpaceSessions)) :
    t.handleRxPacket env peer buf =
      match writeUnsecured peer ⟨hdr.plain, hdr.proto.toggleInitiator.setAck (some hdr.plain.ctr)⟩
        SCStatusCodes.busy.scMeta (SCStatusCodes.busy.asReport [0xF4, 0x01]) with
      | .error e => some (⟨ss, t.nextExchId⟩, [], .error e)
      | .ok q => ((⟨ss, t.nextExchId⟩ : TransportRunner).writeEvictSomeSessionPacket env.now
          q.packet.hdr.proto).map fun r => (r.1, q :: r.2, .ok false) := by
  have hhdr := rxPacket_of_unsecured h.read
  have hasks : (!hdr.plain.isEncrypted && (MessageMeta.ofProto hdr.proto).isNewSession) = true := by
    obtain ⟨-, -, -, -, -, hplain, -, -⟩ := h.read
    rw [hplain, h.isNewSession]
    rfl
  rw [handleRxPacket]
  dsimp only
  rw [hhdr, hdecode]
  dsimp only
  refine (if_pos hasks).trans ?_
  generalize writeUnsecured peer _ _ _ = written
  cases written <;> rfl

theorem handleRxPacket_of_full (h : FindsTableFull env peer buf t.sessions hdr)
    (ht : t.sessions.Sound) :
    (hdr.plain.getSrcNodeid.isSome = true → ∃ (t₁ t' : TransportRunner) (q : Outgoing) (more : List Outgoing),
      t.handleRxPacket env peer buf = some (t', q :: more, .ok false) ∧
        q.IsUnsecuredReport .busy [0xF4, 0x01] peer ∧ t₁.sessions.sessions = t.sessions.sessions ∧
        t₁.writeEvictSomeSessionPacket env.now q.packet.hdr.proto = some (t', more)) ∧
      (hdr.plain.getSrcNodeid.isSome = false → ∃ t',
        t.handleRxPacket env peer buf = some (t', [], .error .noSession)) := by
  obtain ⟨ss, hdecode, hsessions⟩ := decode_of_full h
  have hhdr := rxPacket_of_unsecured h.read
  obtain ⟨-, -, -, -, -, hplain, -, -⟩ := h.read
  have hsound : ss.Sound := by
    constructor
    · rw [hsessions]
      exact ht.sessions
    · rw [hsessions]
      exact ht.few
  -- the report is written in the header of the request
  have hwrite : (∃ q, writeUnsecured peer
      ⟨hdr.plain, hdr.proto.toggleInitiator.setAck (some hdr.plain.ctr)⟩ SCStatusCodes.busy.scMeta
      (SCStatusCodes.busy.asReport [0xF4, 0x01]) = .ok q) ↔ hdr.plain.getSrcNodeid.isSome = true :=
    writeUnsecured_ok rfl hplain _ _
  have hhandle := handleRxPacket_of_decode (t := t) h hdecode
  rw [hhandle]
  constructor
  · intro hsrc
    obtain ⟨q, hq⟩ := hwrite.mpr hsrc
    obtain ⟨hpeer, hkey, hpayload, hid, hsec, hkind⟩ := writeUnsecured_eq_ok hq
    obtain ⟨t', more, hevict⟩ := exists_writeEvictSomeSessionPacket (t := ⟨ss, t.nextExchId⟩) hsound
      env.now q.packet.hdr.proto
    refine ⟨⟨ss, t.nextExchId⟩, t', q, more, ?_, ⟨hpeer, ⟨hkey, ?_⟩, ?_, hpayload⟩, hsessions, hevict⟩
    · rw [hq]
      dsimp only
      rw [hevict]
      rfl
    · rw [PlainHdr.isEncrypted, PlainHdr.isGroupSession, hid, hsec]
      rfl
    · rw [Outgoing.isStatus, MessageMeta.isScStatus_iff, hkind]
      rfl
  · intro hsrc
    cases hwritten : writeUnsecured peer
        ⟨hdr.plain, hdr.proto.toggleInitiator.setAck (some hdr.plain.ctr)⟩ SCStatusCodes.busy.scMeta
        (SCStatusCodes.busy.asReport [0xF4, 0x01]) with
    | ok q =>
      rw [hwrite.mp ⟨q, hwritten⟩] at hsrc
      cases hsrc
    | error code =>
      have hcode : code = .noSession := by
        rw [writeUnsecured] at hwritten
        dsimp only at hwritten
        split_ifs at hwritten
        exact (Except.error.inj hwritten).symm
      rw [hcode]
      exact ⟨_, rfl⟩

/-- **Replies without a session.** The transport never tells the peer that it does not know the
session, as that report would have to be acknowledged. A request is turned down if it names its
sender. -/
theorem replies_iff (haead : env.aead.Lawful) {as : List KeyedSessions.Action}
    (hrun : KeyedSessions.machine.run .new as = some t.sessions) :
    Replies env peer buf t ↔ ¬ OfUnknownSession peer buf t.sessions ∧
      ∀ hdr, FindsTableFull env peer buf t.sessions hdr → hdr.plain.getSrcNodeid.isSome = true := by
  have ht := KeyedSessions.sound_of_run hrun
  constructor
  · intro h
    refine ⟨fun hunknown => ?_, fun hdr hfull => ?_⟩
    · obtain ⟨t', q, r, hhandle, -⟩ := h.notFound hunknown
      have hres : (t.sessions.decodePacket env peer buf).2 = .error .noSession := by
        rw [decode_of_unknown hunknown]
      rw [sent_of_noSession hres] at hhandle
      cases hhandle
    · obtain ⟨t₁, t', q, more, r, hhandle, -⟩ := h.busy hdr hfull
      by_contra hsrc
      obtain ⟨t'', hnone⟩ := (handleRxPacket_of_full hfull ht).2 (Bool.eq_false_iff.mpr hsrc)
      rw [hnone] at hhandle
      cases hhandle
  · rintro ⟨hknown, hsrc⟩
    refine ⟨fun hunknown => absurd hunknown hknown, fun hdr hfull => ?_, ?_⟩
    · obtain ⟨t₁, t', q, more, hhandle, hq, hsame, hevict⟩ :=
        (handleRxPacket_of_full hfull ht).1 (hsrc hdr hfull)
      exact ⟨t₁, t', q, more, _, hhandle, hq, hsame, hevict⟩
    · intro hkind u bs ds n hu hdeliver
      have hp : Price env.aead buf 6 := by
        rcases hkind with hunknown | ⟨hdr, hfull⟩
        · exact price_of_unknown hunknown
        · exact price_of_full hfull
      exact finite_of_price haead ht hp (KeyedSessions.sound_of_run hu) hdeliver

namespace Sample

def tag (key : List UInt8) : List UInt8 := (key ++ List.replicate aeadTagLen 0).take aeadTagLen

theorem length_tag (key : List UInt8) : (tag key).length = aeadTagLen := by
  simp [tag]

def aead : Aead where
  encrypt key _ _ text := text ++ tag key
  decrypt key _ _ data :=
    if data.drop (data.length - aeadTagLen) = tag key then .ok (data.take (data.length - aeadTagLen))
    else .error .invalidData
  encrypt_of_decrypt {key iv aad data text} h := by
    split at h
    · next hkey =>
      cases h
      rw [← hkey, List.take_append_drop]
    · cases h

theorem lawful_aead : aead.Lawful where
  authentic {key iv aad text key' iv' aad' text'} h := by
    simp only [aead] at h
    split at h
    · cases h
      rw [List.length_append, length_tag, Nat.add_sub_cancel, List.take_left]
    · cases h
  tag key iv aad text := by
    simp only [aead]
    rw [List.length_append, length_tag]
  failure {key iv aad data code} h := by
    simp only [aead] at h
    split at h
    · cases h
    · cases h
      exact .inr rfl

def rxEnv : RxEnv := { KeyedSessions.Sample.env with aead }

/-- An encrypted packet of a session that is not there. -/
def strange : List UInt8 :=
  KeyedSessions.Sample.unicast ++ (KeyedSessions.Sample.request 1 ++ tag KeyedSessions.Sample.groupKey)

/-- A `PBKDFParamRequest` from a node that gives its id. -/
def signed : List UInt8 :=
  [0x04, 0x00, 0x00, 0x00, 1, 0, 0, 0, 7, 0, 0, 0, 0, 0, 0, 0, 0x05, 0x20, 1, 0, 0, 0]

def anonymous : List UInt8 := [0x00, 0x00, 0x00, 0x00, 1, 0, 0, 0, 0x05, 0x20, 1, 0, 0, 0]

def other : Address := .udp ⟨.v4 2, 5540⟩

/-- The node starts handshakes until there is no room for another one. -/
def handshakes : List KeyedSessions.Action :=
  List.replicate maxSessions (.createUnsecured 1 other 5 0)

def full : TransportRunner := ⟨(KeyedSessions.machine.run .new handshakes).getD .new, 1⟩

end Sample

theorem findsTableFull_of_header {pb : ParseBuf} {plain : PlainHdr}
    (hdecode : PlainHdr.new.decode ⟨[], buf⟩ = .ok (plain, pb))
    (h : FindsTableFull env peer buf t.sessions hdr) : hdr.plain = plain := by
  obtain ⟨pb', proto, pb'', hdecode', -⟩ := h.read
  rw [hdecode] at hdecode'
  cases hdecode'
  rfl

theorem run_handshakes : KeyedSessions.machine.run .new Sample.handshakes = some Sample.full.sessions := by
  decide +kernel

theorem findsTableFull_anonymous : FindsTableFull Sample.rxEnv KeyedSessions.Sample.peer
    Sample.anonymous Sample.full.sessions ⟨⟨0, 0, 0, 1, 0, 0⟩, ⟨1, 0x05, 0, 0x20, 0, 0⟩⟩ where
  read := ⟨⟨Sample.anonymous.take 8, Sample.anonymous.drop 8⟩, ⟨1, 0x05, 0, 0x20, 0, 0⟩,
    ⟨Sample.anonymous, []⟩, rfl, by decide +kernel, rfl, rfl, rfl⟩
  isNewSession := rfl
  rand := ⟨_, rfl⟩
  full := by decide +kernel

theorem findsTableFull_signed : FindsTableFull Sample.rxEnv KeyedSessions.Sample.peer
    Sample.signed Sample.full.sessions ⟨⟨4, 0, 0, 1, 7, 0⟩, ⟨1, 0x05, 0, 0x20, 0, 0⟩⟩ where
  read := ⟨⟨Sample.signed.take 16, Sample.signed.drop 16⟩, ⟨1, 0x05, 0, 0x20, 0, 0⟩,
    ⟨Sample.signed, []⟩, rfl, by decide +kernel, rfl, rfl, rfl⟩
  isNewSession := rfl
  rand := ⟨_, rfl⟩
  full := by decide +kernel

/-- Neither a packet of an unknown session nor a request without a sender is answered. -/
theorem replies_missing : Sample.aead.Lawful ∧
    KeyedSessions.machine.run .new Sample.handshakes = some Sample.full.sessions ∧
    (¬ Replies Sample.rxEnv KeyedSessions.Sample.peer Sample.strange Sample.full ∧
      (Sample.full.handleRxPacket Sample.rxEnv KeyedSessions.Sample.peer Sample.strange).map
        (fun r => r.2.1) = some []) ∧
    ¬ Replies Sample.rxEnv KeyedSessions.Sample.peer Sample.anonymous Sample.full ∧
      (Sample.full.handleRxPacket Sample.rxEnv KeyedSessions.Sample.peer Sample.anonymous).map
        (fun r => r.2.1) = some [] := by
  have hunknown : OfUnknownSession KeyedSessions.Sample.peer Sample.strange Sample.full.sessions :=
    ⟨⟨0, 0x1234, 0, 2, 0, 0⟩, ⟨Sample.strange.take 8, Sample.strange.drop 8⟩, rfl,
      by decide +kernel, rfl, rfl⟩
  have hstrange : (Sample.full.handleRxPacket Sample.rxEnv KeyedSessions.Sample.peer
      Sample.strange).map (fun r => r.2.1) = some [] := by decide +kernel
  have hanonymous : (Sample.full.handleRxPacket Sample.rxEnv KeyedSessions.Sample.peer
      Sample.anonymous).map (fun r => r.2.1) = some [] := by decide +kernel
  refine ⟨Sample.lawful_aead, run_handshakes, ⟨fun h => ?_, hstrange⟩, fun h => ?_, hanonymous⟩
  · obtain ⟨t', q, r, hhandle, -⟩ := h.notFound hunknown
    rw [hhandle] at hstrange
    cases hstrange
  · obtain ⟨t₁, t', q, more, r, hhandle, -⟩ := h.busy _ findsTableFull_anonymous
    rw [hhandle] at hanonymous
    cases hanonymous

theorem replies_signed : (∃ hdr,
      FindsTableFull Sample.rxEnv KeyedSessions.Sample.peer Sample.signed Sample.full.sessions hdr) ∧
    Replies Sample.rxEnv KeyedSessions.Sample.peer Sample.signed Sample.full := by
  have hdecode : PlainHdr.new.decode ⟨[], Sample.signed⟩ =
      .ok (⟨4, 0, 0, 1, 7, 0⟩, ⟨Sample.signed.take 16, Sample.signed.drop 16⟩) := rfl
  refine ⟨⟨_, findsTableFull_signed⟩, (replies_iff Sample.lawful_aead run_handshakes).mpr ⟨?_, ?_⟩⟩
  · rintro ⟨plain, pb, hdecode', -, henc, -⟩
    rw [hdecode] at hdecode'
    cases hdecode'
    cases henc
  · intro hdr hfull
    rw [findsTableFull_of_header hdecode hfull]
    rfl

end TransportRunner

end RsMatter
