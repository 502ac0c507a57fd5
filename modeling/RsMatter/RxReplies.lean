import RsMatter.Exchanges
import RsMatter.StatusReports

/-!
# What the transport answers on its own (`transport.rs`, `sc.rs`)

A packet that cannot be given to an exchange is answered by the transport itself, or dropped: a
duplicate with an acknowledgement, a request for a session that there is no room for with a `Busy`
report, a request for an exchange that there is no room for by closing the session, and a packet
of a session that is not there with a `SessionNotFound` report.

The last one and `Busy` are written without a session, in the header of the packet that has come
in. That takes a header that names its sender and a report that needs no acknowledgement, and
`SessionNotFound` is one that does (`TransportRunner.sent_of_noSession`).
-/

namespace RsMatter

/-! ## What kind of message a header is for -/

namespace ProtoHdr

def kind (h : ProtoHdr) : BitVec 16 × BitVec 8 := (h.protoId, h.protoOpcode)

variable (h : ProtoHdr)

@[simp] theorem kind_setAck (ctr : Option (BitVec 32)) : (h.setAck ctr).kind = h.kind := by
  cases ctr <;> rfl

@[simp] theorem kind_adjustReliability (addr : Address) : (h.adjustReliability addr).kind = h.kind := by
  rw [adjustReliability]
  split
  · exact kind_setAck _ _
  · rfl

@[simp] theorem kind_setInto (mm : MessageMeta) : (mm.setInto h).kind = (mm.protoId, mm.protoOpcode) := by
  rw [MessageMeta.setInto]
  cases mm.reliable <;> rfl

end ProtoHdr

namespace MessageMeta

variable {h h' : ProtoHdr}

theorem isStandaloneAck_congr (hk : h'.kind = h.kind) :
    (ofProto h').isStandaloneAck = (ofProto h).isStandaloneAck := by
  obtain ⟨hid, hop⟩ := Prod.mk.inj hk
  simp only [isStandaloneAck, ofProto, hid, hop]

theorem isScStatus_congr (hk : h'.kind = h.kind) :
    (ofProto h').isScStatus = (ofProto h).isScStatus := by
  obtain ⟨hid, hop⟩ := Prod.mk.inj hk
  simp only [isScStatus, ofProto, hid, hop]

theorem isStandaloneAck_iff : (ofProto h).isStandaloneAck = true ↔
    h.kind = (protoIdSecureChannel, OpCode.mrpStandAloneAck) := by
  simp [isStandaloneAck, ofProto, ProtoHdr.kind]

theorem isScStatus_iff : (ofProto h).isScStatus = true ↔
    h.kind = (protoIdSecureChannel, OpCode.statusReport) := by
  simp [isScStatus, ofProto, ProtoHdr.kind]

theorem isNewExchange_of_isNewSession (hnew : (ofProto h).isNewSession = true) :
    (ofProto h).isNewExchange = true := by
  simp only [isNewSession, ofProto, Bool.and_eq_true, Bool.or_eq_true, beq_iff_eq] at hnew
  simp only [isNewExchange, isStandaloneAck, isScStatus, ofProto]
  rcases hnew.2 with hop | hop
  · rw [hop]
    simp [OpCode.mrpStandAloneAck, OpCode.statusReport]
  · rw [hop]
    simp [OpCode.mrpStandAloneAck, OpCode.statusReport]

end MessageMeta

/-! ## Writing packets -/

structure Outgoing where
  peer : Address
  packet : TxPacket
  encKey : Option (List UInt8)
  /-- the node id that goes into the nonce -/
  localNodeid : BitVec 64
  deriving DecidableEq

namespace Outgoing

def bytes (aead : Aead) (q : Outgoing) : List UInt8 :=
  q.packet.hdr.plain.encode ++
    match q.encKey with
    | some key => aead.encrypt key (q.packet.nonce q.localNodeid) q.packet.aad q.packet.plaintext
    | none => q.packet.plaintext

def isAck (q : Outgoing) : Bool := (MessageMeta.ofProto q.packet.hdr.proto).isStandaloneAck

def isStatus (q : Outgoing) : Bool := (MessageMeta.ofProto q.packet.hdr.proto).isScStatus

structure IsUnsecuredReport (q : Outgoing) (status : SCStatusCodes) (payload : List UInt8)
    (peer : Address) : Prop where
  peer : q.peer = peer
  unsecured : q.encKey = none ∧ q.packet.hdr.plain.isEncrypted = false
  isStatus : q.isStatus = true
  report : q.packet.payload = status.asReport payload

end Outgoing

namespace KeyedSession

def getEncKey (s : KeyedSession) : Option (List UInt8) :=
  match s.mode with
  | .case .. => some s.encKey
  | .pase .. => some s.encKey
  | .group .. => some s.encKey
  | .plainText => none

/-- `write_packet` with a session, outside of an exchange. -/
def writePacket (s : KeyedSession) (proto : ProtoHdr) (mm : MessageMeta) (payload : List UInt8) :
    Option (KeyedSession × Outgoing) :=
  match s.toSession.writePacket none proto mm payload none with
  | some (session, packet, _) =>
    some ({ s with toSession := session }, ⟨s.peerAddr, packet, s.getEncKey, s.localNodeid⟩)
  | none => none

end KeyedSession

/-- `write_packet` without a session, in the header of a packet that has come in. -/
def writeUnsecured (peer : Address) (hdr : PacketHdr) (mm : MessageMeta) (payload : List UInt8) :
    Except ErrorCode Outgoing :=
  let proto := mm.setInto hdr.proto
  if hdr.plain.isEncrypted || hdr.plain.getSrcNodeid.isNone || proto.isReliable then
    .error .noSession
  else
    let plain := ({ PlainHdr.new with sessId := 0, ctr := 1 }.setSrcNodeid none).setDstUnicastNodeid
      hdr.plain.getSrcNodeid
    .ok ⟨peer, ⟨⟨plain, proto.unsetInitiator.adjustReliability peer⟩, payload⟩, none, 0⟩

/-! ## Received packets -/

/-- The headers and the payload of a received packet, as far as they can be read. A group message
opens an exchange if it is taken at all; its payload is left out, as nothing of what follows
looks at it. -/
def KeyedSessions.rxPacket (env : RxEnv) (peer : Address) (buf : List UInt8) (ss : KeyedSessions) :
    PacketHdr × List UInt8 :=
  match PlainHdr.new.decode ⟨[], buf⟩ with
  | .error _ => (.reset, [])
  | .ok (plain, pb) =>
    let rx : PacketHdr := { PacketHdr.reset with plain }
    match ss.getForRx peer plain with
    | some s =>
      match rx.proto.decryptAndDecode env.aead s.getDecKey (s.peerNodeid.getD 0) plain pb with
      | .ok (proto, pb) => ({ rx with proto := proto.adjustReliability s.peerAddr }, pb.left)
      | .error _ => (rx, [])
    | none =>
      if !plain.isEncrypted then
        match rx.proto.decryptAndDecode env.aead none 0 plain pb with
        | .ok (proto, pb) => ({ rx with proto := proto.adjustReliability peer }, pb.left)
        | .error _ => (rx, [])
      else if plain.isGroupSession then
        match plain.getSrcNodeid, plain.getDstGroupcastNodeid with
        | some srcNodeid, some groupId =>
          match KeyedSessions.findGroupKey env groupId srcNodeid peer rx pb with
          | some (_, rx) => (rx, [])
          | none => (rx, [])
        | _, _ => (rx, [])
      else (rx, [])

/-- The part of the transport that receives packets. -/
structure TransportRunner where
  sessions : KeyedSessions
  /-- the id of the next exchange that we initiate -/
  nextExchId : BitVec 16
  deriving DecidableEq

namespace TransportRunner

/-- Close a session; the report about it goes to its peer, on an exchange of its own. `none` is a
panic, or the search for an exchange id that does not end. -/
def writeEvictSessionPacket (id : BitVec 32) (proto : ProtoHdr) (t : TransportRunner) :
    Option (TransportRunner × Outgoing) :=
  match nextExchIdLoop t.sessions.remoteHas 0xffff t.nextExchId, t.sessions.get id with
  | some (exchId, nextExchId), some s =>
    match s.writePacket { proto with exchId }.setInitiator SCStatusCodes.closeSession.scMeta
        (SCStatusCodes.closeSession.asReport []) with
    | some (_, q) => some (⟨t.sessions.remove id, nextExchId⟩, q)
    | none => none
  | _, _ => none

/-- Close a session that nobody uses, if there is one. -/
def writeEvictSomeSessionPacket (now : ℕ) (proto : ProtoHdr) (t : TransportRunner) :
    Option (TransportRunner × List Outgoing) :=
  match t.sessions.getSessionForEviction now with
  | some id => (t.writeEvictSessionPacket id proto).map fun r => (r.1, [r.2])
  | none => some (t, [])

def writeAck (now : ℕ) (peer : Address) (hdr : PacketHdr) (t : TransportRunner) :
    Option (TransportRunner × Outgoing) :=
  let proto := hdr.proto.toggleInitiator.setAck (some hdr.plain.ctr)
  match withFirst (fun s => !s.expired && s.isForRx peer hdr.plain)
      (fun s =>
        let s := s.updateLastUsed now
        match s.writePacket proto .standaloneAck [] with
        | some (s, q) => (s, some q)
        | none => (s, none)) t.sessions.sessions with
  | some (sessions, some q) => some ({ t with sessions.sessions := sessions }, q)
  | _ => none

/-- Receive a packet: what is sent at once, and whether the packet is left for an exchange. `none`
is a panic. -/
def handleRxPacket (env : RxEnv) (peer : Address) (buf : List UInt8) (t : TransportRunner) :
    Option (TransportRunner × List Outgoing × Except ErrorCode Bool) :=
  let (hdr, payload) := t.sessions.rxPacket env peer buf
  let (sessions, result) := t.sessions.decodePacket env peer buf
  let t := { t with sessions }
  let mm := MessageMeta.ofProto hdr.proto
  match result with
  | .error .duplicate =>
    if !hdr.plain.isGroupSession && !peer.isReliable && !mm.isStandaloneAck then
      (t.writeAck env.now peer hdr).map fun r => (r.1, [r.2], .ok false)
    else some (t, [], .ok false)
  | .error .noSpaceSessions =>
    if !hdr.plain.isEncrypted && mm.isNewSession then
      let hdr := { hdr with proto := hdr.proto.toggleInitiator.setAck (some hdr.plain.ctr) }
      match writeUnsecured peer hdr SCStatusCodes.busy.scMeta
          (SCStatusCodes.busy.asReport [0xF4, 0x01]) with
      | .error e => some (t, [], .error e)
      | .ok q =>
        (t.writeEvictSomeSessionPacket env.now q.packet.hdr.proto).map fun r =>
          (r.1, q :: r.2, .ok false)
    else some (t, [], .ok false)
  | .error .noSpaceExchanges =>
    (t.sessions.getForRx peer hdr.plain).bind fun s =>
      (t.writeEvictSessionPacket s.id hdr.proto).map fun r => (r.1, [r.2], .ok false)
  | .error .noSession =>
    let hdr : PacketHdr :=
      ⟨{ hdr.plain with sessId := 0 }.setSrcNodeid (some 0), hdr.proto.unsetReliable.setAck none⟩
    match writeUnsecured peer hdr SCStatusCodes.sessionNotFound.scMeta
        (SCStatusCodes.sessionNotFound.asReport []) with
    | .error e => some (t, [], .error e)
    | .ok q => some (t, [q], .ok false)
  | .error _ => some (t, [], .ok false)
  | .ok _ =>
    if mm.isStandaloneAck then some (t, [], .ok false)
    else if mm.isScStatus && isCloseSession payload then
      match t.sessions.getForRx peer hdr.plain with
      | some s => some ({ t with sessions := t.sessions.remove s.id }, [], .ok false)
      | none => some (t, [], .ok false)
    else some (t, [], .ok true)

variable {env : RxEnv} {peer : Address} {buf : List UInt8} {t t' : TransportRunner}
  {sent : List Outgoing} {r : Except ErrorCode Bool} {q : Outgoing}

/-! ## Packets of sessions that are not there -/

/-- A `SessionNotFound` report needs an acknowledgement, so it is not written without a session. -/
theorem writeUnsecured_sessionNotFound (peer : Address) (hdr : PacketHdr) (payload : List UInt8) :
    writeUnsecured peer hdr SCStatusCodes.sessionNotFound.scMeta payload = .error .noSession := by
  rw [writeUnsecured]
  dsimp only
  rw [MessageMeta.isReliable_setInto, show SCStatusCodes.sessionNotFound.scMeta.reliable = true from rfl,
    Bool.or_true, if_pos rfl]

/-- An encrypted packet that is not a group message, and no session is there for it. -/
def OfUnknownSession (peer : Address) (buf : List UInt8) (ss : KeyedSessions) : Prop :=
  ∃ plain pb, PlainHdr.new.decode ⟨[], buf⟩ = .ok (plain, pb) ∧ ss.getForRx peer plain = none ∧
    plain.isEncrypted = true ∧ plain.isGroupSession = false

variable {ss : KeyedSessions}

theorem decodeForSession_of_getForRx (rx : PacketHdr) (pb : ParseBuf)
    (h : ss.getForRx peer rx.plain = none) : ss.decodeForSession env peer rx pb = none := by
  have hresult := KeyedSessions.result_decodeForSession ss env peer rx pb
  rwa [h, Option.map_none, Option.map_eq_none_iff] at hresult

theorem decode_of_unknown (h : OfUnknownSession peer buf ss) :
    ss.decodePacket env peer buf = (ss, .error .noSession) := by
  obtain ⟨plain, pb, hdecode, hget, henc, hgroup⟩ := h
  rw [KeyedSessions.decodePacket, hdecode]
  dsimp only
  rw [decodeForSession_of_getForRx { PacketHdr.reset with plain } pb hget, henc, hgroup]
  rfl

/-- **No answer.** -/
theorem sent_of_noSession (h : (t.sessions.decodePacket env peer buf).2 = .error .noSession) :
    t.handleRxPacket env peer buf =
      some ({ t with sessions := (t.sessions.decodePacket env peer buf).1 }, [], .error .noSession) := by
  rw [handleRxPacket]
  dsimp only
  rw [h]
  dsimp only
  rw [writeUnsecured_sessionNotFound]

/-! ## Requests that there is no room for -/

variable {plain : PlainHdr}

/-- A report that needs no acknowledgement is written for an unsecured packet that names its
sender. -/
theorem writeUnsecured_ok {mm : MessageMeta} (hmm : mm.reliable = false)
    (hplain : plain.isEncrypted = false) (proto : ProtoHdr) (payload : List UInt8) :
    (∃ q, writeUnsecured peer ⟨plain, proto⟩ mm payload = .ok q) ↔ plain.getSrcNodeid.isSome = true := by
  rw [writeUnsecured]
  dsimp only
  rw [MessageMeta.isReliable_setInto, hmm, hplain, Bool.false_or, Bool.or_false]
  cases plain.getSrcNodeid with
  | none => exact ⟨nofun, nofun⟩
  | some id => exact ⟨fun _ => rfl, fun _ => ⟨_, rfl⟩⟩

/-- The headers of an unsecured packet that no session is there for. -/
def UnsecuredHdr (env : RxEnv) (peer : Address) (buf : List UInt8) (ss : KeyedSessions)
    (hdr : PacketHdr) : Prop :=
  ∃ pb proto pb', PlainHdr.new.decode ⟨[], buf⟩ = .ok (hdr.plain, pb) ∧
    ss.getForRx peer hdr.plain = none ∧ hdr.plain.isEncrypted = false ∧
    PacketHdr.reset.proto.decryptAndDecode env.aead none 0 hdr.plain pb = .ok (proto, pb') ∧
    hdr.proto = proto.adjustReliability peer

/-- A `PBKDFParamRequest` or a `Sigma1` that there is no room for, with its headers. -/
structure FindsTableFull (env : RxEnv) (peer : Address) (buf : List UInt8) (ss : KeyedSessions)
    (hdr : PacketHdr) : Prop where
  read : UnsecuredHdr env peer buf ss hdr
  isNewSession : (MessageMeta.ofProto hdr.proto).isNewSession = true
  rand : ∃ rand, env.rand = .ok rand
  full : maxSessions ≤ ss.sessions.length

theorem rxPacket_of_unsecured {hdr : PacketHdr}
    (h : UnsecuredHdr env peer buf ss hdr) : (ss.rxPacket env peer buf).1 = hdr := by
  obtain ⟨pb, proto, pb', hdecode, hget, henc, hproto, hhdr⟩ := h
  rw [KeyedSessions.rxPacket, hdecode]
  dsimp only
  rw [hget, henc]
  dsimp only
  rw [hproto]
  dsimp only
  rw [← hhdr]
  rfl

theorem decode_of_full {hdr : PacketHdr} (h : FindsTableFull env peer buf ss hdr) :
    ∃ ss', ss.decodePacket env peer buf = (ss', .error .noSpaceSessions) ∧
      ss'.sessions = ss.sessions := by
  obtain ⟨⟨pb, proto, pb', hdecode, hget, henc, hproto, hhdr⟩, hnew, ⟨rand, hrand⟩, hfull⟩ := h
  obtain ⟨ss', result, hadd, -, ⟨-, hroom, -⟩ | ⟨-, -, hsessions⟩⟩ :=
    KeyedSessions.add_cases rand.1 false peer hdr.plain.getSrcNodeid env.now ss
  · exact absurd hroom (Nat.not_lt.mpr hfull)
  · refine ⟨ss', ?_, hsessions⟩
    have hcode : result = .error .noSpaceSessions := by
      rw [KeyedSessions.add] at hadd
      dsimp only at hadd
      rw [if_neg (Nat.not_lt.mpr hfull)] at hadd
      exact (Prod.mk.inj hadd).2.symm
    rw [hhdr] at hnew
    rw [KeyedSessions.decodePacket, hdecode]
    dsimp only
    rw [decodeForSession_of_getForRx { PacketHdr.reset with plain := hdr.plain } pb hget, henc]
    dsimp only
    rw [hproto]
    dsimp only
    rw [if_pos hnew, hrand]
    dsimp only
    rw [hadd, hcode]
    rfl

/-! ## Packets on a session -/

/-- What is sent on a session, outside of an exchange. -/
structure SentOn (s : KeyedSession) (q : Outgoing) (mm : MessageMeta) (payload : List UInt8) : Prop where
  peer : q.peer = s.peerAddr
  sessId : q.packet.hdr.plain.sessId = s.peerSessId
  secFlags : q.packet.hdr.plain.secFlags = 0
  encKey : q.encKey = s.getEncKey
  kind : q.packet.hdr.proto.kind = (mm.protoId, mm.protoOpcode)
  payload : q.packet.payload = payload

theorem exists_writePacket (s : KeyedSession) (proto : ProtoHdr) (mm : MessageMeta)
    (payload : List UInt8) : ∃ msgCtr q, s.writePacket proto mm payload = some ({ s with msgCtr }, q) ∧
      SentOn s q mm payload := by
  refine ⟨_, _, rfl, rfl, ?_, ?_, rfl, ?_, rfl⟩
  · show (Session.txPlain _ _ _).sessId = s.peerSessId
    rw [Session.txPlain]
    split_ifs <;> cases s.peerNodeid <;> rfl
  · show (Session.txPlain _ _ _).secFlags = 0
    rw [Session.txPlain]
    split_ifs <;> cases s.peerNodeid <;> rfl
  · show ((mm.setInto proto).adjustReliability _).kind = _
    rw [ProtoHdr.kind_adjustReliability, ProtoHdr.kind_setInto]

theorem writeAck_cases {now : ℕ} {hdr : PacketHdr} (h : t.writeAck now peer hdr = some (t', q)) :
    ∃ a s c msgCtr, t.sessions.sessions = a ++ s :: c ∧ s.isForRx peer hdr.plain = true ∧
      SentOn s q .standaloneAck [] ∧ t'.sessions.sessions = a ++ { s with msgCtr, lastUse := now } :: c := by
  rw [writeAck] at h
  dsimp only at h
  split at h
  · next sessions q' hfirst =>
    obtain ⟨rfl, rfl⟩ := Prod.mk.inj (Option.some_inj.mp h)
    obtain ⟨a, s, c, hold, hfor, rfl, hq⟩ := withFirst_eq_some hfirst
    obtain ⟨msgCtr, q, hwrite, hsent⟩ := exists_writePacket (s.updateLastUsed now)
      (hdr.proto.toggleInitiator.setAck (some hdr.plain.ctr)) .standaloneAck []
    rw [hwrite] at hq
    cases hq
    refine ⟨a, s, c, msgCtr, hold, (Bool.and_eq_true_iff.mp hfor).2, ⟨hsent.peer, hsent.sessId,
      hsent.secFlags, hsent.encKey, hsent.kind, hsent.payload⟩, ?_⟩
    dsimp only
    rw [hwrite]
    rfl
  · cases h

theorem writeEvictSessionPacket_cases {id : BitVec 32} {proto : ProtoHdr}
    (h : t.writeEvictSessionPacket id proto = some (t', q)) :
    ∃ s, t.sessions.get id = some s ∧ t'.sessions = t.sessions.remove id ∧
      SentOn s q SCStatusCodes.closeSession.scMeta (SCStatusCodes.closeSession.asReport []) := by
  rw [writeEvictSessionPacket] at h
  split at h
  · next exchId nextExchId s hnext hget =>
    obtain ⟨msgCtr, q', hwrite, hsent⟩ := exists_writePacket s { proto with exchId }.setInitiator
      SCStatusCodes.closeSession.scMeta (SCStatusCodes.closeSession.asReport [])
    rw [hwrite] at h
    cases h
    exact ⟨s, hget, rfl, hsent⟩
  · cases h

/-! ## Reports are not answered with reports -/

theorem postRecv_error {e : ExchangeState} {proto : ProtoHdr} {now : ℕ}
    {code : ErrorCode} (h : e.postRecv plain proto now = .error code) : code = .duplicate := by
  rw [ExchangeState.postRecv] at h
  split at h
  · cases h
  · next hmrp =>
    cases h
    rw [ReliableMessage.postRecv] at hmrp
    split at hmrp
    · split_ifs at hmrp
      cases hmrp
      rfl
    · cases hmrp

theorem isNewExchange_of_postRecv {s : KeyedSession} {rx : PacketHdr} {now : ℕ}
    (h : (s.postRecv rx now).2 = .error .noSpaceExchanges) :
    (MessageMeta.ofProto rx.proto).isNewExchange = true := by
  rw [KeyedSession.postRecv] at h
  dsimp only at h
  rw [Session.postRecv] at h
  dsimp only at h
  split at h
  · cases h
  · split at h
    · split at h
      · next e he =>
        cases hpost : e.postRecv rx.plain rx.proto now with
        | ok e' =>
          rw [hpost] at h
          cases h
        | error code =>
          rw [hpost, postRecv_error hpost] at h
          cases h
      · cases h
    · split at h
      · cases h
      · next hnot =>
        simp only [Bool.or_eq_true, Bool.not_eq_true', not_or, Bool.not_eq_false] at hnot
        exact hnot.2

/-- A header that has not been read asks for nothing in particular. -/
theorem isNewExchange_reset : (MessageMeta.ofProto PacketHdr.reset.proto).isNewExchange = true := by decide

theorem rxPacket_of_session (env : RxEnv) {pb : ParseBuf}
    {s : KeyedSession} (hdecode : PlainHdr.new.decode ⟨[], buf⟩ = .ok (plain, pb))
    (hget : ss.getForRx peer plain = some s) :
    (∃ rx, s.decodeRemaining env.aead { PacketHdr.reset with plain } pb = .ok rx ∧
        (ss.rxPacket env peer buf).1 = rx ∧
        (ss.decodePacket env peer buf).2 = (s.postRecv rx env.now).2) ∨
      ∃ code, s.decodeRemaining env.aead { PacketHdr.reset with plain } pb = .error code ∧
        (ss.rxPacket env peer buf).1 = { PacketHdr.reset with plain } ∧
        (ss.decodePacket env peer buf).2 = .error code := by
  have hresult := KeyedSessions.result_decodeForSession ss env peer { PacketHdr.reset with plain } pb
  rw [show ss.getForRx peer ({ PacketHdr.reset with plain } : PacketHdr).plain = some s from hget,
    Option.map_some] at hresult
  obtain ⟨⟨ss₁, result⟩, hsession, hsnd⟩ := Option.map_eq_some_iff.mp hresult
  rw [KeyedSessions.rxPacket, KeyedSessions.decodePacket, hdecode]
  dsimp only at hsnd ⊢
  rw [hget, hsession]
  dsimp only
  rw [hsnd, KeyedSession.decodeRemaining]
  dsimp only
  cases hdec : PacketHdr.reset.proto.decryptAndDecode env.aead s.getDecKey (s.peerNodeid.getD 0)
      plain pb with
  | error code => exact .inr ⟨code, rfl, rfl, rfl⟩
  | ok decoded => exact .inl ⟨_, rfl, rfl, rfl⟩

theorem plain_rxPacket {pb : ParseBuf}
    (hdecode : PlainHdr.new.decode ⟨[], buf⟩ = .ok (plain, pb)) :
    (ss.rxPacket env peer buf).1.plain = plain := by
  rw [KeyedSessions.rxPacket, hdecode]
  dsimp only
  split
  · split <;> rfl
  · split
    · split <;> rfl
    · split
      · split
        · split
          · next hfind =>
            obtain ⟨fabric, -, hfind⟩ := List.exists_of_findSome?_eq_some hfind
            obtain ⟨key, -, hfind⟩ := List.exists_of_findSome?_eq_some hfind
            split at hfind
            · cases hfind
              rfl
            · cases hfind
          · rfl
        · rfl
      · rfl

theorem isNewExchange_of_noSpaceExchanges
    (hgroup : (ss.rxPacket env peer buf).1.plain.isGroupSession = false)
    (h : (ss.decodePacket env peer buf).2 = .error .noSpaceExchanges) :
    (MessageMeta.ofProto (ss.rxPacket env peer buf).1.proto).isNewExchange = true := by
  cases hdecode : PlainHdr.new.decode ⟨[], buf⟩ with
  | error code =>
    rw [KeyedSessions.rxPacket, hdecode]
    exact isNewExchange_reset
  | ok decoded =>
    obtain ⟨plain, pb⟩ := decoded
    rw [plain_rxPacket hdecode] at hgroup
    cases hget : ss.getForRx peer plain with
    | some s =>
      rcases rxPacket_of_session env hdecode hget with ⟨rx, -, hrx, hres⟩ | ⟨code, -, hrx, -⟩
      · rw [hrx]
        exact isNewExchange_of_postRecv (hres.symm.trans h)
      · rw [hrx]
        exact isNewExchange_reset
    | none =>
      rw [KeyedSessions.rxPacket, hdecode]
      rw [KeyedSessions.decodePacket, hdecode] at h
      dsimp only at h ⊢
      rw [hget, hgroup]
      rw [decodeForSession_of_getForRx { PacketHdr.reset with plain } pb hget, hgroup] at h
      dsimp only at h ⊢
      by_cases henc : (!plain.isEncrypted) = true
      · rw [if_pos henc] at h ⊢
        cases hproto : PacketHdr.reset.proto.decryptAndDecode env.aead none 0 plain pb with
        | error code => exact isNewExchange_reset
        | ok decoded =>
          rw [hproto] at h
          dsimp only at h ⊢
          split at h
          · next hnew => exact MessageMeta.isNewExchange_of_isNewSession hnew
          · cases h
      · rw [if_neg henc]
        exact isNewExchange_reset

/-! ## What is sent -/

inductive Handled (env : RxEnv) (peer : Address) (buf : List UInt8) (t t' : TransportRunner)
    (sent : List Outgoing) : Prop where
  /-- nothing is sent; a session may be closed -/
  | silent (hsent : sent = [])
    (hsub : t'.sessions.sessions.Subperm (t.sessions.decodePacket env peer buf).1.sessions)
  | acked (q : Outgoing) (hsent : sent = [q])
    (hres : (t.sessions.decodePacket env peer buf).2 = .error .duplicate)
    (hack : (MessageMeta.ofProto (t.sessions.rxPacket env peer buf).1.proto).isStandaloneAck = false)
    (hwrite : { t with sessions := (t.sessions.decodePacket env peer buf).1 }.writeAck env.now peer
      (t.sessions.rxPacket env peer buf).1 = some (t', q))
  /-- a request for a session is turned down, and a session is closed, if one can be -/
  | busy (q : Outgoing) (more : List Outgoing) (hdr : PacketHdr) (hsent : sent = q :: more)
    (hres : (t.sessions.decodePacket env peer buf).2 = .error .noSpaceSessions)
    (hnew : (MessageMeta.ofProto (t.sessions.rxPacket env peer buf).1.proto).isNewSession = true)
    (hwrite : writeUnsecured peer hdr SCStatusCodes.busy.scMeta
      (SCStatusCodes.busy.asReport [0xF4, 0x01]) = .ok q)
    (hevict : { t with sessions := (t.sessions.decodePacket env peer buf).1 }.writeEvictSomeSessionPacket
      env.now q.packet.hdr.proto = some (t', more))
  /-- the session is closed for want of an exchange -/
  | closed (q : Outgoing) (s : KeyedSession) (proto : ProtoHdr) (hsent : sent = [q])
    (hres : (t.sessions.decodePacket env peer buf).2 = .error .noSpaceExchanges)
    (hget : (t.sessions.decodePacket env peer buf).1.getForRx peer
      (t.sessions.rxPacket env peer buf).1.plain = some s)
    (hwrite : { t with sessions := (t.sessions.decodePacket env peer buf).1 }.writeEvictSessionPacket
      s.id proto = some (t', q))

/-- **Receiving a packet**, case by case. -/
theorem handled_of_handleRxPacket (h : t.handleRxPacket env peer buf = some (t', sent, r)) :
    Handled env peer buf t t' sent := by
  rw [handleRxPacket] at h
  dsimp only at h
  split at h
  · next hres =>
    split_ifs at h with hc
    · simp only [Bool.and_eq_true, Bool.not_eq_true'] at hc
      obtain ⟨⟨t₁, q⟩, hwrite, heq⟩ := Option.map_eq_some_iff.mp h
      cases heq
      exact .acked q rfl hres hc.2 hwrite
    · cases h
      exact .silent rfl (List.Subperm.refl _)
  · next hres =>
    split_ifs at h with hc
    · rw [Bool.and_eq_true] at hc
      split at h
      · cases h
        exact .silent rfl (List.Subperm.refl _)
      · next q hwrite =>
        obtain ⟨⟨t₁, more⟩, hevict, heq⟩ := Option.map_eq_some_iff.mp h
        cases heq
        exact .busy q more _ rfl hres hc.2 hwrite hevict
    · cases h
      exact .silent rfl (List.Subperm.refl _)
  · next hres =>
    obtain ⟨s, hget, h⟩ := Option.bind_eq_some_iff.mp h
    obtain ⟨⟨t₁, q⟩, hwrite, heq⟩ := Option.map_eq_some_iff.mp h
    cases heq
    exact .closed q s _ rfl hres hget hwrite
  · rw [writeUnsecured_sessionNotFound] at h
    cases h
    exact .silent rfl (List.Subperm.refl _)
  · cases h
    exact .silent rfl (List.Subperm.refl _)
  · split_ifs at h
    · cases h
      exact .silent rfl (List.Subperm.refl _)
    · split at h
      · cases h
        exact .silent rfl (KeyedSessions.remove_subperm _ _)
      · cases h
        exact .silent rfl (List.Subperm.refl _)
    · cases h
      exact .silent rfl (List.Subperm.refl _)

/-- **Reports are not answered with reports.** Neither a report nor an acknowledgement asks for an
exchange, and what does not is acknowledged at best. -/
theorem Handled.of_not_isNewExchange (h : Handled env peer buf t t' sent)
    (hgroup : (t.sessions.rxPacket env peer buf).1.plain.isGroupSession = false)
    (hkind : (MessageMeta.ofProto (t.sessions.rxPacket env peer buf).1.proto).isNewExchange = false) :
    (sent = [] ∧ t'.sessions.sessions.Subperm (t.sessions.decodePacket env peer buf).1.sessions) ∨
      ∃ q, sent = [q] ∧
        (MessageMeta.ofProto (t.sessions.rxPacket env peer buf).1.proto).isStandaloneAck = false ∧
        { t with sessions := (t.sessions.decodePacket env peer buf).1 }.writeAck env.now peer
          (t.sessions.rxPacket env peer buf).1 = some (t', q) := by
  cases h with
  | silent hsent hsub => exact .inl ⟨hsent, hsub⟩
  | acked q hsent _ hack hwrite => exact .inr ⟨q, hsent, hack, hwrite⟩
  | busy q more hdr hsent _ hnew =>
    rw [MessageMeta.isNewExchange_of_isNewSession hnew] at hkind
    cases hkind
  | closed q s proto hsent hres =>
    rw [isNewExchange_of_noSpaceExchanges hgroup hres] at hkind
    cases hkind

end TransportRunner

end RsMatter
