import RsMatter.Dedup
import RsMatter.Mrp

/-!
# Sessions (`transport/session.rs`, `transport/exchange.rs`, `transport.rs`)

A session owns the message counter its packets are numbered with, the receive
window of the peer's counters and a bounded table of exchanges. Received packets
enter through `Session.postRecv`; every packet that leaves is numbered by
`Session.preSend`, which is reached from `complete` (messages built by the owner of
an exchange) and from `writePacket` (packets the transport answers with on its own).
-/

namespace RsMatter

/-- How many exchanges a session holds at most. -/
def maxExchanges : ℕ := 5

/-- Message counters start within 28 bits. -/
def matterMsgCtrRange : BitVec 32 := 0x0fffffff#32

/-- How a session is secured, and for which fabric. -/
inductive SessionMode where
  | case (fabIdx : ℕ) (catIds : List (BitVec 32))
  | pase (fabIdx : ℕ)
  | group (fabIdx : ℕ) (groupId : BitVec 16)
  | plainText
  deriving DecidableEq

/-- The fabric index of a mode, `0` for none. -/
def SessionMode.fabIdx : SessionMode → ℕ
  | case f _ => f
  | pase f => f
  | group f _ => f
  | plainText => 0

structure Session where
  id : BitVec 32
  /-- is the slot reserved for a session still being established? -/
  reserved : Bool
  peerAddr : Address
  localNodeid : BitVec 64
  peerNodeid : Option (BitVec 64)
  /-- the session id the peer knows us by -/
  peerSessId : BitVec 16
  localSessId : BitVec 16
  msgCtr : BitVec 32
  rxCtrState : RxCtrState
  mode : SessionMode
  /-- the exchanges; closed ones leave a free slot -/
  exchanges : List (Option ExchangeState)
  /-- is the session finishing its exchanges only? -/
  expired : Bool
  deriving DecidableEq

namespace Session

def new (id msgCtr : BitVec 32) (reserved : Bool) (peerAddr : Address)
    (peerNodeid : Option (BitVec 64)) : Session where
  id := id
  reserved := reserved
  peerAddr := peerAddr
  localNodeid := 0
  peerNodeid := peerNodeid
  peerSessId := 0
  localSessId := 0
  msgCtr := msgCtr &&& matterMsgCtrRange
  rxCtrState := .new 0
  mode := .plainText
  exchanges := []
  expired := false

def isEncrypted (s : Session) : Bool :=
  match s.mode with
  | .case .. => true
  | .pase .. => true
  | .group .. => true
  | .plainText => false

/-- Take the next message counter. The `u32` addition wraps. -/
def getMsgCtr (s : Session) : BitVec 32 × Session := (s.msgCtr, { s with msgCtr := s.msgCtr + 1 })

def exch (s : Session) (index : ℕ) : Option ExchangeState := s.exchanges[index]?.join

def setExch (s : Session) (index : ℕ) (e : Option ExchangeState) : Session :=
  { s with exchanges := s.exchanges.set index e }

/-! ## Exchanges -/

/-- The slot of the exchange a received packet belongs to. -/
def getExchForRx (s : Session) (rxProto : ProtoHdr) : Option ℕ :=
  s.exchanges.findIdx? fun slot => slot.any (·.isForRx rxProto)

def addExch (s : Session) (exchId : BitVec 16) (role : Role) : Option (ℕ × Session) :=
  let exchState : ExchangeState := ⟨exchId, role, .new⟩
  if s.exchanges.length < maxExchanges then
    some (s.exchanges.length, { s with exchanges := s.exchanges ++ [some exchState] })
  else
    match s.exchanges.findIdx? Option.isNone with
    | some index => some (index, s.setExch index (some exchState))
    | none => none

/-- The owner drops an exchange: with something pending it lingers as dropped, else
its slot is freed. `none` is the panic on a free slot. -/
def removeExch (s : Session) (index : ℕ) : Option (Bool × Session) :=
  match s.exch index with
  | none => none
  | some e =>
    if e.mrp.isRetransPending || e.mrp.isAckPending then
      some (false, s.setExch index (some { e with role := e.role.setDroppedState }))
    else
      some (true, s.setExch index none)

/-! ## Receiving and sending -/

/-- Update the session for a received packet: `true` if it opened an exchange. The
receive window moves even where the packet is refused later on. -/
def postRecv (s : Session) (rx : PacketHdr) (nowMs : ℕ) : Session × Except ErrorCode Bool :=
  let (isNew, rxCtrState) := s.rxCtrState.postRecv rx.plain.ctr s.isEncrypted
  let s := { s with rxCtrState }
  if isNew = false then
    (s, .error .duplicate)
  else
    match s.getExchForRx rx.proto with
    | some index =>
      match s.exch index with
      | some e =>
        match e.postRecv rx.plain rx.proto nowMs with
        | .ok e => (s.setExch index (some e), .ok false)
        | .error code => (s, .error code)
      | none => (s, .error .noExchange)
    | none =>
      if !rx.proto.isInitiator || !(MessageMeta.ofProto rx.proto).isNewExchange then
        (s, .error .noExchange)
      else
        match s.addExch rx.proto.exchId (.responder .acceptPending) with
        | some (index, s) =>
          match s.exch index with
          | some e =>
            match e.postRecv rx.plain rx.proto nowMs with
            | .ok e => (s.setExch index (some e), .ok true)
            | .error code => (s, .error code)
          | none => (s, .error .noExchange)
        | none => (s, .error .noSpaceExchanges)

def txPlain (s : Session) (plain : PlainHdr) (ctr : BitVec 32) : PlainHdr :=
  ({ plain with sessId := s.peerSessId, ctr := ctr }.setSrcNodeid
    (if !s.isEncrypted && s.localNodeid != 0 then some s.localNodeid else none)).setDstUnicastNodeid
    (if s.mode = SessionMode.plainText then s.peerNodeid else none)

/-- Number an outgoing packet and complete its headers. A pending retransmission on
the exchange lends its counter to whatever is sent there. Returns the peer and
whether this is a retransmission; `none` is a panic (no such exchange). -/
def preSend (s : Session) (exchIndex : Option ℕ) (tx : PacketHdr)
    (sessionActiveIntervalMs : Option (BitVec 32)) :
    Option (Session × PacketHdr × Address × Bool) :=
  match exchIndex with
  | none =>
    let (ctr, s) := s.getMsgCtr
    some (s, ⟨s.txPlain tx.plain ctr, tx.proto.adjustReliability s.peerAddr⟩, s.peerAddr, false)
  | some index =>
    match s.exch index with
    | none => none
    | some e =>
      let pending := e.mrp.retrans.map (·.msgCtr)
      let (ctr, s) := match pending with
        | some ctr => (ctr, s)
        | none => s.getMsgCtr
      let plain := s.txPlain tx.plain ctr
      match e.preSend plain (tx.proto.adjustReliability s.peerAddr) sessionActiveIntervalMs with
      | none => none
      | some (e, proto) =>
        some (s.setExch index (some e), ⟨plain, proto⟩, s.peerAddr, pending.isSome)

end Session

/-! ## Packets -/

/-- The largest payload of a message (`MAX_TX_PACKET_SIZE` less the reserve for both
headers and the authentication tag). -/
def maxExchangeTxBufSize : ℕ := (1280 - 40 - 8) - (26 + 12) - 16

/-- A packet handed over for transmission, before encryption. -/
structure TxPacket where
  hdr : PacketHdr
  payload : List UInt8
  deriving DecidableEq

namespace Session

/-- `TxMessage::complete`: the owner of an exchange sends a message. -/
def complete (s : Session) (index : ℕ) (mm : MessageMeta) (payload : List UInt8)
    (sessionActiveIntervalMs : Option (BitVec 32)) :
    Option (Session × Except ErrorCode (TxPacket × Bool)) :=
  if maxExchangeTxBufSize < payload.length then
    some (s, .error .invalid)
  else
    match s.preSend (some index) ⟨PacketHdr.reset.plain, mm.setInto PacketHdr.reset.proto⟩
        sessionActiveIntervalMs with
    | none => none
    | some (s, hdr, _, retransmission) => some (s, .ok (⟨hdr, payload⟩, retransmission))

/-- `write_packet` with a session: the transport sends a packet of its own, building
on the protocol header that is in the packet buffer. -/
def writePacket (s : Session) (exchIndex : Option ℕ) (proto : ProtoHdr) (mm : MessageMeta)
    (payload : List UInt8) (sessionActiveIntervalMs : Option (BitVec 32)) :
    Option (Session × TxPacket × Bool) :=
  match s.preSend exchIndex ⟨.new, mm.setInto proto⟩ sessionActiveIntervalMs with
  | none => none
  | some (s, hdr, _, retransmission) => some (s, ⟨hdr, payload⟩, retransmission)

end Session

/-! ## Encryption inputs -/

namespace TxPacket

/-- The AEAD nonce (`get_iv`). -/
def nonce (p : TxPacket) (localNodeid : BitVec 64) : List UInt8 :=
  toLE 1 p.hdr.plain.secFlags.toNat ++ toLE 4 p.hdr.plain.ctr.toNat ++ toLE 8 localNodeid.toNat

/-- The associated data: the plain header on the wire. -/
def aad (p : TxPacket) : List UInt8 := p.hdr.plain.encode

/-- What is encrypted: the protocol header on the wire and the payload. -/
def plaintext (p : TxPacket) : List UInt8 := p.hdr.proto.encode ++ p.payload

theorem ctr_eq_of_nonce_eq {p q : TxPacket} {localNodeid : BitVec 64}
    (h : p.nonce localNodeid = q.nonce localNodeid) : p.hdr.plain.ctr = q.hdr.plain.ctr := by
  rw [nonce, nonce, List.append_assoc, List.append_assoc] at h
  obtain ⟨-, h⟩ := List.append_inj h (by simp)
  obtain ⟨h, -⟩ := List.append_inj h (by simp)
  exact BitVec.eq_of_toNat_eq
    (toLE_injective (toNat_lt_pow 4 rfl _) (toNat_lt_pow 4 rfl _) h)

end TxPacket

end RsMatter
