import RsMatter.ExpiredSession
import RsMatter.Machine

/-!
# Exchanges and their owners (`transport/exchange.rs`, `transport.rs`)

Whoever accepts or initiates an exchange gets a handle of it: an internal session id and a slot,
packed into 32 bits. The exchange itself stays in the slot of its session; packets of the peer
change it there, and sending, receiving and dropping find it there again.

The sessions, the handles and the id of the next exchange that we initiate make up the `Hub`.
Everything that happens to them is an action; actions of different tasks interleave in any way.
A step that runs into one of the `unwrap!`s on a slot has no result.
-/

namespace RsMatter

/-! ## Handles -/

/-- The handle of an exchange: the slot in the upper 4 bits, the internal id of the session below. -/
structure ExchangeId where
  bits : BitVec 32
  deriving DecidableEq

namespace ExchangeId

/-- Pack a session id and a slot; `none` is a panic. -/
def new (sessionId : BitVec 32) (exchangeIndex : ℕ) : Option ExchangeId :=
  if 0x0fffffff#32 < sessionId then none
  else if 16 ≤ exchangeIndex then none
  else some ⟨(BitVec.ofNat 32 exchangeIndex <<< 28) ||| sessionId⟩

def sessionId (x : ExchangeId) : BitVec 32 := x.bits &&& 0x0fffffff#32

def exchangeIndex (x : ExchangeId) : ℕ := (x.bits >>> 28).toNat

variable {id : BitVec 32} {i : ℕ} {x : ExchangeId}

theorem toNat_bits_of_new (h : new id i = some x) :
    id.toNat < 2 ^ 28 ∧ i < 16 ∧ x.bits.toNat = i * 2 ^ 28 + id.toNat := by
  rw [new] at h
  split at h
  · cases h
  · next hid =>
    split at h
    · cases h
    · next hi =>
      cases h
      have hid' : id.toNat < 2 ^ 28 := by
        rw [BitVec.not_lt, BitVec.le_def] at hid
        exact Nat.lt_succ_of_le hid
      have hi' : i < 16 := Nat.lt_of_not_le hi
      refine ⟨hid', hi', ?_⟩
      rw [BitVec.toNat_or, BitVec.toNat_shiftLeft, BitVec.toNat_ofNat,
        Nat.mod_eq_of_lt (by omega : i < 2 ^ 32), Nat.shiftLeft_eq,
        Nat.mod_eq_of_lt (by omega : i * 2 ^ 28 < 2 ^ 32), ← Nat.shiftLeft_eq,
        ← Nat.shiftLeft_add_eq_or_of_lt hid', Nat.shiftLeft_eq]

theorem toNat_sessionId (x : ExchangeId) : x.sessionId.toNat = x.bits.toNat % 2 ^ 28 := by
  rw [sessionId, BitVec.toNat_and]
  exact Nat.and_two_pow_sub_one_eq_mod x.bits.toNat 28

theorem exchangeIndex_eq (x : ExchangeId) : x.exchangeIndex = x.bits.toNat / 2 ^ 28 := by
  rw [exchangeIndex, BitVec.toNat_ushiftRight, Nat.shiftRight_eq_div_pow]

theorem sessionId_new (h : new id i = some x) : x.sessionId = id := by
  obtain ⟨hid, hi, hbits⟩ := toNat_bits_of_new h
  apply BitVec.eq_of_toNat_eq
  rw [toNat_sessionId, hbits]
  omega

theorem exchangeIndex_new (h : new id i = some x) : x.exchangeIndex = i := by
  obtain ⟨hid, hi, hbits⟩ := toNat_bits_of_new h
  rw [exchangeIndex_eq, hbits]
  omega

theorem eq_of_parts {y : ExchangeId} (hid : x.sessionId = y.sessionId)
    (hi : x.exchangeIndex = y.exchangeIndex) : x = y := by
  have hmod := congrArg BitVec.toNat hid
  rw [toNat_sessionId, toNat_sessionId] at hmod
  rw [exchangeIndex_eq, exchangeIndex_eq] at hi
  have hbits : x.bits = y.bits := BitVec.eq_of_toNat_eq (by omega)
  cases x
  cases y
  exact congrArg mk hbits

theorem exists_new (hid : id ≤ 0x0fffffff#32) (hi : i < 16) : ∃ x, new id i = some x := by
  rw [new, if_neg (BitVec.not_lt.mpr hid), if_neg (Nat.not_le.mpr hi)]
  exact ⟨_, rfl⟩

end ExchangeId

/-- A live `Exchange`, with a stamp that is not in the source: when its slot was filled. -/
structure Handle where
  id : ExchangeId
  birth : ℕ
  deriving DecidableEq

/-! ## The ids of the exchanges that we initiate -/

/-- The exchange id after an exchange id; `0` is left out. -/
def succExchId (id : BitVec 16) : BitVec 16 := if id + 1 = 0 then 1 else id + 1

/-- The loop of `get_next_exch_id`: the first id that is not taken, and the one after it. -/
def nextExchIdLoop (taken : BitVec 16 → Bool) : ℕ → BitVec 16 → Option (BitVec 16 × BitVec 16)
  | 0, _ => none
  | fuel + 1, id =>
    if taken id then nextExchIdLoop taken fuel (succExchId id) else some (id, succExchId id)

namespace KeyedSessions

def slot (ss : KeyedSessions) (id : BitVec 32) (i : ℕ) : Option ExchangeState :=
  (ss.get id).bind (·.exch i)

/-- Does an exchange that the peer initiated, on whatever session, have this id? -/
def remoteHas (ss : KeyedSessions) (exchId : BitVec 16) : Bool :=
  ss.sessions.any fun s => s.exchanges.any fun slot =>
    slot.any fun e => !e.role.isInitiator && e.exchId == exchId

def getExch (p : ExchangeState → Bool) (ss : KeyedSessions) : Option (BitVec 32 × ℕ) :=
  ss.sessions.findSome? fun s => (s.exchanges.findIdx? (·.any p)).map fun i => (s.id, i)

/-- Change the session of a received packet, which is used by that. -/
def onRx {β : Type} (rxPeer : Address) (rxPlain : PlainHdr) (now : ℕ)
    (f : KeyedSession → KeyedSession × β) (ss : KeyedSessions) : Option (KeyedSessions × β) :=
  (withFirst (fun s => !s.expired && s.isForRx rxPeer rxPlain) (fun s => f (s.updateLastUsed now))
    ss.sessions).map fun r => ({ ss with sessions := r.1 }, r.2)

theorem exch_of_getExch {p : ExchangeState → Bool} {ss : KeyedSessions} {id : BitVec 32} {i : ℕ}
    (h : ss.getExch p = some (id, i)) :
    ∃ s ∈ ss.sessions, s.id = id ∧ ∃ e, s.exch i = some e ∧ p e = true := by
  obtain ⟨s, hs, hfound⟩ := List.exists_of_findSome?_eq_some h
  obtain ⟨j, hj, heq⟩ := Option.map_eq_some_iff.mp hfound
  cases heq
  obtain ⟨e, he, hp⟩ := s.exch_of_findIdx? hj
  exact ⟨s, hs, rfl, e, he, hp⟩

theorem onRx_eq_some {β : Type} {rxPeer : Address} {rxPlain : PlainHdr} {now : ℕ}
    {f : KeyedSession → KeyedSession × β} {ss ss' : KeyedSessions} {b : β}
    (h : ss.onRx rxPeer rxPlain now f = some (ss', b)) :
    ∃ a t c, ss.sessions = a ++ t :: c ∧
      ss'.sessions = a ++ (f (t.updateLastUsed now)).1 :: c ∧ b = (f (t.updateLastUsed now)).2 ∧
      ss'.nextSessUniqueId = ss.nextSessUniqueId := by
  obtain ⟨⟨l, b'⟩, hl, hr⟩ := Option.map_eq_some_iff.mp h
  cases hr
  obtain ⟨a, t, c, ht, -, rfl, rfl⟩ := withFirst_eq_some hl
  exact ⟨a, t, c, ht, rfl, rfl, rfl⟩

end KeyedSessions

/-! ## What the steps do to a session -/

/-- How long an exchange that the peer has opened waits to be accepted. -/
def acceptTimeoutMs : ℕ := 1000

/-- Has no message been sent for so long after one was received? -/
def ReliableMessage.hasRxTimedOut (m : ReliableMessage) (timeoutMs nowMs : ℕ) : Bool :=
  match m.receivedAtMs with
  | some receivedAtMs => decide (receivedAtMs + timeoutMs ≤ nowMs)
  | none => false

namespace KeyedSession

/-- Somebody accepts the exchange of a received packet: the slot. -/
def accept (rxProto : ProtoHdr) (s : KeyedSession) : KeyedSession × Option (BitVec 32 × ℕ) :=
  match s.getExchForRx rxProto with
  | none => (s, none)
  | some i =>
    match s.exch i with
    | none => (s, none)
    | some e =>
      if e.role = .responder .acceptPending then
        ({ s with toSession := s.setExch i (some { e with role := .responder .owned }) },
          some (s.id, i))
      else (s, none)

/-- Nobody has accepted the exchange of a received packet in time. -/
def acceptTimeout (rxProto : ProtoHdr) (now : ℕ) (s : KeyedSession) : KeyedSession :=
  match s.getExchForRx rxProto with
  | none => s
  | some i =>
    match s.exch i with
    | none => s
    | some e =>
      if e.role = .responder .acceptPending ∧ e.mrp.hasRxTimedOut acceptTimeoutMs now = true then
        { s with toSession := s.setExch i (some { e with role := .responder .dropped }) }
      else s

/-- We initiate an exchange: the slot, if there is one left. -/
def initiate (exchId : BitVec 16) (s : KeyedSession) : KeyedSession × Option ℕ :=
  match s.addExch exchId (.initiator .owned) with
  | some (i, session) => ({ s with toSession := session }, some i)
  | none => (s, none)

/-- The owner of an exchange sends a message; `false` is a panic. -/
def send (i : ℕ) (mm : MessageMeta) (payload : List UInt8) (sai : Option (BitVec 32))
    (s : KeyedSession) : KeyedSession × Bool :=
  match s.complete i mm payload sai with
  | some (session, _) => ({ s with toSession := session }, true)
  | none => (s, false)

/-- The owner drops an exchange: is the session over, as the group session of a single message
is? `none` is a panic. -/
def drop (i : ℕ) (s : KeyedSession) : KeyedSession × Option Bool :=
  match s.removeExch i with
  | some (closed, session) =>
    ({ s with toSession := session },
      some (closed && s.mode.isGroup && session.exchanges.all Option.isNone))
  | none => (s, none)

/-- A dropped exchange is closed, with an acknowledgement if one is due; `false` is a panic. -/
def closeDropped (i : ℕ) (proto : ProtoHdr) (sai : Option (BitVec 32)) (s : KeyedSession) :
    KeyedSession × Bool :=
  match s.exch i with
  | none => (s, false)
  | some e =>
    if e.mrp.isAckPending then
      match s.writePacket (some i) proto .standaloneAck [] sai with
      | some (session, _, _) => ({ s with toSession := session.setExch i none }, true)
      | none => (s, false)
    else ({ s with toSession := s.setExch i none }, true)

/-! ### Case by case -/

section Cases

variable (s : KeyedSession) (i : ℕ)

theorem accept_cases (rxProto : ProtoHdr) :
    s.accept rxProto = (s, none) ∨ ∃ i e, s.exch i = some e ∧
      e.role = .responder .acceptPending ∧ s.accept rxProto =
        ({ s with toSession := s.setExch i (some { e with role := .responder .owned }) },
          some (s.id, i)) := by
  rw [accept]
  split
  · exact .inl rfl
  · next i _ =>
    split
    · exact .inl rfl
    · next e he =>
      split
      · next hrole => exact .inr ⟨i, e, he, hrole, rfl⟩
      · exact .inl rfl

theorem acceptTimeout_cases (rxProto : ProtoHdr) (now : ℕ) :
    s.acceptTimeout rxProto now = s ∨ ∃ i e, s.exch i = some e ∧
      e.role = .responder .acceptPending ∧ s.acceptTimeout rxProto now =
        { s with toSession := s.setExch i (some { e with role := .responder .dropped }) } := by
  rw [acceptTimeout]
  split
  · exact .inl rfl
  · next i _ =>
    split
    · exact .inl rfl
    · next e he =>
      split
      · next h => exact .inr ⟨i, e, he, h.1, rfl⟩
      · exact .inl rfl

theorem initiate_cases (exchId : BitVec 16) :
    s.initiate exchId = (s, none) ∨ ∃ i session,
      s.addExch exchId (.initiator .owned) = some (i, session) ∧
      s.initiate exchId = ({ s with toSession := session }, some i) := by
  rw [initiate]
  split
  · next i session h => exact .inr ⟨i, session, h, rfl⟩
  · exact .inl rfl

theorem send_cases (mm : MessageMeta) (payload : List UInt8) (sai : Option (BitVec 32)) :
    s.send i mm payload sai = (s, true) ∨
    (s.exch i = none ∧ s.send i mm payload sai = (s, false)) ∨
    ∃ e e' session, s.exch i = some e ∧ e.Continues e' ∧ s.Puts i (some e') session ∧
      s.send i mm payload sai = ({ s with toSession := session }, true) := by
  rw [send, Session.complete]
  by_cases hlen : maxExchangeTxBufSize < payload.length
  · rw [if_pos hlen]
    exact .inl rfl
  · rw [if_neg hlen]
    cases he : s.exch i with
    | none =>
      refine .inr (.inl ⟨rfl, ?_⟩)
      simp only [Session.preSend, he]
    | some e =>
      obtain ⟨session, hdr, re, e', hsend, hc, hputs⟩ := Session.puts_preSend he
        ⟨PacketHdr.reset.plain, mm.setInto PacketHdr.reset.proto⟩ sai
      refine .inr (.inr ⟨e, e', session, rfl, hc, hputs, ?_⟩)
      rw [hsend]

theorem drop_cases :
    (s.exch i = none ∧ s.drop i = (s, none)) ∨
    ∃ e o session ended, s.exch i = some e ∧ s.Puts i o session ∧
      (o = none ∨ o = some { e with role := e.role.setDroppedState }) ∧
      s.drop i = ({ s with toSession := session }, some ended) := by
  rw [drop]
  cases he : s.exch i with
  | none =>
    refine .inl ⟨rfl, ?_⟩
    simp only [Session.removeExch, he]
  | some e =>
    obtain ⟨b, o, session, hremove, hputs, ho⟩ := Session.puts_removeExch he
    rw [hremove]
    exact .inr ⟨e, o, session, _, rfl, hputs, ho, rfl⟩

theorem closeDropped_cases (proto : ProtoHdr) (sai : Option (BitVec 32)) :
    (s.exch i = none ∧ s.closeDropped i proto sai = (s, false)) ∨
    ∃ e session, s.exch i = some e ∧ s.Puts i none session ∧
      s.closeDropped i proto sai = ({ s with toSession := session }, true) := by
  rw [closeDropped]
  cases he : s.exch i with
  | none => exact .inl ⟨rfl, rfl⟩
  | some e =>
    dsimp only
    split
    · obtain ⟨session, hdr, re, e', hsend, -, hputs⟩ := Session.puts_preSend he
        ⟨.new, MessageMeta.standaloneAck.setInto proto⟩ sai
      refine .inr ⟨e, session.setExch i none, rfl, hputs.setExch, ?_⟩
      rw [Session.writePacket, hsend]
    · exact .inr ⟨e, _, rfl, Session.puts_setExch he _, rfl⟩

end Cases

end KeyedSession

/-! ## The hub -/

/-- The sessions, the live handles and the next exchange id, with two marks that are not in the
source: the number of steps so far, and when each slot was last filled. -/
structure Hub where
  table : KeyedSessions
  /-- the id of the next exchange that we initiate -/
  nextExchId : BitVec 16
  handles : List Handle
  /-- when a slot of a session was last filled -/
  births : BitVec 32 → ℕ → ℕ
  clock : ℕ

namespace Hub

def new : Hub := ⟨.new, 1, [], fun _ _ => 0, 0⟩

def install (h : Hub) (table : KeyedSessions) : Hub :=
  { h with
    table
    births := fun id i =>
      if (h.table.slot id i).isNone && (table.slot id i).isSome then h.clock else h.births id i
    clock := h.clock + 1 }

/-- The id of a new exchange, and the next one. -/
def getNextExchId (h : Hub) : Option (BitVec 16 × BitVec 16) :=
  nextExchIdLoop h.table.remoteHas 0xffff h.nextExchId

/-- Somebody gets a handle; `none` is a panic. -/
def grant (h : Hub) (id : BitVec 32) (i : ℕ) : Option Hub :=
  match ExchangeId.new id i with
  | some x => some { h with handles := ⟨x, h.births id i⟩ :: h.handles }
  | none => none

inductive Action where
  /-- something that does not concern the exchanges we have handles of -/
  | table (a : KeyedSessions.Action)
  /-- somebody accepts the exchange of the packet in the receive buffer -/
  | accept (peer : Address) (rx : PacketHdr) (now : ℕ)
  | initiate (sessionId : BitVec 32) (now : ℕ)
  /-- an exchange id is taken for a message that closes a session -/
  | takeExchId
  /-- the owner of an exchange sends a message on it -/
  | send (handle : ℕ) (mm : MessageMeta) (payload : List UInt8) (sai : Option (BitVec 32)) (now : ℕ)
  /-- the owner of an exchange waits for a message, or looks whether one is pending -/
  | look (handle : ℕ) (now : ℕ)
  | drop (handle : ℕ) (now : ℕ)
  /-- the exchange of the packet in the receive buffer has not been accepted in time -/
  | acceptTimeout (peer : Address) (rx : PacketHdr) (now : ℕ)
  /-- the transport closes a dropped exchange -/
  | closeDropped (proto : ProtoHdr) (sai : Option (BitVec 32)) (now : ℕ)

def onTable (h : Hub) (a : KeyedSessions.Action) : Hub :=
  if a.isTable = true then
    let h' := h.install ((h.table.step a).getD h.table)
    match a with
    | .reset => { h' with nextExchId := 1 }
    | _ => h'
  else h

/-- `accept_if`. -/
def accept (h : Hub) (peer : Address) (rx : PacketHdr) (now : ℕ) : Option Hub :=
  match h.table.onRx peer rx.plain now (KeyedSession.accept rx.proto) with
  | none => some h
  | some (table, none) => some (h.install table)
  | some (table, some (id, i)) => (h.install table).grant id i

def touch (h : Hub) (sessionId : BitVec 32) (now : ℕ) : Hub :=
  match h.table.onSession sessionId now fun s => (s, ()) with
  | some (table, ()) => h.install table
  | none => h

/-- `initiate_for_session`. Without a free exchange id the loop that looks for one would not
end. -/
def initiate (h : Hub) (sessionId : BitVec 32) (now : ℕ) : Option Hub :=
  match h.table.get sessionId with
  | none => some h
  | some s =>
    if s.expired then some (h.touch sessionId now)
    else
      match h.getNextExchId with
      | none => some h
      | some (exchId, nextExchId) =>
        let h := { h with nextExchId }
        match h.table.onSession sessionId now (KeyedSession.initiate exchId) with
        | none => some h
        | some (table, none) => some (h.install table)
        | some (table, some i) => (h.install table).grant sessionId i

def takeExchId (h : Hub) : Hub :=
  match h.getNextExchId with
  | some (_, nextExchId) => { h with nextExchId }
  | none => h

/-- `TxMessage::complete`; without the session it fails. -/
def send (h : Hub) (handle : ℕ) (mm : MessageMeta) (payload : List UInt8)
    (sai : Option (BitVec 32)) (now : ℕ) : Option Hub :=
  match h.handles[handle]? with
  | none => some h
  | some g =>
    match h.table.onSession g.id.sessionId now
        (KeyedSession.send g.id.exchangeIndex mm payload sai) with
    | none => some h
    | some (table, true) => some (h.install table)
    | some (_, false) => none

/-- `check_no_pending_retrans`, `retrans_delay_ms`, `pending_ack` and the like; without the
session they fail. -/
def look (h : Hub) (handle now : ℕ) : Option Hub :=
  match h.handles[handle]? with
  | none => some h
  | some g =>
    match h.table.onSession g.id.sessionId now
        (fun s => (s, (s.exch g.id.exchangeIndex).isSome)) with
    | none => some h
    | some (table, true) => some (h.install table)
    | some (_, false) => none

/-- `Exchange::drop`. -/
def drop (h : Hub) (handle now : ℕ) : Option Hub :=
  match h.handles[handle]? with
  | none => some h
  | some g =>
    let handles := h.handles.eraseIdx handle
    match h.table.onSession g.id.sessionId now (KeyedSession.drop g.id.exchangeIndex) with
    | none => some { h with handles }
    | some (_, none) => none
    | some (table, some ended) =>
      some { h.install (if ended then table.remove g.id.sessionId else table) with handles }

/-- `handle_accept_timeout_rx_packet`. -/
def acceptTimeout (h : Hub) (peer : Address) (rx : PacketHdr) (now : ℕ) : Hub :=
  match h.table.onRx peer rx.plain now fun s => (s.acceptTimeout rx.proto now, ()) with
  | none => h
  | some (table, ()) => h.install table

/-- `handle_dropped_exchange`: a session with a dropped exchange that waits for an acknowledgement
is closed; else a dropped exchange is. -/
def closeDropped (h : Hub) (proto : ProtoHdr) (sai : Option (BitVec 32)) (now : ℕ) : Option Hub :=
  match h.table.getExch fun e => e.role.isDroppedState && e.mrp.isRetransPending with
  | some (id, _) => some ((h.takeExchId).install (h.table.remove id))
  | none =>
    match h.table.getExch fun e => e.role.isDroppedState && !e.mrp.isRetransPending with
    | none => some h
    | some (id, i) =>
      match h.table.onSession id now (KeyedSession.closeDropped i proto sai) with
      | none => some h
      | some (table, true) => some (h.install table)
      | some (_, false) => none

/-- The hub after something has happened; `none` is a panic. -/
def step (h : Hub) : Action → Option Hub
  | .table a => some (h.onTable a)
  | .accept peer rx now => h.accept peer rx now
  | .initiate sessionId now => h.initiate sessionId now
  | .takeExchId => some h.takeExchId
  | .send handle mm payload sai now => h.send handle mm payload sai now
  | .look handle now => h.look handle now
  | .drop handle now => h.drop handle now
  | .acceptTimeout peer rx now => some (h.acceptTimeout peer rx now)
  | .closeDropped proto sai now => h.closeDropped proto sai now

def machine : Machine Hub Action := ⟨step⟩

end Hub

end RsMatter
