import RsMatter.Exchanges

/-!
# The two packet buffers (`transport.rs`, `transport/exchange.rs`)

All exchanges share one receive and one transmit buffer. Each is behind a lock that is taken only
when a condition on its content holds: `process_rx` waits until the receive buffer is empty, the
owner of an exchange until it holds a packet for the exchange; `init_send` waits until the
transmit buffer is empty, `process_tx` until it is not. Whoever holds a lock has the buffer to
itself; clearing it is what happens on release, unless told otherwise.

The conditions of `recv` and `init_send` hold as well when the session of the waiting exchange is
gone, whatever is in the buffer. `Buffers` are the hub together with both buffers and with those
who wait for them.
-/

namespace RsMatter

/-- A received packet, as it waits for its exchange. -/
structure RxPacket where
  peer : Address
  hdr : PacketHdr
  deriving DecidableEq

inductive RxBuffer where
  | empty
  /-- a packet is in it, and nobody holds the lock -/
  | stored (p : RxPacket)
  /-- an exchange was handed the packet that is in it -/
  | held (x : ExchangeId)
  deriving DecidableEq

/-- How a packet in the transmit buffer is to be encoded. -/
inductive TxPayloadState where
  | notEncoded (sessionId : BitVec 32)
  | encoded
  deriving DecidableEq

inductive TxBuffer where
  | empty
  | building (x : ExchangeId)
  /-- a packet is in it, and nobody holds the lock -/
  | queued (state : TxPayloadState)
  deriving DecidableEq

/-! ## What the transport looks up -/

namespace KeyedSession

/-- Has the exchange of a received packet waited too long to be accepted? -/
def acceptTimesOut (rxProto : ProtoHdr) (now : ℕ) (s : KeyedSession) : Bool :=
  match s.getExchForRx rxProto with
  | none => false
  | some i =>
    match s.exch i with
    | none => false
    | some e => e.role = .responder .acceptPending && e.mrp.hasRxTimedOut acceptTimeoutMs now

/-- The exchange in a slot, if a received packet is for it: what the owner of the exchange looks
for. The outer `none` is a panic. -/
def isForUs (p : RxPacket) (i : ℕ) (s : KeyedSession) : Option (Option ExchangeState) :=
  if s.isForRx p.peer p.hdr.plain then
    (s.exch i).map fun e => if e.isForRx p.hdr.proto then some e else none
  else some none

end KeyedSession

namespace KeyedSessions

/-- The headers of a received packet, once it is decrypted and parsed. -/
def decodedHdr (env : RxEnv) (peer : Address) (buf : List UInt8) (ss : KeyedSessions) :
    Option PacketHdr :=
  match PlainHdr.new.decode ⟨[], buf⟩ with
  | .error _ => none
  | .ok (plain, pb) =>
    let rx : PacketHdr := { PacketHdr.reset with plain }
    match ss.getForRx peer plain with
    | some s => (s.decodeRemaining env.aead rx pb).toOption
    | none =>
      if !plain.isEncrypted then
        match rx.proto.decryptAndDecode env.aead none 0 plain pb with
        | .error _ => none
        | .ok (proto, _) => some { rx with proto := proto.adjustReliability peer }
      else
        match plain.getSrcNodeid, plain.getDstGroupcastNodeid with
        | some srcNodeid, some groupId =>
          (findGroupKey env groupId srcNodeid peer rx pb).map Prod.snd
        | _, _ => none

/-- Has a received packet lost its exchange: there is no session for it, or no exchange, or the
exchange was dropped? `none` is a panic. -/
def isOrphaned (p : RxPacket) (ss : KeyedSessions) : Option Bool :=
  match ss.getForRx p.peer p.hdr.plain with
  | none => some true
  | some s =>
    match s.getExchForRx p.hdr.proto with
    | none => some true
    | some i => (s.exch i).map (·.role.isDroppedState)

/-- The packet that is written when a dropped exchange is closed. -/
def droppedPacket (ss : KeyedSessions) : Option TxPayloadState :=
  match ss.getExch fun e => e.role.isDroppedState && e.mrp.isRetransPending with
  | some (id, _) => some (.notEncoded id)
  | none =>
    match ss.getExch fun e => e.role.isDroppedState && !e.mrp.isRetransPending with
    | none => none
    | some (id, i) =>
      if (ss.slot id i).any (·.mrp.isAckPending) then some (.notEncoded id) else none

end KeyedSessions

def Hub.Action.isBuffered : Hub.Action → Bool
  | .table (.decodePacket ..) => true
  | .accept .. => true
  | .send .. => true
  | .acceptTimeout .. => true
  | .closeDropped .. => true
  | _ => false

/-- The session of a received packet is looked up. -/
def Hub.touchRx (h : Hub) (p : RxPacket) (now : ℕ) : Hub :=
  match h.table.onRx p.peer p.hdr.plain now fun s => (s, ()) with
  | some (table, ()) => h.install table
  | none => h

/-! ## The buffers -/

/-- The hub, its buffers and those who wait for them. -/
structure Buffers where
  hub : Hub
  rx : RxBuffer
  tx : TxBuffer
  /-- the exchanges that wait in `recv` -/
  recvs : List ExchangeId
  /-- the exchanges that wait in `init_send` -/
  sends : List ExchangeId

namespace Buffers

def new : Buffers := ⟨.new, .empty, .empty, [], []⟩

inductive Action where
  | hub (a : Hub.Action)
  /-- `process_rx`: a packet arrives; `closes` tells whether it asks to close the session -/
  | receive (env : RxEnv) (peer : Address) (buf : List UInt8) (closes : Bool)
  /-- `accept_if`: somebody accepts the exchange of the packet in the receive buffer -/
  | accept (now : ℕ)
  /-- `handle_accept_timeout_rx_packet` -/
  | acceptTimeout (now : ℕ)
  /-- `handle_orphaned_rx_packet` -/
  | orphaned (now : ℕ)
  /-- `recv` is called -/
  | recv (x : ExchangeId) (now : ℕ)
  /-- `recv` gets the receive buffer -/
  | recvGrant (x : ExchangeId) (now : ℕ)
  /-- the owner of an exchange is done with the packet it was handed -/
  | rxDone
  /-- `internal_wait_ack` gets the receive buffer -/
  | waitAck (x : ExchangeId) (now : ℕ)
  /-- `init_send` is called, to send a message or an acknowledgement -/
  | initSend (x : ExchangeId) (now : ℕ)
  /-- `init_send` gets the transmit buffer -/
  | sendGrant (x : ExchangeId) (now : ℕ)
  /-- `TxMessage::complete` -/
  | complete (mm : MessageMeta) (payload : List UInt8) (sai : Option (BitVec 32)) (now : ℕ)
  /-- a message that was being built is dropped -/
  | abandon
  /-- `process_tx` -/
  | processTx
  /-- `process_dropped_exchanges` -/
  | processDropped (proto : ProtoHdr) (sai : Option (BitVec 32)) (now : ℕ)
  /-- `evict_some_session` -/
  | evict (now : ℕ)
  | cancel (x : ExchangeId)

/-- `process_rx`: a packet is kept for its exchange, acknowledgements and requests to close the
session aside. -/
def receive (b : Buffers) (env : RxEnv) (peer : Address) (buf : List UInt8) (closes : Bool) :
    Option Buffers :=
  match b.rx with
  | .empty =>
    let b' := { b with hub := b.hub.onTable (.decodePacket env peer buf) }
    match (b.hub.table.decodePacket env peer buf).2, b.hub.table.decodedHdr env peer buf with
    | .ok _, some hdr =>
      let mm := MessageMeta.ofProto hdr.proto
      if mm.isStandaloneAck then some b'
      else if mm.isScStatus && closes then
        match b'.hub.table.getForRx peer hdr.plain with
        | some s => some { b' with hub := b'.hub.onTable (.remove s.id) }
        | none => some b'
      else some { b' with rx := .stored ⟨peer, hdr⟩ }
    | _, _ => some b'
  | _ => none

/-- `handle_accept_timeout_rx_packet`. -/
def acceptTimeout (b : Buffers) (now : ℕ) : Option Buffers :=
  match b.rx with
  | .stored p =>
    let timesOut := (b.hub.table.getForRx p.peer p.hdr.plain).any (·.acceptTimesOut p.hdr.proto now)
    some { b with
      hub := b.hub.acceptTimeout p.peer p.hdr now
      rx := if timesOut then .empty else b.rx }
  | _ => none

/-- `handle_orphaned_rx_packet`. -/
def orphaned (b : Buffers) (now : ℕ) : Option Buffers :=
  match b.rx with
  | .stored p =>
    match b.hub.table.isOrphaned p with
    | none => none
    | some orphan => some { b with
        hub := b.hub.touchRx p now
        rx := if orphan then .empty else b.rx }
  | _ => none

/-- `recv` is called: without the session, or with a message pending, it fails at once. -/
def recv (b : Buffers) (x : ExchangeId) (now : ℕ) : Option Buffers :=
  match b.hub.table.get x.sessionId with
  | none => some b
  | some s =>
    match s.exch x.exchangeIndex with
    | none => none
    | some e =>
      let b := { b with hub := b.hub.touch x.sessionId now }
      if e.mrp.isRetransPending then some b else some { b with recvs := x :: b.recvs }

/-- `recv` gets the receive buffer. The condition that it waits for holds without the session,
too; then the packet is dropped with the error. -/
def recvGrant (b : Buffers) (x : ExchangeId) (now : ℕ) : Option Buffers :=
  match b.rx with
  | .stored p =>
    let b' := { b with recvs := b.recvs.erase x, hub := b.hub.touch x.sessionId now }
    match b.hub.table.get x.sessionId with
    | none => some { b' with rx := .empty }
    | some s =>
      match s.isForUs p x.exchangeIndex with
      | some (some e) => some { b' with rx := if e.mrp.isRetransPending then .empty else .held x }
      | _ => none
  | _ => none

/-- `init_send` gets the transmit buffer. The condition that it waits for holds without the
session, too; then the buffer is cleared with the error. -/
def sendGrant (b : Buffers) (x : ExchangeId) (now : ℕ) : Option Buffers :=
  let b' := { b with sends := b.sends.erase x, hub := b.hub.touch x.sessionId now }
  let hasSession := (b.hub.table.get x.sessionId).isSome
  match b.tx with
  | .empty => some { b' with tx := if hasSession then .building x else .empty }
  | .queued _ => if hasSession then none else some { b' with tx := .empty }
  | .building _ => none

/-- `TxMessage::complete`. A message that cannot be sent is dropped. -/
def complete (b : Buffers) (mm : MessageMeta) (payload : List UInt8) (sai : Option (BitVec 32))
    (now : ℕ) : Option Buffers :=
  match b.tx with
  | .building x =>
    if maxExchangeTxBufSize < payload.length ∨ b.hub.table.get x.sessionId = none then
      some { b with tx := .empty }
    else
      match b.hub.handles.findIdx? (·.id = x) with
      | none => none
      | some handle =>
        match b.hub.send handle mm payload sai now with
        | none => none
        | some hub => some { b with hub, tx := .queued (.notEncoded x.sessionId) }
  | _ => none

/-- `handle_dropped_exchange`. -/
def processDropped (b : Buffers) (proto : ProtoHdr) (sai : Option (BitVec 32)) (now : ℕ) :
    Option Buffers :=
  match b.tx with
  | .empty =>
    match b.hub.closeDropped proto sai now with
    | none => none
    | some hub =>
      match b.hub.table.droppedPacket with
      | some state => some { b with hub, tx := .queued state }
      | none => some { b with hub }
  | _ => none

/-- `evict_some_session`. -/
def evict (b : Buffers) (now : ℕ) : Option Buffers :=
  match b.tx with
  | .empty =>
    match b.hub.table.getSessionForEviction now with
    | none => some b
    | some id => some { b with
        hub := b.hub.takeExchId.onTable (.remove id)
        tx := .queued .encoded }
  | _ => none

/-- One step; `none` where it is not possible, and for a panic. -/
def step (b : Buffers) : Action → Option Buffers
  | .hub a =>
    if a.isBuffered then none
    else
      match b.hub.step a with
      | none => none
      | some hub => some { b with hub }
  | .receive env peer buf closes => b.receive env peer buf closes
  | .accept now =>
    match b.rx with
    | .stored p =>
      match b.hub.accept p.peer p.hdr now with
      | none => none
      | some hub => some { b with hub }
    | _ => none
  | .acceptTimeout now => b.acceptTimeout now
  | .orphaned now => b.orphaned now
  | .recv x now => if b.hub.handles.any (·.id = x) then b.recv x now else none
  | .recvGrant x now => if x ∈ b.recvs then b.recvGrant x now else none
  | .rxDone =>
    match b.rx with
    | .held _ => some { b with rx := .empty }
    | _ => none
  | .waitAck x now =>
    match b.rx with
    | .held _ => none
    | _ => some { b with hub := b.hub.touch x.sessionId now }
  | .initSend x now =>
    if b.hub.handles.any (·.id = x) then
      match b.hub.table.get x.sessionId with
      | none => some b
      | some _ => some { b with sends := x :: b.sends, hub := b.hub.touch x.sessionId now }
    else none
  | .sendGrant x now => if x ∈ b.sends then b.sendGrant x now else none
  | .complete mm payload sai now => b.complete mm payload sai now
  | .abandon =>
    match b.tx with
    | .building _ => some { b with tx := .empty }
    | _ => none
  | .processTx =>
    match b.tx with
    | .queued _ => some { b with tx := .empty }
    | _ => none
  | .processDropped proto sai now => b.processDropped proto sai now
  | .evict now => b.evict now
  | .cancel x => some { b with recvs := b.recvs.erase x, sends := b.sends.erase x }

def machine : Machine Buffers Action := ⟨step⟩

/-! ## Isolation -/

/-- The packet is addressed to the exchange of a handle. -/
def IsFor (b : Buffers) (p : RxPacket) (x : ExchangeId) : Prop :=
  ∃ s e, b.hub.table.get x.sessionId = some s ∧ s.isForRx p.peer p.hdr.plain = true ∧
    s.exch x.exchangeIndex = some e ∧ e.isForRx p.hdr.proto = true

/-- The exchange that the packet is addressed to was dropped. -/
def IsDropped (b : Buffers) (p : RxPacket) : Prop :=
  ∃ s ∈ b.hub.table.sessions, s.isForRx p.peer p.hdr.plain = true ∧
    ∃ i e, s.exch i = some e ∧ e.isForRx p.hdr.proto = true ∧ e.role.isDroppedState = true

/-- There is no exchange that the packet is addressed to. -/
def IsGone (b : Buffers) (p : RxPacket) : Prop :=
  ∀ s ∈ b.hub.table.sessions, s.isForRx p.peer p.hdr.plain = true →
    ∀ i e, s.exch i = some e → e.isForRx p.hdr.proto = false

/-- A step from `b` to `b'` leaves the packets of others alone: a received packet is given up
only to the exchange that it is addressed to, or by the transport once that exchange is dropped
or gone; a packet to be sent is taken by `process_tx` only. -/
structure Isolated (b : Buffers) (a : Action) (b' : Buffers) : Prop where
  /-- the packet that waits for its exchange -/
  rx : ∀ p, b.rx = .stored p → b'.rx = .stored p ∨ (∃ x now, a = .recvGrant x now ∧ b.IsFor p x) ∨
    ((∃ now, a = .acceptTimeout now ∨ a = .orphaned now) ∧ (b'.IsDropped p ∨ b'.IsGone p))
  /-- the packet that waits for its transmission -/
  tx : ∀ q, b.tx = .queued q → b'.tx = .queued q ∨ a = .processTx

/-- The condition on a step: an exchange that gets a buffer has its session still, unless the
transmit buffer is empty anyway; and an orphaned packet is not for an exchange of a session that
the lookup passes over, as it does with expired sessions. -/
def Attends (b : Buffers) : Action → Prop
  | .recvGrant x _ => (b.hub.table.get x.sessionId).isSome = true
  | .sendGrant x _ => b.tx = .empty ∨ (b.hub.table.get x.sessionId).isSome = true
  | .orphaned _ => ∀ p, b.rx = .stored p → ∀ s ∈ b.hub.table.sessions,
      s.isForRx p.peer p.hdr.plain = true → (s.getExchForRx p.hdr.proto).isSome = true →
      b.hub.table.getForRx p.peer p.hdr.plain = some s
  | _ => True

instance (b : Buffers) : (a : Action) → Decidable (b.Attends a)
  | .recvGrant x _ => inferInstanceAs (Decidable ((b.hub.table.get x.sessionId).isSome = true))
  | .sendGrant x _ =>
    inferInstanceAs (Decidable (b.tx = .empty ∨ (b.hub.table.get x.sessionId).isSome = true))
  | .orphaned _ =>
    match hrx : b.rx with
    | .stored p => decidable_of_iff (∀ s ∈ b.hub.table.sessions,
        s.isForRx p.peer p.hdr.plain = true → (s.getExchForRx p.hdr.proto).isSome = true →
        b.hub.table.getForRx p.peer p.hdr.plain = some s)
        ⟨fun h p' hp' => by
          rw [hrx] at hp'
          cases hp'
          exact h, fun h => h p hrx⟩
    | .empty => .isTrue fun p hp => by
        rw [hrx] at hp
        cases hp
    | .held _ => .isTrue fun p hp => by
        rw [hrx] at hp
        cases hp
  | .hub _ | .receive .. | .accept _ | .acceptTimeout _ | .recv .. | .rxDone | .waitAck ..
  | .initSend .. | .complete .. | .abandon | .processTx | .processDropped .. | .evict _
  | .cancel _ => .isTrue trivial

end Buffers

/-! ## What the transport finds -/

namespace KeyedSessions

variable {ss : KeyedSessions} {t : KeyedSession} {p : RxPacket} (now : ℕ)

theorem onRx_of_getForRx {β : Type} (f : KeyedSession → KeyedSession × β)
    (h : ss.getForRx p.peer p.hdr.plain = some t) :
    ∃ a c, ss.sessions = a ++ t :: c ∧ ss.onRx p.peer p.hdr.plain now f =
      some ({ ss with sessions := a ++ (f (t.updateLastUsed now)).1 :: c },
        (f (t.updateLastUsed now)).2) := by
  rw [onRx]
  cases hfirst : withFirst (fun s : KeyedSession => !s.expired && s.isForRx p.peer p.hdr.plain)
      (fun s => f (s.updateLastUsed now)) ss.sessions with
  | none =>
    have hnone := withFirst_eq_none.mp hfirst t (List.mem_of_find?_eq_some h)
    rw [List.find?_some h] at hnone
    cases hnone
  | some r =>
    obtain ⟨l, b⟩ := r
    obtain ⟨a, x, c, hold, hfind, rfl, rfl⟩ := withFirst_eq_some_find hfirst
    rw [getForRx, hfind, Option.some_inj] at h
    subst h
    exact ⟨a, c, hold, rfl⟩

theorem onRx_of_getForRx_none {β : Type} (f : KeyedSession → KeyedSession × β)
    (h : ss.getForRx p.peer p.hdr.plain = none) :
    ss.onRx p.peer p.hdr.plain now f = none := by
  rw [onRx, Option.map_eq_none_iff, withFirst_eq_none]
  intro s hs
  rw [getForRx, List.find?_eq_none] at h
  exact Bool.eq_false_iff.mpr (h s hs)

end KeyedSessions

namespace Hub

variable {h : Hub} {p : RxPacket} {now : ℕ}

/-- Looking a session up leaves the sessions as they are, but for the time of their last use. -/
theorem sessions_touchRx (h : Hub) (p : RxPacket) (now : ℕ) :
    (h.touchRx p now).table.sessions.map (·.toSession) = h.table.sessions.map (·.toSession) := by
  rw [touchRx]
  cases hget : h.table.getForRx p.peer p.hdr.plain with
  | none => rw [KeyedSessions.onRx_of_getForRx_none now _ hget]
  | some t =>
    obtain ⟨a, c, hold, hnew⟩ := KeyedSessions.onRx_of_getForRx now (fun s => (s, ())) hget
    rw [hnew]
    show (a ++ t.updateLastUsed now :: c).map (·.toSession) = _
    rw [hold, List.map_append, List.map_append]
    rfl

end Hub

theorem KeyedSession.isForRx_congr {s t : KeyedSession} (h : s.toSession = t.toSession) :
    s.isForRx = t.isForRx := by
  funext peer plain
  simp only [isForRx, h]

namespace Buffers

variable {b b' : Buffers} {a : Action} {p : RxPacket} {now : ℕ}

/-- Whether the exchange of a packet was dropped or is gone only depends on the sessions. -/
theorem isDropped_congr (h : b'.hub.table.sessions.map (·.toSession) =
    b.hub.table.sessions.map (·.toSession)) (hdropped : b.IsDropped p) : b'.IsDropped p := by
  obtain ⟨s, hs, hfor, hexch⟩ := hdropped
  have hmem := List.mem_map_of_mem (f := fun s : KeyedSession => s.toSession) hs
  rw [← h] at hmem
  obtain ⟨t, ht, heq⟩ := List.mem_map.mp hmem
  refine ⟨t, ht, ?_, ?_⟩
  · rw [KeyedSession.isForRx_congr heq]
    exact hfor
  · rw [heq]
    exact hexch

theorem isGone_congr (h : b'.hub.table.sessions.map (·.toSession) =
    b.hub.table.sessions.map (·.toSession)) (hgone : b.IsGone p) : b'.IsGone p := by
  intro s hs hfor i e he
  have hmem := List.mem_map_of_mem (f := fun s : KeyedSession => s.toSession) hs
  rw [h] at hmem
  obtain ⟨t, ht, heq⟩ := List.mem_map.mp hmem
  rw [KeyedSession.isForRx_congr heq.symm] at hfor
  rw [← heq] at he
  exact hgone t ht hfor i e he

/-! ## Step by step -/

theorem Isolated.of_same (hrx : b'.rx = b.rx) (htx : b'.tx = b.tx) : Isolated b a b' :=
  ⟨fun _ hp => .inl (hrx.trans hp), fun _ hq => .inl (htx.trans hq)⟩

/-- Something happens to the transmit buffer, with no packet in it that waits. -/
theorem Isolated.of_tx (hrx : b'.rx = b.rx) (htx : ∀ q, b.tx ≠ .queued q) : Isolated b a b' :=
  ⟨fun _ hp => .inl (hrx.trans hp), fun q hq => absurd hq (htx q)⟩

/-- Something happens to the receive buffer, with no packet in it that waits. -/
theorem Isolated.of_rx (hrx : ∀ p, b.rx ≠ .stored p) (htx : b'.tx = b.tx) : Isolated b a b' :=
  ⟨fun p hp => absurd hp (hrx p), fun _ hq => .inl (htx.trans hq)⟩

theorem isolated_receive {env : RxEnv} {peer : Address} {buf : List UInt8} {closes : Bool}
    (h : b.receive env peer buf closes = some b') : Isolated b a b' := by
  rw [receive] at h
  split at h
  · next hempty =>
    have hrx : ∀ p, b.rx ≠ .stored p := by
      intro p hp
      rw [hp] at hempty
      cases hempty
    refine .of_rx hrx ?_
    dsimp only at h
    split at h
    · split at h
      · cases h
        rfl
      · split at h
        · split at h
          · cases h
            rfl
          · cases h
            rfl
        · cases h
          rfl
    · cases h
      rfl
  · cases h

/-- The exchange of the packet is the one that is marked as dropped. -/
theorem isDropped_acceptTimeout {t : KeyedSession}
    (hget : b.hub.table.getForRx p.peer p.hdr.plain = some t)
    (ht : t.acceptTimesOut p.hdr.proto now = true)
    (hhub : b'.hub = b.hub.acceptTimeout p.peer p.hdr now) : b'.IsDropped p := by
  obtain ⟨l, r, hold, hnew⟩ := KeyedSessions.onRx_of_getForRx now
    (fun s => (s.acceptTimeout p.hdr.proto now, ())) hget
  rw [Hub.acceptTimeout, hnew] at hhub
  rw [KeyedSession.acceptTimesOut] at ht
  split at ht
  · cases ht
  next i hi =>
  split at ht
  · cases ht
  next e he =>
  rw [Bool.and_eq_true, decide_eq_true_eq] at ht
  have hi' : (t.updateLastUsed now).getExchForRx p.hdr.proto = some i := hi
  have he' : (t.updateLastUsed now).exch i = some e := he
  obtain ⟨e₀, he₀, hfor⟩ := Session.exch_of_getExchForRx hi
  rw [he] at he₀
  cases he₀
  have hmarked : (t.updateLastUsed now).acceptTimeout p.hdr.proto now =
      { t.updateLastUsed now with
        toSession := t.setExch i (some { e with role := .responder .dropped }) } := by
    rw [KeyedSession.acceptTimeout, hi']
    simp only [he']
    rw [if_pos ht]
    rfl
  refine ⟨(t.updateLastUsed now).acceptTimeout p.hdr.proto now, ?_, ?_, i,
    { e with role := .responder .dropped }, ?_, ?_, rfl⟩
  · rw [hhub]
    show _ ∈ l ++ _ :: r
    simp
  · rw [hmarked]
    have hfound := List.find?_some hget
    rw [Bool.and_eq_true] at hfound
    exact hfound.2
  · rw [hmarked]
    exact Session.exch_setExch_self (Session.lt_length_of_exch he)
  · rw [ExchangeState.isForRx, ht.1] at hfor
    exact hfor

theorem isolated_acceptTimeout (h : b.acceptTimeout now = some b') :
    Isolated b (.acceptTimeout now) b' := by
  rw [acceptTimeout] at h
  split at h
  · next p hp =>
    cases h
    refine ⟨?_, fun q hq => .inl hq⟩
    intro p' hp'
    rw [hp] at hp'
    cases hp'
    cases hget : b.hub.table.getForRx p.peer p.hdr.plain with
    | none => exact .inl hp
    | some t =>
      cases ht : t.acceptTimesOut p.hdr.proto now with
      | false =>
        left
        simp only [Option.any_some, ht]
        exact hp
      | true => exact .inr (.inr ⟨⟨now, .inl rfl⟩, .inl (isDropped_acceptTimeout hget ht rfl)⟩)
  · cases h

theorem isolated_orphaned (hok : b.Attends (.orphaned now)) (h : b.orphaned now = some b') :
    Isolated b (.orphaned now) b' := by
  rw [orphaned] at h
  split at h
  · next p hp =>
    split at h
    · cases h
    next orphan horphan =>
    cases h
    refine ⟨?_, fun q hq => .inl hq⟩
    intro p' hp'
    rw [hp] at hp'
    cases hp'
    cases orphan with
    | false => exact .inl hp
    | true =>
      refine .inr (.inr ⟨⟨now, .inr rfl⟩, ?_⟩)
      have hsame := b.hub.sessions_touchRx p now
      -- an exchange that the packet is for is what the lookup finds
      have hfind : ∀ s ∈ b.hub.table.sessions, s.isForRx p.peer p.hdr.plain = true →
          ∀ i e, s.exch i = some e → e.isForRx p.hdr.proto = true →
          b.hub.table.getForRx p.peer p.hdr.plain = some s := by
        intro s hs hfor i e he hefor
        refine hok p hp s hs hfor ?_
        cases hnone : s.getExchForRx p.hdr.proto with
        | some j => rfl
        | none =>
          rw [Session.isForRx_of_getExchForRx hnone he] at hefor
          cases hefor
      rw [KeyedSessions.isOrphaned] at horphan
      split at horphan
      · next hget =>
        refine .inr (isGone_congr hsame ?_)
        intro s hs hfor i e he
        by_contra hne
        have := hfind s hs hfor i e he (Bool.eq_true_of_not_eq_false hne)
        rw [hget] at this
        cases this
      · next t hget =>
        split at horphan
        · next hnone =>
          refine .inr (isGone_congr hsame ?_)
          intro s hs hfor i e he
          by_contra hne
          have hst := hfind s hs hfor i e he (Bool.eq_true_of_not_eq_false hne)
          rw [hget, Option.some_inj] at hst
          subst hst
          exact hne (Session.isForRx_of_getExchForRx hnone he)
        · next i hi =>
          obtain ⟨e, he, hdropped⟩ := Option.map_eq_some_iff.mp horphan
          obtain ⟨e₀, he₀, hefor⟩ := Session.exch_of_getExchForRx hi
          rw [he] at he₀
          cases he₀
          have hfound := List.find?_some hget
          rw [Bool.and_eq_true] at hfound
          exact .inl (isDropped_congr hsame
            ⟨t, List.mem_of_find?_eq_some hget, hfound.2, i, e, he, hefor, hdropped⟩)
  · cases h

theorem isolated_recvGrant {x : ExchangeId} (hok : b.Attends (.recvGrant x now))
    (h : b.recvGrant x now = some b') : Isolated b (.recvGrant x now) b' := by
  rw [recvGrant] at h
  split at h
  · next p hp =>
    dsimp only at h
    split at h
    · next hnone =>
      rw [Attends, hnone] at hok
      cases hok
    · next s hs =>
      split at h
      · next e hus =>
        cases h
        refine ⟨?_, fun q hq => .inl hq⟩
        intro p' hp'
        rw [hp] at hp'
        cases hp'
        refine .inr (.inl ⟨x, now, rfl, s, e, hs, ?_⟩)
        rw [KeyedSession.isForUs] at hus
        split at hus
        · next hfor =>
          obtain ⟨e', he', hif⟩ := Option.map_eq_some_iff.mp hus
          split at hif
          · next hefor =>
            cases hif
            exact ⟨hfor, he', hefor⟩
          · cases hif
        · cases hus
      · cases h
  · cases h

theorem isolated_sendGrant {x : ExchangeId} (hok : b.Attends (.sendGrant x now))
    (h : b.sendGrant x now = some b') : Isolated b a b' := by
  rw [sendGrant] at h
  dsimp only at h
  split at h
  · next hempty =>
    cases h
    refine .of_tx rfl ?_
    intro q hq
    rw [hempty] at hq
    cases hq
  · next hqueued =>
    split at h
    · cases h
    · next hgone =>
      rcases hok with hempty | hsome
      · rw [hqueued] at hempty
        cases hempty
      · exact absurd hsome hgone
  · cases h

theorem isolated_complete {mm : MessageMeta} {payload : List UInt8} {sai : Option (BitVec 32)}
    (h : b.complete mm payload sai now = some b') : Isolated b a b' := by
  rw [complete] at h
  split at h
  · next x hbuilding =>
    have htx : ∀ q, b.tx ≠ .queued q := by
      intro q hq
      rw [hbuilding] at hq
      cases hq
    split at h
    · cases h
      exact .of_tx rfl htx
    · split at h
      · cases h
      · split at h
        · cases h
        · cases h
          exact .of_tx rfl htx
  · cases h

/-- **One step** leaves the packets of others alone, if it meets the condition. -/
theorem isolated_step (hok : b.Attends a) (h : b.step a = some b') : Isolated b a b' := by
  cases a with
  | hub a =>
    rw [step] at h
    split at h
    · cases h
    · split at h
      · cases h
      · cases h
        exact .of_same rfl rfl
  | receive env peer buf closes => exact isolated_receive h
  | accept now =>
    rw [step] at h
    split at h
    · split at h
      · cases h
      · cases h
        exact .of_same rfl rfl
    · cases h
  | acceptTimeout now => exact isolated_acceptTimeout h
  | orphaned now => exact isolated_orphaned hok h
  | recv x now =>
    rw [step, recv] at h
    split at h
    · split at h
      · cases h
        exact .of_same rfl rfl
      · split at h
        · cases h
        · dsimp only at h
          split at h
          · cases h
            exact .of_same rfl rfl
          · cases h
            exact .of_same rfl rfl
    · cases h
  | recvGrant x now =>
    rw [step] at h
    split at h
    · exact isolated_recvGrant hok h
    · cases h
  | rxDone =>
    rw [step] at h
    split at h
    · next hheld =>
      cases h
      refine .of_rx ?_ rfl
      intro p hp
      rw [hheld] at hp
      cases hp
    · cases h
  | waitAck x now =>
    rw [step] at h
    split at h
    · cases h
    · cases h
      exact .of_same rfl rfl
  | initSend x now =>
    rw [step] at h
    split at h
    · split at h
      · cases h
        exact .of_same rfl rfl
      · cases h
        exact .of_same rfl rfl
    · cases h
  | sendGrant x now =>
    rw [step] at h
    split at h
    · exact isolated_sendGrant hok h
    · cases h
  | complete mm payload sai now => exact isolated_complete h
  | abandon =>
    rw [step] at h
    split at h
    · next hbuilding =>
      cases h
      refine .of_tx rfl ?_
      intro q hq
      rw [hbuilding] at hq
      cases hq
    · cases h
  | processTx =>
    rw [step] at h
    split at h
    · cases h
      exact ⟨fun p hp => .inl hp, fun q hq => .inr rfl⟩
    · cases h
  | processDropped proto sai now =>
    rw [step, processDropped] at h
    split at h
    · next hempty =>
      have htx : ∀ q, b.tx ≠ .queued q := by
        intro q hq
        rw [hempty] at hq
        cases hq
      split at h
      · cases h
      · split at h
        · cases h
          exact .of_tx rfl htx
        · cases h
          exact .of_same rfl rfl
    · cases h
  | evict now =>
    rw [step, evict] at h
    split at h
    · next hempty =>
      split at h
      · cases h
        exact .of_same rfl rfl
      · cases h
        refine .of_tx rfl ?_
        intro q hq
        rw [hempty] at hq
        cases hq
    · cases h
  | cancel x =>
    cases h
    exact .of_same rfl rfl

/-- Every step of a run leaves the packets of others alone. -/
def AlwaysIsolated (b : Buffers) (as : List Action) : Prop :=
  machine.Meets (fun b a => ∀ b', b.step a = some b' → Isolated b a b') b as

/-- **Isolation.** In a run whose steps meet the condition, every step leaves the packets of
others alone. -/
theorem alwaysIsolated_of_attends {as : List Action} (hok : machine.Meets Attends b as) :
    b.AlwaysIsolated as := by
  induction as generalizing b with
  | nil => trivial
  | cons a as ih =>
    refine ⟨fun b' hst => isolated_step hok.1 hst, ?_⟩
    intro b' hst
    exact ih (hok.2 b' hst)

namespace Sample

def peerA : Address := .udp ⟨.v4 0x0a000001#32, 5540⟩

def peerB : Address := .udp ⟨.v4 0x0a000002#32, 5540⟩

def answer : List UInt8 := [0x00, 0x00, 0x00, 0x00, 1, 0, 0, 0, 0x00, 0x21, 0x02, 0x00, 0x00, 0x00]

def answerPacket : RxPacket :=
  ⟨peerB, { PacketHdr.reset with
    plain := { PlainHdr.new with ctr := 1 }
    proto := { ProtoHdr.new with exchId := 2, protoId := 0, protoOpcode := 0x21 } }⟩

/-- Two exchanges with different peers wait for an answer, and the second gets one. -/
def answered : List Action :=
  [.hub (.table (.createUnsecured 1 peerA 1 0)), .hub (.initiate 0 0),
    .hub (.table (.createUnsecured 1 peerB 2 0)), .hub (.initiate 1 0),
    .recv ⟨0⟩ 1, .recv ⟨1⟩ 1, .receive KeyedSessions.Sample.env peerB answer false]

end Sample

/-- The answer is handed to the exchange that it is addressed to. -/
theorem alwaysIsolated_answered :
    new.AlwaysIsolated (Sample.answered ++ [Action.recvGrant ⟨1⟩ 2, .rxDone]) ∧
    ((machine.run new (Sample.answered ++ [Action.recvGrant ⟨1⟩ 2])).map (·.rx)) = some (.held ⟨1⟩) :=
  ⟨alwaysIsolated_of_attends (by decide +kernel), by decide +kernel⟩

/-- The session of the first exchange is removed while the answer waits for the second: the first
exchange discards it. -/
theorem answer_discarded : ¬ ∀ as, new.AlwaysIsolated as := by
  intro h
  have hlost := h (Sample.answered ++ [Action.hub (.table (.remove 0))] ++ [Action.recvGrant ⟨0⟩ 2])
  obtain ⟨b, hb⟩ := Option.isSome_iff_exists.mp (by decide +kernel :
    (machine.run new (Sample.answered ++ [Action.hub (.table (.remove 0))])).isSome = true)
  have hrx : (machine.run new (Sample.answered ++ [Action.hub (.table (.remove 0))])).map (·.rx) =
      some (.stored Sample.answerPacket) := by decide +kernel
  have hnone : (machine.run new (Sample.answered ++ [Action.hub (.table (.remove 0))])).map
      (·.hub.table.get 0) = some none := by decide +kernel
  have hafter : (machine.run new (Sample.answered ++ [Action.hub (.table (.remove 0))] ++
      [Action.recvGrant ⟨0⟩ 2])).map (·.rx) = some .empty := by decide +kernel
  rw [Machine.run_append, hb, Option.bind_some] at hafter
  rw [hb, Option.map_some, Option.some_inj] at hrx hnone
  obtain ⟨b', hrun, hempty⟩ := Option.map_eq_some_iff.mp hafter
  obtain ⟨b₁, hst, hb₁⟩ := Machine.run_cons_eq_some.mp hrun
  cases hb₁
  have hiso := ((Machine.meets_append hb).mp hlost).2.1 b' hst
  rcases hiso.rx _ hrx with hsame | ⟨x, now, heq, s, -, hget, -⟩ | ⟨⟨now, heq | heq⟩, -⟩
  · rw [hempty] at hsame
    cases hsame
  · cases heq
    rw [show (⟨0⟩ : ExchangeId).sessionId = 0 from rfl, hnone] at hget
    cases hget
  · cases heq
  · cases heq

end Buffers

end RsMatter
