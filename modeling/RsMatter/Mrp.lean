import RsMatter.Headers

/-!
# The message reliability protocol (`transport/mrp.rs`, `transport/exchange.rs`)

Every exchange holds at most one message that waits for its acknowledgement
(`retrans`) and at most one received message that waits for ours (`ack`). Sending
piggybacks whatever acknowledgement is pending; receiving an acknowledgement of the
pending message clears both slots.
-/

namespace RsMatter

/-- How often a message is transmitted at most. -/
def mrpMaxTransmissions : ℕ := 10

/-- The retransmission interval when the peer announces none. -/
def mrpBaseRetryIntervalMs : BitVec 32 := 300#32

structure RetransEntry where
  /-- the retransmission delay interval in milliseconds -/
  baseDelayIntervalMs : BitVec 32
  /-- the counter we are waiting to be acknowledged -/
  msgCtr : BitVec 32
  /-- the number of retransmissions so far -/
  counter : ℕ
  deriving DecidableEq

namespace RetransEntry

def new (baseDelayIntervalMs : Option (BitVec 32)) (msgCtr : BitVec 32) : RetransEntry :=
  ⟨baseDelayIntervalMs.getD mrpBaseRetryIntervalMs, msgCtr, 0⟩

/-- Account for one more transmission. The outer `none` is the source's panic on a
foreign counter. -/
def preSend (r : RetransEntry) (ctr : BitVec 32) : Option (Except ErrorCode RetransEntry) :=
  if r.msgCtr = ctr then
    if r.counter < mrpMaxTransmissions then
      some (.ok { r with counter := r.counter + 1 })
    else
      some (.error .txTimeout)
  else
    none

end RetransEntry

/-- A received message waiting for our acknowledgement. -/
structure AckEntry where
  msgCtr : BitVec 32
  acknowledged : Bool
  deriving DecidableEq

structure ReliableMessage where
  /-- the message waiting for its acknowledgement -/
  retrans : Option RetransEntry
  ack : Option AckEntry
  /-- when the last message was received, until the next is sent -/
  receivedAtMs : Option ℕ
  deriving DecidableEq

namespace ReliableMessage

def new : ReliableMessage := ⟨none, none, none⟩

/-- Is a message waiting for its acknowledgement? -/
def isRetransPending (m : ReliableMessage) : Bool := m.retrans.isSome

/-- Is a received message still unacknowledged? -/
def isAckPending (m : ReliableMessage) : Bool :=
  match m.ack with
  | some ack => !ack.acknowledged
  | none => false

/-- The counter a message sent now acknowledges. -/
def ackCtr (m : ReliableMessage) : Option (BitVec 32) := m.ack.map (·.msgCtr)

/-- Piggyback the pending acknowledgement on a header. -/
def piggyback (m : ReliableMessage) (txProto : ProtoHdr) : ProtoHdr :=
  match m.ack with
  | some ack => txProto.setAck (some ack.msgCtr)
  | none => txProto

/-- The pending acknowledgement after it has been piggybacked. -/
def markAck (m : ReliableMessage) : Option AckEntry :=
  m.ack.map fun ack => { ack with acknowledged := true }

/-- Update the state for a packet about to be sent, and complete its header. `none`
is the panic of `RetransEntry.preSend`. -/
def preSend (m : ReliableMessage) (txPlain : PlainHdr) (txProto : ProtoHdr)
    (sessionActiveIntervalMs : Option (BitVec 32)) : Option (ReliableMessage × ProtoHdr) :=
  let txProto := m.piggyback txProto
  if txProto.isReliable then
    match m.retrans with
    | some retrans =>
      match retrans.preSend txPlain.ctr with
      | some (.ok retrans) => some (⟨some retrans, m.markAck, none⟩, txProto)
      -- too many retransmissions: give up (this last one still goes out)
      | some (.error _) => some (⟨none, none, none⟩, txProto)
      | none => none
    | none =>
      some (⟨some (.new sessionActiveIntervalMs txPlain.ctr), m.markAck, none⟩, txProto)
  else
    some (⟨m.retrans, m.markAck, none⟩, txProto)

def postRecv (m : ReliableMessage) (rxPlain : PlainHdr) (rxProto : ProtoHdr) (nowMs : ℕ) :
    Except ErrorCode ReliableMessage :=
  match rxProto.getAck, m.retrans with
  | some ackMsgCtr, some entry =>
    -- an acknowledgement of an earlier message marks the packet as a duplicate
    if entry.msgCtr ≠ ackMsgCtr then
      .error .duplicate
    else
      .ok ⟨none, if rxProto.isReliable then some ⟨rxPlain.ctr, false⟩ else none, some nowMs⟩
  | _, _ =>
    .ok ⟨m.retrans, if rxProto.isReliable then some ⟨rxPlain.ctr, false⟩ else m.ack, some nowMs⟩

end ReliableMessage

/-! ## Exchanges -/

inductive InitiatorState where
  | owned
  | dropped
  deriving DecidableEq

/-- The state of an exchange the peer initiated. -/
inductive ResponderState where
  | acceptPending
  | owned
  | dropped
  deriving DecidableEq

inductive Role where
  | initiator (state : InitiatorState)
  | responder (state : ResponderState)
  deriving DecidableEq

namespace Role

def isInitiator : Role → Bool
  | initiator _ => true
  | responder _ => false

def isDroppedState : Role → Bool
  | initiator state => state == .dropped
  | responder state => state == .dropped

def setDroppedState : Role → Role
  | initiator _ => initiator .dropped
  | responder _ => responder .dropped

@[simp] theorem isInitiator_setDroppedState (r : Role) :
    r.setDroppedState.isInitiator = r.isInitiator := by
  cases r <;> rfl

end Role

structure ExchangeState where
  /-- the id both sides know the exchange by -/
  exchId : BitVec 16
  role : Role
  mrp : ReliableMessage
  deriving DecidableEq

namespace ExchangeState

/-- Does a received packet belong to this exchange? -/
def isForRx (e : ExchangeState) (rxProto : ProtoHdr) : Bool :=
  e.exchId == rxProto.exchId && rxProto.isInitiator == !e.role.isInitiator

def postRecv (e : ExchangeState) (rxPlain : PlainHdr) (rxProto : ProtoHdr) (nowMs : ℕ) :
    Except ErrorCode ExchangeState :=
  match e.mrp.postRecv rxPlain rxProto nowMs with
  | .ok mrp => .ok { e with mrp }
  | .error code => .error code

/-- Stamp our role and the exchange id on a header. -/
def stamp (e : ExchangeState) (txProto : ProtoHdr) : ProtoHdr :=
  let txProto := if e.role.isInitiator then txProto.setInitiator else txProto.unsetInitiator
  { txProto with exchId := e.exchId }

/-- Update the exchange for a packet about to be sent, and complete its header. -/
def preSend (e : ExchangeState) (txPlain : PlainHdr) (txProto : ProtoHdr)
    (sessionActiveIntervalMs : Option (BitVec 32)) : Option (ExchangeState × ProtoHdr) :=
  match e.mrp.preSend txPlain (e.stamp txProto) sessionActiveIntervalMs with
  | some (mrp, txProto) => some ({ e with mrp }, txProto)
  | none => none

end ExchangeState

/-! ## What one send and one receive do -/

section Steps

variable {m m' : ReliableMessage} {plain : PlainHdr} {proto proto' : ProtoHdr}
  {sai : Option (BitVec 32)}

theorem ReliableMessage.isReliable_piggyback (m : ReliableMessage) (h : ProtoHdr) :
    (m.piggyback h).isReliable = h.isReliable := by
  rw [piggyback]
  cases m.ack
  · rfl
  · exact h.isReliable_setAck _

/-- Sending always puts the piggybacked header out, and leaves one of four states:
unreliable, repeated, given up, or newly pending. -/
theorem ReliableMessage.preSend_cases (h : m.preSend plain proto sai = some (m', proto')) :
    proto' = m.piggyback proto ∧
    (((m.piggyback proto).isReliable = false ∧ m'.retrans = m.retrans) ∨
      (∃ r r', m.retrans = some r ∧ m'.retrans = some r' ∧ r'.msgCtr = r.msgCtr) ∨
      m'.retrans = none ∨
      ((m.piggyback proto).isReliable = true ∧ m.retrans = none ∧
        m'.retrans = some (.new sai plain.ctr))) := by
  rw [preSend] at h
  cases hrel : (m.piggyback proto).isReliable
  · simp only [hrel, Bool.false_eq_true, if_false, Option.some_inj, Prod.mk.injEq] at h
    obtain ⟨rfl, rfl⟩ := h
    exact ⟨rfl, .inl ⟨rfl, rfl⟩⟩
  · simp only [hrel, if_true] at h
    cases hr : m.retrans with
    | none =>
      simp only [hr, Option.some_inj, Prod.mk.injEq] at h
      obtain ⟨rfl, rfl⟩ := h
      exact ⟨rfl, .inr (.inr (.inr ⟨rfl, rfl, rfl⟩))⟩
    | some r =>
      simp only [hr, RetransEntry.preSend] at h
      by_cases hc : r.msgCtr = plain.ctr
      · by_cases hn : r.counter < mrpMaxTransmissions
        · simp only [if_pos hc, if_pos hn, Option.some_inj, Prod.mk.injEq] at h
          obtain ⟨rfl, rfl⟩ := h
          exact ⟨rfl, .inr (.inl ⟨r, _, rfl, rfl, rfl⟩)⟩
        · simp only [if_pos hc, if_neg hn, Option.some_inj, Prod.mk.injEq] at h
          obtain ⟨rfl, rfl⟩ := h
          exact ⟨rfl, .inr (.inr (.inl rfl))⟩
      · simp only [if_neg hc] at h
        cases h

theorem ReliableMessage.postRecv_retrans {nowMs : ℕ}
    (h : m.postRecv plain proto nowMs = .ok m') : m'.retrans = none ∨ m'.retrans = m.retrans := by
  rw [postRecv] at h
  split at h
  · split at h
    · cases h
    · cases h
      exact .inl rfl
  · cases h
    exact .inr rfl

/-- A message stops being pending because the packet acknowledges it. -/
theorem ReliableMessage.postRecv_acked {nowMs : ℕ} (h : m.postRecv plain proto nowMs = .ok m') :
    m'.retrans = m.retrans ∨ ∃ r ∈ m.retrans, proto.getAck = some r.msgCtr := by
  rw [postRecv] at h
  split at h
  · next ackMsgCtr entry hack hr =>
    split at h
    · cases h
    · next heq =>
      refine .inr ⟨entry, hr, ?_⟩
      rw [hack, not_ne_iff.mp heq]
  · cases h
    exact .inl rfl

/-- A reliable message is pending once it was sent, under its own counter if nothing was pending
and under the pending one else, unless it was sent as often as it may be. -/
theorem ReliableMessage.preSend_reliable (h : m.preSend plain proto sai = some (m', proto'))
    (hrel : proto.isReliable = true) (hcount : ∀ r ∈ m.retrans, r.counter < mrpMaxTransmissions) :
    (∃ r' ∈ m'.retrans, r'.msgCtr = plain.ctr) ∧ ∀ r ∈ m.retrans, r.msgCtr = plain.ctr := by
  rw [preSend, if_pos ((m.isReliable_piggyback proto).trans hrel)] at h
  cases hr : m.retrans with
  | none =>
    rw [hr] at h
    cases h
    exact ⟨⟨_, rfl, rfl⟩, fun r hr' => absurd hr' (Option.not_mem_none r)⟩
  | some r =>
    simp only [hr, RetransEntry.preSend] at h
    by_cases hc : r.msgCtr = plain.ctr
    · simp only [if_pos hc, if_pos (hcount r hr), Option.some_inj, Prod.mk.injEq] at h
      obtain ⟨rfl, rfl⟩ := h
      refine ⟨⟨_, rfl, hc⟩, ?_⟩
      rintro r' ⟨⟩
      exact hc
    · simp only [if_neg hc] at h
      cases h

end Steps

end RsMatter
