import RsMatter.NonceReuse
import RsMatter.SessionSlots

/-!
# Sending a message until it is acknowledged (`transport/exchange.rs`)

`Exchange::send_with` transmits a message and waits, transmitting it again from time to time,
until nothing is pending on the exchange any more. That nothing is pending is all it goes by:
`Sender::tx` never sees an acknowledgement.

A call runs on behalf of the owner of an exchange, who does nothing else with the exchange in the
meantime. Everybody else goes on: packets arrive, the other exchanges of the session open, send
and close, and the session may be removed at any time. The call and its surroundings make up a
`SendRun`. Two marks are not in the source: the counter of the first transmission, and the packets
that were received on the exchange since then.
-/

namespace RsMatter

/-- Does the owner of the exchange in a slot do this? -/
def TxAction.isByOwner (index : ℕ) : TxAction → Bool
  | .complete j _ _ => j == index
  | .acknowledge j => j == index
  | .removeExch j => j == index
  | _ => false

/-- Is a packet received on the exchange in a slot? -/
def Session.receives (s : Session) (index : ℕ) (rx : PacketHdr) (nowMs : ℕ) : Bool :=
  s.getExchForRx rx.proto == some index &&
    match (s.postRecv rx nowMs).2 with
    | .ok _ => true
    | .error _ => false

/-! ## The call -/

/-- Where a call of `send_with` is. -/
inductive SendPc where
  | idle
  /-- it waits for the transmit buffer, in `init_send` -/
  | acquiring
  /-- it waits in `wait_tx` -/
  | waiting
  | returned (result : Except ErrorCode Unit)
  deriving DecidableEq

/-- A call of `send_with` and the session it is about. -/
structure SendRun where
  /-- the session, as it is or as it last was -/
  tx : TxRun
  removed : Bool
  pc : SendPc
  /-- is the message still to be transmitted for the first time? -/
  initial : Bool
  calls : ℕ
  /-- the counter of the first transmission -/
  first : Option (BitVec 32)
  /-- the packets received on the exchange since then, newest first -/
  received : List PacketHdr

/-- A closure that builds the message: the result of its `k`-th call. `none` gives up on sending. -/
abbrev Build := ℕ → Except ErrorCode (Option (MessageMeta × List UInt8))

/-- The closure of `Exchange::send`: always the same message, if it fits. -/
def Build.send (mm : MessageMeta) (payload : List UInt8) : Build := fun _ =>
  if maxExchangeTxBufSize < payload.length then .error .noSpace else .ok (some (mm, payload))

/-- Every message that the closure builds asks for an acknowledgement, and it never gives up. -/
def Build.Reliable (build : Build) : Prop :=
  ∀ k o, build k = .ok o → ∃ mm payload, o = some (mm, payload) ∧ mm.reliable = true

inductive SendAction where
  /-- `send_with` is called -/
  | call
  /-- `init_send` gets the transmit buffer, and the message is built into it -/
  | grant
  /-- `wait_tx` is woken by the receive buffer, or by the timer -/
  | wake
  /-- `wait_tx` is told that a session was removed -/
  | sessionRemoved
  | remove
  /-- something else happens to the session -/
  | other (a : TxAction)

namespace SendRun

def start (tx : TxRun) : SendRun := ⟨tx, false, .idle, true, 0, none, []⟩

def return_ (s : SendRun) (result : Except ErrorCode Unit) : SendRun :=
  { s with pc := .returned result }

def handOver (s : SendRun) (sess : Session) (p : TxPacket) (retransmission : Bool) : SendRun :=
  { s with
    tx := s.tx.emit sess p retransmission
    initial := false
    calls := s.calls + 1
    first := if s.initial then some p.hdr.plain.ctr else s.first
    received := if s.initial then [] else s.received }

section Steps

variable (sai : Option (BitVec 32)) (index : ℕ) (build : Build)

/-- Is a message pending on the exchange? `none` is the panic on a free slot. -/
def pendingRetrans (s : SendRun) : Option (Except ErrorCode Bool) :=
  if s.removed then some (.error .noSession)
  else
    match s.tx.sess.exch index with
    | some e => some (.ok e.mrp.isRetransPending)
    | none => none

/-- Go on with `ifPending` or `ifNot`; without a session the call fails. -/
def onPending (s : SendRun) (ifPending ifNot : Option SendRun) : Option SendRun :=
  match s.pendingRetrans index with
  | none => none
  | some (.error code) => some (s.return_ (.error code))
  | some (.ok true) => ifPending
  | some (.ok false) => ifNot

/-- `Sender::new`. -/
def call (s : SendRun) : Option SendRun :=
  s.onPending index (some (s.return_ (.error .invalidState))) (some { s with pc := .acquiring })

/-- `wait_tx` before it waits. -/
def waitTx (s : SendRun) : Option SendRun :=
  s.onPending index (some { s with pc := .waiting }) (some (s.return_ (.ok ())))

/-- The message is built and handed over for transmission, and the loop goes on. -/
def transmit (s : SendRun) : Option SendRun :=
  match build s.calls with
  | .error code => some (s.return_ (.error code))
  | .ok none => some (s.return_ (.ok ()))
  | .ok (some (mm, payload)) =>
    match s.tx.sess.complete index mm payload sai with
    | none => none
    | some (_, .error code) => some (s.return_ (.error code))
    | some (sess, .ok (p, retransmission)) => (s.handOver sess p retransmission).waitTx index

/-- `Sender::tx` with the transmit buffer: a message that is not pending any more is not
transmitted again. -/
def grant (s : SendRun) : Option SendRun :=
  s.onPending index (s.transmit sai index build)
    (if s.initial then s.transmit sai index build else some (s.return_ (.ok ())))

/-- `wait_tx` after it has waited. -/
def wake (s : SendRun) : Option SendRun :=
  s.onPending index (some { s with pc := .acquiring }) (some (s.return_ (.ok ())))

def other (s : SendRun) (a : TxAction) : Option SendRun :=
  if s.removed then some s
  else
    match s.tx.step sai a with
    | none => none
    | some tx =>
      match a with
      | .recv rx nowMs =>
        some { s with
          tx
          received := if s.tx.sess.receives index rx nowMs then rx :: s.received else s.received }
      | _ => some { s with tx }

def step (s : SendRun) : SendAction → Option SendRun
  | .call =>
    match s.pc with
    | .idle => s.call index
    | _ => none
  | .grant =>
    match s.pc with
    | .acquiring => s.grant sai index build
    | _ => none
  | .wake =>
    match s.pc with
    | .waiting => s.wake index
    | _ => none
  | .sessionRemoved =>
    match s.pc with
    | .waiting => some (if s.removed then s.return_ (.error .noSession) else s)
    | _ => none
  | .remove => some { s with removed := true }
  | .other a => if a.isByOwner index then none else s.other sai index a

def machine : Machine SendRun SendAction := ⟨step sai index build⟩

end Steps

/-- A packet that acknowledges the message was received on the exchange after its first
transmission. -/
def Acknowledged (s : SendRun) : Prop :=
  ∃ ctr, s.first = some ctr ∧ ∃ rx ∈ s.received, rx.proto.getAck = some ctr

/-- The condition on a step: a message that is transmitted again was not transmitted as often as
it may be already. -/
def Retries (index : ℕ) (s : SendRun) : SendAction → Prop
  | .grant => s.removed = false → ∀ e ∈ s.tx.sess.exch index, ∀ r ∈ e.mrp.retrans,
      r.counter < mrpMaxTransmissions
  | _ => True

instance (index : ℕ) (s : SendRun) : (a : SendAction) → Decidable (s.Retries index a)
  | .grant => inferInstanceAs (Decidable (s.removed = false → ∀ e ∈ s.tx.sess.exch index,
      ∀ r ∈ e.mrp.retrans, r.counter < mrpMaxTransmissions))
  | .call | .wake | .sessionRemoved | .remove | .other _ => .isTrue trivial

end SendRun

/-! ## What the steps do to a pending message -/

theorem Role.isDroppedState_of_isOwned {role : Role} (h : role.isOwned = true) :
    role.isDroppedState = false := by
  rcases role with state | state
  · cases state with
    | owned => rfl
    | dropped => cases h
  · cases state with
    | acceptPending => cases h
    | owned => rfl
    | dropped => cases h

theorem ExchangeState.postRecv_acked {e e' : ExchangeState} {plain : PlainHdr} {proto : ProtoHdr}
    {nowMs : ℕ} (h : e.postRecv plain proto nowMs = .ok e') :
    e'.mrp.retrans = e.mrp.retrans ∨ ∃ r ∈ e.mrp.retrans, proto.getAck = some r.msgCtr := by
  rw [postRecv] at h
  split at h
  · next hm =>
    cases h
    exact ReliableMessage.postRecv_acked hm
  · cases h

namespace Session

variable {s s' : Session} {i : ℕ} {e : ExchangeState}

/-- What a packet does to an exchange: it leaves the pending message alone, or it is received on
this exchange and acknowledges it. -/
def Answers (s : Session) (i : ℕ) (rx : PacketHdr) (nowMs : ℕ) (e e' : ExchangeState) : Prop :=
  e'.role = e.role ∧
    (e'.mrp.retrans = e.mrp.retrans ∨
      (s.receives i rx nowMs = true ∧ ∃ r ∈ e.mrp.retrans, rx.proto.getAck = some r.msgCtr))

/-- **Receiving** leaves a pending message pending, unless the packet acknowledges it. -/
theorem answers_postRecv (rx : PacketHdr) (nowMs : ℕ) (he : s.exch i = some e) :
    ∃ e', (s.postRecv rx nowMs).1.exch i = some e' ∧ s.Answers i rx nowMs e e' := by
  rw [postRecv]
  -- the window is not what matters here
  have hok : s.receives i rx nowMs = (s.getExchForRx rx.proto == some i &&
      match (s.postRecv rx nowMs).2 with
      | .ok _ => true
      | .error _ => false) := rfl
  rw [postRecv] at hok
  generalize s.rxCtrState.postRecv rx.plain.ctr s.isEncrypted = res at hok ⊢
  obtain ⟨isNew, w⟩ := res
  dsimp only at hok ⊢
  split
  · exact ⟨e, he, rfl, .inl rfl⟩
  next hnew =>
  rw [if_neg hnew] at hok
  split
  · next j hj =>
    have hslot : s.getExchForRx rx.proto = some j := hj
    rw [hj, hslot] at hok
    split
    · next ej hej =>
      split
      · next ej' hp =>
        simp only [hej, hp] at hok
        by_cases hij : j = i
        · subst hij
          rw [show s.exch j = some ej from hej] at he
          cases he
          refine ⟨ej', exch_setExch_self (lt_length_of_exch hej),
            (ExchangeState.continues_postRecv hp).role, ?_⟩
          rcases ExchangeState.postRecv_acked hp with hsame | hacked
          · exact .inl hsame
          · exact .inr ⟨by rw [hok]; simp, hacked⟩
        · exact ⟨e, by rw [exch_setExch_ne hij]; exact he, rfl, .inl rfl⟩
      · exact ⟨e, he, rfl, .inl rfl⟩
    · exact ⟨e, he, rfl, .inl rfl⟩
  · split
    · exact ⟨e, he, rfl, .inl rfl⟩
    split
    · next j t ha =>
      obtain ⟨hfree, -, -, hexch⟩ := exch_of_addExch ha
      have hji : j ≠ i := by
        rintro rfl
        rw [show s.exch j = none from hfree] at he
        cases he
      have het : t.exch i = some e := by
        rw [hexch, Function.update_of_ne hji.symm]
        exact he
      split
      · split
        · exact ⟨e, by rw [exch_setExch_ne hji]; exact het, rfl, .inl rfl⟩
        · exact ⟨e, het, rfl, .inl rfl⟩
      · exact ⟨e, het, rfl, .inl rfl⟩
    · exact ⟨e, he, rfl, .inl rfl⟩

theorem exch_of_preSend {tx hdr : PacketHdr} {sai : Option (BitVec 32)} {addr : Address} {re : Bool}
    (h : s.preSend (some i) tx sai = some (s', hdr, addr, re)) (he : s.exch i = some e) :
    s'.peerAddr = s.peerAddr ∧ ∃ e', s'.exch i = some e' ∧
      e.preSend hdr.plain (tx.proto.adjustReliability s.peerAddr) sai = some (e', hdr.proto) := by
  have hlt := lt_length_of_exch he
  rw [preSend, he] at h
  cases hr : e.mrp.retrans with
  | none =>
    simp only [hr, Option.map_none, getMsgCtr] at h
    split at h
    · cases h
    · next hsend =>
      cases h
      exact ⟨rfl, _, exch_setExch_self hlt, hsend⟩
  | some r =>
    simp only [hr, Option.map_some] at h
    split at h
    · cases h
    · next hsend =>
      cases h
      exact ⟨rfl, _, exch_setExch_self hlt, hsend⟩

theorem exch_of_preSend_ne {tx hdr : PacketHdr} {sai : Option (BitVec 32)} {addr : Address}
    {re : Bool} {j : ℕ} (h : s.preSend (some j) tx sai = some (s', hdr, addr, re)) (hj : i ≠ j) :
    s'.exch i = s.exch i := by
  cases he : s.exch j with
  | none =>
    rw [preSend, he] at h
    cases h
  | some e =>
    obtain ⟨t, _, _, _, hsend, -, hputs⟩ := puts_preSend he tx sai
    rw [h] at hsend
    cases hsend
    rw [hputs.exch, Function.update_of_ne hj]

theorem exch_of_removeExch_ne {b : Bool} {j : ℕ} (h : s.removeExch j = some (b, s'))
    (hj : i ≠ j) : s'.exch i = s.exch i := by
  cases he : s.exch j with
  | none =>
    rw [removeExch, he] at h
    cases h
  | some e =>
    obtain ⟨_, _, t, hremove, hputs, -⟩ := puts_removeExch he
    rw [h] at hremove
    cases hremove
    rw [hputs.exch, Function.update_of_ne hj]

/-- **Sending** a reliable message over an unreliable network leaves it pending, under the counter
of the packet, unless it was sent as often as it may be. -/
theorem retrans_complete {mm : MessageMeta} {payload : List UInt8} {sai : Option (BitVec 32)}
    {p : TxPacket} {re : Bool} (h : s.complete i mm payload sai = some (s', .ok (p, re)))
    (he : s.exch i = some e) (hrel : mm.reliable = true) (haddr : s.peerAddr.isReliable = false)
    (hcount : ∀ r ∈ e.mrp.retrans, r.counter < mrpMaxTransmissions) :
    s'.peerAddr = s.peerAddr ∧
    (∃ e', s'.exch i = some e' ∧ e'.role = e.role ∧
      ∃ r' ∈ e'.mrp.retrans, r'.msgCtr = p.hdr.plain.ctr) ∧
    ∀ r ∈ e.mrp.retrans, r.msgCtr = p.hdr.plain.ctr := by
  rw [complete] at h
  split at h
  · cases h
  split at h
  · cases h
  next hsend =>
  cases h
  obtain ⟨haddr', e', he', hsend⟩ := exch_of_preSend hsend he
  rw [ExchangeState.preSend] at hsend
  split at hsend
  · next hm =>
    cases hsend
    have hproto : (e.stamp ((mm.setInto PacketHdr.reset.proto).adjustReliability
        s.peerAddr)).isReliable = true := by
      rw [ExchangeState.isReliable_stamp, ProtoHdr.isReliable_adjustReliability, haddr,
        mm.isReliable_setInto, hrel]
      rfl
    obtain ⟨hnew, hold⟩ := ReliableMessage.preSend_reliable hm hproto hcount
    exact ⟨haddr', ⟨_, he', rfl, hnew⟩, hold⟩
  · cases hsend

end Session

namespace TxRun

variable {sai : Option (BitVec 32)} {r r' : TxRun} {i j : ℕ} {e : ExchangeState}

theorem exch_of_complete {mm : MessageMeta} {payload : List UInt8}
    (h : r.complete sai j mm payload = some r') (hj : i ≠ j) : r'.sess.exch i = r.sess.exch i := by
  rw [complete, Session.complete] at h
  by_cases hlen : maxExchangeTxBufSize < payload.length
  · rw [if_pos hlen] at h
    cases h
    rfl
  · rw [if_neg hlen] at h
    cases hsend : r.sess.preSend (some j)
        ⟨PacketHdr.reset.plain, mm.setInto PacketHdr.reset.proto⟩ sai with
    | none =>
      rw [hsend] at h
      cases h
    | some res =>
      rw [hsend] at h
      cases h
      exact Session.exch_of_preSend_ne hsend hj

/-- **What the others do** leaves an exchange that has an owner alone, packets aside. -/
theorem exch_of_step {a : TxAction} (h : r.step sai a = some r') (hother : a.isByOwner i = false)
    (hrecv : ∀ rx nowMs, a ≠ .recv rx nowMs) (he : r.sess.exch i = some e)
    (howned : e.role.isOwned = true) : r'.sess.exch i = some e := by
  cases a with
  | recv rx nowMs => exact absurd rfl (hrecv rx nowMs)
  | complete j mm payload =>
    have hj : i ≠ j := Ne.symm (beq_eq_false_iff_ne.mp hother)
    rw [exch_of_complete h hj, he]
  | acknowledge j =>
    have hj : i ≠ j := Ne.symm (beq_eq_false_iff_ne.mp hother)
    rw [step] at h
    split at h
    · split at h
      · rw [exch_of_complete h hj, he]
      · cases h
        exact he
    · cases h
  | writePacket proto mm payload =>
    rw [step, Session.writePacket] at h
    cases h
    exact he
  | closeDropped j proto =>
    rw [step] at h
    split at h
    · next ej hej =>
      split at h
      · next hdropped =>
        -- a dropped exchange has no owner
        have hj : i ≠ j := by
          rintro rfl
          rw [he] at hej
          cases hej
          rw [Role.isDroppedState_of_isOwned howned, Bool.false_and] at hdropped
          cases hdropped
        split at h
        · rw [Session.writePacket] at h
          cases hsend : r.sess.preSend (some j) ⟨.new, MessageMeta.standaloneAck.setInto proto⟩
              sai with
          | none =>
            rw [hsend] at h
            cases h
          | some res =>
            rw [hsend] at h
            cases h
            have hsame := Session.exch_of_preSend_ne hsend hj
            rw [emit, Session.exch_setExch_ne hj.symm, hsame, he]
        · cases h
          rw [Session.exch_setExch_ne hj.symm, he]
      · cases h
    · cases h
  | addExch exchId =>
    rw [step] at h
    split at h
    · next ha =>
      cases h
      obtain ⟨hfree, -, -, hexch⟩ := Session.exch_of_addExch ha
      rw [hexch, Function.update_of_ne ?_, he]
      rintro rfl
      rw [he] at hfree
      cases hfree
    · cases h
      exact he
  | accept j state =>
    rw [step] at h
    split at h
    · next ej hej =>
      split at h
      · next hrole =>
        cases h
        have hj : i ≠ j := by
          rintro rfl
          rw [he] at hej
          cases hej
          rw [hrole] at howned
          cases howned
        rw [Session.exch_setExch_ne hj.symm, he]
      · cases h
    · cases h
  | removeExch j =>
    have hj : i ≠ j := Ne.symm (beq_eq_false_iff_ne.mp hother)
    rw [step] at h
    split at h
    · next hd =>
      cases h
      rw [Session.exch_of_removeExch_ne hd hj, he]
    · cases h

theorem peerAddr_of_step {a : TxAction} (h : r.step sai a = some r') :
    r'.sess.peerAddr = r.sess.peerAddr := by
  rcases step_cases h with ⟨-, sess, rfl, hk, -⟩ | ⟨-, sess, p, rfl, hf⟩ |
    ⟨index, mm, payload, e, entry, sess, p, rfl, ha, -⟩
  · exact hk.addr
  · exact hf.addr
  · exact ha.keeps.addr

end TxRun

/-! ## The invariant of a call -/

namespace SendRun

/-- The message was transmitted: it is still pending, or it was acknowledged. -/
def Settles (s : SendRun) (e : ExchangeState) : Prop :=
  s.initial = false ∧ (s.Acknowledged ∨ ∃ r ∈ e.mrp.retrans, s.first = some r.msgCtr)

/-- What the call knows of its exchange: nothing is pending before the first transmission. -/
def Awaits (s : SendRun) (e : ExchangeState) : Prop :=
  match s.pc with
  | .idle => s.initial = true
  | .acquiring => (s.initial = true ∧ e.mrp.retrans = none) ∨ s.Settles e
  | .waiting => s.Settles e
  | .returned _ => True

structure Inv (index : ℕ) (s : SendRun) : Prop where
  addr : s.tx.sess.peerAddr.isReliable = false
  /-- the exchange stays in its slot while the session is there -/
  exch : s.removed = false →
    ∃ e, s.tx.sess.exch index = some e ∧ e.role.isOwned = true ∧ s.Awaits e
  returned : s.pc = .returned (.ok ()) → s.Acknowledged

variable {sai : Option (BitVec 32)} {index : ℕ} {build : Build} {s s' : SendRun}

theorem onPending_cases {ifPending ifNot : Option SendRun}
    (h : s.onPending index ifPending ifNot = some s') :
    (s.removed = true ∧ s' = s.return_ (.error .noSession)) ∨
    (s.removed = false ∧ ∃ e, s.tx.sess.exch index = some e ∧
      ((e.mrp.retrans.isSome = true ∧ ifPending = some s') ∨
        (e.mrp.retrans = none ∧ ifNot = some s'))) := by
  rw [onPending, pendingRetrans] at h
  cases hr : s.removed with
  | true =>
    rw [hr] at h
    cases h
    exact .inl ⟨rfl, rfl⟩
  | false =>
    rw [hr] at h
    refine .inr ⟨rfl, ?_⟩
    cases he : s.tx.sess.exch index with
    | none =>
      rw [he] at h
      cases h
    | some e =>
      rw [he] at h
      refine ⟨e, rfl, ?_⟩
      cases hp : e.mrp.retrans with
      | none =>
        simp only [ReliableMessage.isRetransPending, hp] at h
        exact .inr ⟨rfl, h⟩
      | some r =>
        simp only [ReliableMessage.isRetransPending, hp] at h
        exact .inl ⟨rfl, h⟩

theorem Inv.fail (hI : Inv index s) (code : ErrorCode) : Inv index (s.return_ (.error code)) := by
  refine ⟨hI.addr, ?_, ?_⟩
  · intro hr
    obtain ⟨e, he, howned, -⟩ := hI.exch hr
    exact ⟨e, he, howned, trivial⟩
  · rintro ⟨⟩

theorem Inv.succeed (hI : Inv index s) (hack : s.Acknowledged) :
    Inv index (s.return_ (.ok ())) := by
  refine ⟨hI.addr, ?_, fun _ => hack⟩
  intro hr
  obtain ⟨e, he, howned, -⟩ := hI.exch hr
  exact ⟨e, he, howned, trivial⟩

theorem Inv.goto (hI : Inv index s) {pc : SendPc}
    (h : ∀ e, s.tx.sess.exch index = some e → Awaits { s with pc } e)
    (hpc : pc ≠ .returned (.ok ())) : Inv index { s with pc } := by
  refine ⟨hI.addr, ?_, fun hret => absurd hret hpc⟩
  intro hr
  obtain ⟨e, he, howned, -⟩ := hI.exch hr
  exact ⟨e, he, howned, h e he⟩

theorem Settles.acknowledged {e : ExchangeState} (h : s.Settles e) (hnone : e.mrp.retrans = none) :
    s.Acknowledged := by
  rcases h.2 with hack | ⟨r, hr, -⟩
  · exact hack
  · rw [hnone] at hr
    cases hr

/-- The message that is pending after a transmission is the one of the first. -/
theorem Awaits.handOver {e e' : ExchangeState} {sess : Session} {p : TxPacket} {re : Bool}
    {r' : RetransEntry} (h : s.Awaits e) (hpc : s.pc = .acquiring) (hr' : r' ∈ e'.mrp.retrans)
    (hctr : r'.msgCtr = p.hdr.plain.ctr) (hold : ∀ r ∈ e.mrp.retrans, r.msgCtr = p.hdr.plain.ctr) :
    (s.handOver sess p re).Settles e' := by
  refine ⟨rfl, ?_⟩
  rw [Awaits, hpc] at h
  rcases h with ⟨hinit, -⟩ | ⟨hinit, hack | ⟨r, hr, hfirst⟩⟩
  · refine .inr ⟨r', hr', ?_⟩
    rw [SendRun.handOver, hinit, hctr]
    rfl
  · left
    rw [Acknowledged, SendRun.handOver, hinit]
    exact hack
  · refine .inr ⟨r', hr', ?_⟩
    rw [SendRun.handOver, hinit, hctr, ← hold r hr, ← hfirst]
    rfl

theorem Inv.call (hI : Inv index s) (hpc : s.pc = .idle) (h : s.call index = some s') :
    Inv index s' := by
  rcases onPending_cases h with ⟨-, rfl⟩ | ⟨hr, e, he, ⟨-, h⟩ | ⟨hnone, h⟩⟩
  · exact hI.fail _
  · cases h
    exact hI.fail _
  · cases h
    obtain ⟨e', he', -, hinit⟩ := hI.exch hr
    rw [Awaits, hpc] at hinit
    refine hI.goto ?_ (by rintro ⟨⟩)
    intro e₁ he₁
    rw [he] at he₁
    cases he₁
    exact .inl ⟨hinit, hnone⟩

/-- `wait_tx`, before and after it has waited: the call goes on, or the message was
acknowledged. -/
theorem Inv.next {pc : SendPc} (hI : Inv index s)
    (hwait : s.removed = false → ∀ e, s.tx.sess.exch index = some e → s.Settles e)
    (hpc : pc = .waiting ∨ pc = .acquiring)
    (h : s.onPending index (some { s with pc }) (some (s.return_ (.ok ()))) = some s') :
    Inv index s' := by
  rcases onPending_cases h with ⟨-, rfl⟩ | ⟨hr, e, he, ⟨-, h⟩ | ⟨hnone, h⟩⟩
  · exact hI.fail _
  · cases h
    rcases hpc with rfl | rfl
    · exact hI.goto (fun e he => hwait hr e he) (by rintro ⟨⟩)
    · exact hI.goto (fun e he => .inr (hwait hr e he)) (by rintro ⟨⟩)
  · cases h
    exact hI.succeed ((hwait hr e he).acknowledged hnone)

theorem Inv.transmit (hI : Inv index s) (hbuild : build.Reliable) (hpc : s.pc = .acquiring)
    {e : ExchangeState} (he : s.tx.sess.exch index = some e) (howned : e.role.isOwned = true)
    (hwait : s.Awaits e)
    (hcount : ∀ r ∈ e.mrp.retrans, r.counter < mrpMaxTransmissions)
    (h : s.transmit sai index build = some s') : Inv index s' := by
  rw [SendRun.transmit] at h
  cases hb : build s.calls with
  | error code =>
    rw [hb] at h
    cases h
    exact hI.fail code
  | ok o =>
    obtain ⟨mm, payload, rfl, hrel⟩ := hbuild _ _ hb
    simp only [hb] at h
    cases hc : s.tx.sess.complete index mm payload sai with
    | none =>
      rw [hc] at h
      cases h
    | some res =>
      obtain ⟨sess, res⟩ := res
      rw [hc] at h
      cases res with
      | error code =>
        cases h
        exact hI.fail code
      | ok res =>
        obtain ⟨p, re⟩ := res
        obtain ⟨haddr, ⟨e', he', hrole, r', hr', hctr⟩, hold⟩ :=
          Session.retrans_complete hc he hrel hI.addr hcount
        have hsettles : (s.handOver sess p re).Settles e' := hwait.handOver hpc hr' hctr hold
        refine Inv.next ⟨?_, ?_, ?_⟩ ?_ (.inl rfl) h
        · exact (congrArg Address.isReliable haddr).trans hI.addr
        · intro _
          refine ⟨e', he', hrole ▸ howned, ?_⟩
          rw [Awaits, show (s.handOver sess p re).pc = .acquiring from hpc]
          exact .inr hsettles
        · intro hret
          have hret : s.pc = .returned (.ok ()) := hret
          rw [hpc] at hret
          cases hret
        · intro _ e₁ he₁
          have he₁ : sess.exch index = some e₁ := he₁
          rw [he'] at he₁
          cases he₁
          exact hsettles

theorem Inv.grant (hI : Inv index s) (hbuild : build.Reliable) (hpc : s.pc = .acquiring)
    (hok : s.Retries index .grant) (h : s.grant sai index build = some s') : Inv index s' := by
  rcases onPending_cases h with ⟨-, rfl⟩ | ⟨hr, e, he, hcases⟩
  · exact hI.fail _
  obtain ⟨e', he', howned, hwait⟩ := hI.exch hr
  rw [he] at he'
  cases he'
  rcases hcases with ⟨-, h⟩ | ⟨hnone, h⟩
  · exact hI.transmit hbuild hpc he howned hwait (hok hr e he) h
  · cases hinit : s.initial with
    | true =>
      rw [hinit] at h
      exact hI.transmit hbuild hpc he howned hwait (hok hr e he) h
    | false =>
      rw [hinit] at h
      cases h
      rw [Awaits, hpc] at hwait
      rcases hwait with ⟨hinit', -⟩ | hsettles
      · rw [hinit] at hinit'
        cases hinit'
      · exact hI.succeed (hsettles.acknowledged hnone)

theorem Inv.wake (hI : Inv index s) (hpc : s.pc = .waiting) (h : s.wake index = some s') :
    Inv index s' := by
  refine hI.next ?_ (.inr rfl) h
  intro hr e he
  obtain ⟨e', he', -, hwait⟩ := hI.exch hr
  rw [he] at he'
  cases he'
  rw [Awaits, hpc] at hwait
  exact hwait

theorem Awaits.imp {e e' : ExchangeState} (h : s.Awaits e) (hpc : s'.pc = s.pc)
    (hinit : s'.initial = s.initial) (hnone : e.mrp.retrans = none → e'.mrp.retrans = none)
    (hsettles : s.Settles e → s'.Settles e') : s'.Awaits e' := by
  rw [Awaits] at h ⊢
  rw [hpc, hinit]
  split
  · next hidle =>
    rw [hidle] at h
    exact h
  · next hacquiring =>
    rw [hacquiring] at h
    exact h.imp (And.imp_right hnone) hsettles
  · next hwaiting =>
    rw [hwaiting] at h
    exact hsettles h
  · trivial

theorem Acknowledged.mono (h : s.Acknowledged) (hfirst : s'.first = s.first)
    (hsub : s.received ⊆ s'.received) : s'.Acknowledged := by
  obtain ⟨ctr, hctr, rx, hrx, hack⟩ := h
  exact ⟨ctr, hfirst.trans hctr, rx, hsub hrx, hack⟩

/-- The session goes on with the exchange as it was, packets aside. -/
theorem Inv.keep {tx : TxRun} {e e' : ExchangeState} {received : List PacketHdr} (hI : Inv index s)
    (haddr : tx.sess.peerAddr.isReliable = false) (he' : tx.sess.exch index = some e')
    (howned : e'.role.isOwned = true) (hwait : s.Awaits e)
    (hsame : e'.mrp.retrans = e.mrp.retrans) (hsub : s.received ⊆ received) :
    Inv index { s with tx, received } := by
  refine ⟨haddr, fun _ => ⟨e', he', howned, hwait.imp rfl rfl ?_ ?_⟩, ?_⟩
  · exact hsame.trans
  · rintro ⟨hinit, hack | hpending⟩
    · exact ⟨hinit, .inl (hack.mono rfl hsub)⟩
    · exact ⟨hinit, .inr (hsame ▸ hpending)⟩
  · intro hret
    exact (hI.returned hret).mono rfl hsub

theorem Inv.acknowledge {tx : TxRun} {e e' : ExchangeState} {rx : PacketHdr} {r : RetransEntry}
    (hI : Inv index s) (haddr : tx.sess.peerAddr.isReliable = false)
    (he' : tx.sess.exch index = some e') (howned : e'.role.isOwned = true) (hwait : s.Awaits e)
    (hr : r ∈ e.mrp.retrans) (hack : rx.proto.getAck = some r.msgCtr) :
    Inv index { s with tx, received := rx :: s.received } := by
  refine ⟨haddr, fun _ => ⟨e', he', howned, hwait.imp rfl rfl ?_ ?_⟩, ?_⟩
  · intro hnone
    rw [hnone] at hr
    cases hr
  · rintro ⟨hinit, hold | ⟨r', hr', hfirst⟩⟩
    · exact ⟨hinit, .inl (hold.mono rfl (List.subset_cons_self ..))⟩
    · have hrr : r = r' := Option.mem_unique hr hr'
      exact ⟨hinit, .inl ⟨r'.msgCtr, hfirst, rx, List.mem_cons_self, hrr ▸ hack⟩⟩
  · intro hret
    exact (hI.returned hret).mono rfl (List.subset_cons_self ..)

theorem Inv.other {a : TxAction} (hI : Inv index s) (hother : a.isByOwner index = false)
    (h : s.other sai index a = some s') : Inv index s' := by
  rw [SendRun.other] at h
  cases hr : s.removed with
  | true =>
    rw [hr] at h
    cases h
    exact hI
  | false =>
    rw [if_neg (Bool.eq_false_iff.mp hr)] at h
    obtain ⟨e, he, howned, hwait⟩ := hI.exch hr
    cases hst : s.tx.step sai a with
    | none =>
      rw [hst] at h
      cases h
    | some tx =>
      have haddr : tx.sess.peerAddr.isReliable = false := by
        rw [TxRun.peerAddr_of_step hst]
        exact hI.addr
      rw [hst] at h
      dsimp only at h
      split at h
      · next rx nowMs =>
        cases h
        cases hst
        obtain ⟨e', he', hrole, hsame | ⟨hrx, r, hr, hack⟩⟩ := Session.answers_postRecv rx nowMs he
        · refine hI.keep haddr he' (hrole ▸ howned) hwait hsame ?_
          split
          · exact List.subset_cons_self ..
          · exact List.Subset.refl _
        · rw [hrx, if_pos rfl]
          exact hI.acknowledge haddr he' (hrole ▸ howned) hwait hr hack
      · next hrecv =>
        cases h
        have he' := TxRun.exch_of_step hst hother (fun rx nowMs heq => hrecv rx nowMs heq) he howned
        exact hI.keep haddr he' howned hwait rfl (List.Subset.refl _)

/-- **One step** keeps the invariant, unless it gives up on the message. -/
theorem Inv.step {a : SendAction} (hI : Inv index s) (hbuild : build.Reliable)
    (hok : s.Retries index a) (h : s.step sai index build a = some s') : Inv index s' := by
  cases a with
  | call =>
    rw [SendRun.step] at h
    split at h
    · next hpc => exact hI.call hpc h
    · cases h
  | grant =>
    rw [SendRun.step] at h
    split at h
    · next hpc => exact hI.grant hbuild hpc hok h
    · cases h
  | wake =>
    rw [SendRun.step] at h
    split at h
    · next hpc => exact hI.wake hpc h
    · cases h
  | sessionRemoved =>
    rw [SendRun.step] at h
    split at h
    · cases h
      split
      · exact hI.fail _
      · exact hI
    · cases h
  | remove =>
    cases h
    refine ⟨hI.addr, ?_, hI.returned⟩
    rintro ⟨⟩
  | other a =>
    rw [SendRun.step] at h
    split at h
    · cases h
    · next hother => exact hI.other (Bool.eq_false_iff.mpr hother) h

theorem inv_start {tx : TxRun} {e : ExchangeState} (haddr : tx.sess.peerAddr.isReliable = false)
    (he : tx.sess.exch index = some e) (howned : e.role.isOwned = true) : Inv index (start tx) :=
  ⟨haddr, fun _ => ⟨e, he, howned, rfl⟩, by rintro ⟨⟩⟩

/-- **Reliable sending.** A call that returns successfully has an acknowledgement of its message,
if it never gives up: whenever it transmits again, it has not transmitted as often as it may. -/
theorem acknowledged_of_retries {tx : TxRun} {e : ExchangeState} {as : List SendAction}
    (hbuild : build.Reliable) (haddr : tx.sess.peerAddr.isReliable = false)
    (he : tx.sess.exch index = some e) (howned : e.role.isOwned = true)
    (hok : (machine sai index build).Meets (Retries index) (start tx) as)
    (hrun : (machine sai index build).run (start tx) as = some s)
    (hret : s.pc = .returned (.ok ())) : s.Acknowledged := by
  have hI : Inv index s := Machine.invariant_of_meets
    (fun _ _ _ hok hI hst => hI.step hbuild hok hst) (inv_start haddr he howned) hok hrun
  exact hI.returned hret

/-- A session with one exchange, which we have initiated. -/
def oneExchange : TxRun := .start
  { Session.new 1 7 false (.udp ⟨.v4 0x7f000001#32, 5540⟩) none with
    mode := .case 1 []
    exchanges := [some ⟨1, .initiator .owned, .new⟩] }

/-- A message that asks for an acknowledgement. -/
def reliableMessage : Build := .send ⟨1, 2, true⟩ []

theorem reliable_reliableMessage : reliableMessage.Reliable := by
  rintro k o ⟨⟩
  exact ⟨_, _, rfl, rfl⟩

/-- A call whose message is acknowledged at once. -/
def answered : List SendAction :=
  [.call, .grant,
    .other (.recv ⟨{ PlainHdr.new with ctr := 1 },
      ({ ProtoHdr.new with exchId := 1 }).setAck (some 7)⟩ 0), .wake]

theorem acknowledged_answered :
    ∃ s, (machine none 0 reliableMessage).run (start oneExchange) answered = some s ∧
      s.pc = .returned (.ok ()) ∧ s.Acknowledged := by
  obtain ⟨s, hs⟩ := Option.isSome_iff_exists.mp (by decide +kernel :
    ((machine none 0 reliableMessage).run (start oneExchange) answered).isSome = true)
  have hpc : ((machine none 0 reliableMessage).run (start oneExchange) answered).map (·.pc) =
      some (.returned (.ok ())) := by decide +kernel
  rw [hs, Option.map_some, Option.some_inj] at hpc
  refine ⟨s, hs, hpc, ?_⟩
  exact acknowledged_of_retries reliable_reliableMessage rfl rfl rfl (by decide +kernel) hs hpc

/-- A call that transmits twelve times, without an answer. -/
def unanswered : List SendAction :=
  [SendAction.call, .grant] ++ (List.replicate 11 [SendAction.wake, .grant]).flatten

/-- The last transmission clears the pending message, and the call takes that for an
acknowledgement. -/
theorem succeeds_unacknowledged :
    ¬ ∀ (tx : TxRun) (e : ExchangeState) (sai : Option (BitVec 32)) (index : ℕ) (build : Build)
      (as : List SendAction) (s : SendRun), build.Reliable →
      tx.sess.peerAddr.isReliable = false → tx.sess.exch index = some e → e.role.isOwned = true →
      (machine sai index build).run (start tx) as = some s → s.pc = .returned (.ok ()) →
      s.Acknowledged := by
  intro h
  obtain ⟨s, hs⟩ := Option.isSome_iff_exists.mp (by decide +kernel :
    ((machine none 0 reliableMessage).run (start oneExchange) unanswered).isSome = true)
  have hpc : ((machine none 0 reliableMessage).run (start oneExchange) unanswered).map (·.pc) =
      some (.returned (.ok ())) := by decide +kernel
  have hrx : ((machine none 0 reliableMessage).run (start oneExchange) unanswered).map
      (·.received) = some [] := by decide +kernel
  rw [hs, Option.map_some, Option.some_inj] at hpc hrx
  obtain ⟨ctr, -, rx, hmem, -⟩ := h oneExchange _ none 0 _ unanswered s reliable_reliableMessage
    rfl rfl rfl hs hpc
  rw [hrx] at hmem
  cases hmem

end SendRun

end RsMatter
