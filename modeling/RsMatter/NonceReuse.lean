import RsMatter.Machine
import RsMatter.SessionSteps

/-!
# Counters, nonces and retransmissions

The AEAD nonce of a packet is its message counter (the other parts are constant for
a session), so two packets numbered alike must be the same packet. This module runs
one session through every order of receives and sends and characterises the runs
that keep this: exactly those in which every message sent on an exchange with a
pending retransmission *repeats* the pending packet (`TxRun.Repeats`): same
meta-data, same payload, and the same acknowledged counter.

The code does not enforce that condition. `Session.preSend` lends the pending
counter to anything sent on the exchange, a standalone acknowledgement included,
and the acknowledgement piggybacked on a retransmission is the one pending *now*.
-/

namespace RsMatter

inductive TxAction where
  | recv (rx : PacketHdr) (nowMs : ℕ)
  /-- the owner of an exchange sends a message, for the first time or again -/
  | complete (index : ℕ) (mm : MessageMeta) (payload : List UInt8)
  /-- the owner of an exchange acknowledges the last received message -/
  | acknowledge (index : ℕ)
  /-- the transport answers outside any exchange -/
  | writePacket (proto : ProtoHdr) (mm : MessageMeta) (payload : List UInt8)
  /-- the transport closes a dropped exchange, acknowledging what is unacknowledged -/
  | closeDropped (index : ℕ) (proto : ProtoHdr)
  | addExch (exchId : BitVec 16)
  /-- a pending exchange is accepted, or times out -/
  | accept (index : ℕ) (state : ResponderState)
  | removeExch (index : ℕ)

/-- A session together with the packets it has emitted, newest first, and the number
of counters it has taken. -/
structure TxRun where
  sess : Session
  sent : List TxPacket
  taken : ℕ

namespace TxRun

def emit (r : TxRun) (sess : Session) (p : TxPacket) (retransmission : Bool) : TxRun :=
  ⟨sess, p :: r.sent, if retransmission then r.taken else r.taken + 1⟩

/-- `TxMessage::complete` on the session of the run. -/
def complete (r : TxRun) (sai : Option (BitVec 32)) (index : ℕ) (mm : MessageMeta)
    (payload : List UInt8) : Option TxRun :=
  match r.sess.complete index mm payload sai with
  | some (sess, .ok (p, retransmission)) => some (r.emit sess p retransmission)
  | some (sess, .error _) => some { r with sess }
  | none => none

def start (sess : Session) : TxRun := ⟨sess, [], 0⟩

def step (sai : Option (BitVec 32)) (r : TxRun) : TxAction → Option TxRun
  | .recv rx nowMs => some { r with sess := (r.sess.postRecv rx nowMs).1 }
  | .complete index mm payload => r.complete sai index mm payload
  | .acknowledge index =>
    match r.sess.exch index with
    | some e =>
      if e.mrp.isAckPending then r.complete sai index .standaloneAck [] else some r
    | none => none
  | .writePacket proto mm payload =>
    match r.sess.writePacket none proto mm payload sai with
    | some (sess, p, retransmission) => some (r.emit sess p retransmission)
    | none => none
  | .closeDropped index proto =>
    match r.sess.exch index with
    | some e =>
      if e.role.isDroppedState && !e.mrp.isRetransPending then
        if e.mrp.isAckPending then
          match r.sess.writePacket (some index) proto .standaloneAck [] sai with
          | some (sess, p, retransmission) =>
            some (r.emit (sess.setExch index none) p retransmission)
          | none => none
        else
          some { r with sess := r.sess.setExch index none }
      else
        none
    | none => none
  | .addExch exchId =>
    match r.sess.addExch exchId (.initiator .owned) with
    | some (_, sess) => some { r with sess }
    | none => some r
  | .accept index state =>
    match r.sess.exch index with
    | some e =>
      if e.role = .responder .acceptPending then
        some { r with sess := r.sess.setExch index (some { e with role := .responder state }) }
      else
        none
    | none => none
  | .removeExch index =>
    match r.sess.removeExch index with
    | some (_, sess) => some { r with sess }
    | none => none

/-- The session as a machine; `sai` is the device's announced active interval. -/
def machine (sai : Option (BitVec 32)) : Machine TxRun TxAction := ⟨step sai⟩

/-- No counter was used for two different packets. -/
def NoReuse (r : TxRun) : Prop :=
  ∀ p ∈ r.sent, ∀ q ∈ r.sent, p.hdr.plain.ctr = q.hdr.plain.ctr → p = q

instance (r : TxRun) : Decidable r.NoReuse :=
  inferInstanceAs (Decidable (∀ p ∈ r.sent, ∀ q ∈ r.sent, _ → _))

/-- A message sent on an exchange with a pending retransmission is the pending one:
the packet emitted under the pending counter has its meta-data and payload, and
carries the acknowledgement that is pending now. -/
def RepeatsOn (r : TxRun) (index : ℕ) (mm : MessageMeta) (payload : List UInt8) : Prop :=
  ∀ e entry, r.sess.exch index = some e → e.mrp.retrans = some entry →
    ∀ p ∈ r.sent, p.hdr.plain.ctr = entry.msgCtr →
      mm = .ofProto p.hdr.proto ∧ payload = p.payload ∧ e.mrp.ackCtr = p.hdr.proto.getAck

/-- The condition on a step. It restrains only what the owner of an exchange sends. -/
def Repeats (r : TxRun) : TxAction → Prop
  | .complete index mm payload =>
    payload.length ≤ maxExchangeTxBufSize → r.RepeatsOn index mm payload
  | .acknowledge index =>
    (∃ e, r.sess.exch index = some e ∧ e.mrp.isAckPending = true) →
      r.RepeatsOn index .standaloneAck []
  | _ => True

/-! ## The invariant of every run -/

/-- What every run that starts with counter `ctr₀` knows: the counters taken are
`ctr₀, ctr₀ + 1, …`, and a pending message was emitted under the pending counter
with a header that only depends on its meta-data and acknowledged counter. -/
structure Inv (ctr₀ : BitVec 32) (r : TxRun) : Prop where
  next : r.sess.msgCtr = ctr₀ + BitVec.ofNat 32 r.taken
  /-- every emitted packet carries a counter taken before -/
  sent : ∀ p ∈ r.sent, ∃ k < r.taken, p.hdr.plain.ctr = ctr₀ + BitVec.ofNat 32 k
  pending : ∀ i e entry, r.sess.exch i = some e → e.mrp.retrans = some entry →
    r.sess.peerAddr.isReliable = false ∧ ∃ p ∈ r.sent, ∃ mm ack,
      p.hdr = ⟨r.sess.txPlain .new entry.msgCtr, e.built mm ack⟩

variable {ctr₀ : BitVec 32} {r r' : TxRun} {sess : Session} {p : TxPacket}

theorem Inv.quiet (hI : Inv ctr₀ r) (hk : r.sess.Keeps sess)
    (hctr : sess.msgCtr = r.sess.msgCtr) : Inv ctr₀ { r with sess } := by
  refine ⟨hctr.trans hI.next, hI.sent, ?_⟩
  intro i e' entry' he' hr'
  obtain ⟨e, entry, he, hr, hc, hid, hrole⟩ := hk.pending i e' entry' he' hr'
  obtain ⟨haddr, p, hp, mm, ack, hhdr⟩ := hI.pending i e entry he hr
  refine ⟨hk.addr ▸ haddr, p, hp, mm, ack, ?_⟩
  rw [hhdr, hk.plain, hc, ExchangeState.built_congr hid hrole]

/-- `sess` and `p` come from a send under the new counter `r.sess.msgCtr`: the only
message that can have become pending is `p`. -/
structure Fresh (r : TxRun) (sess : Session) (p : TxPacket) : Prop where
  next : sess.msgCtr = r.sess.msgCtr + 1
  ctr : p.hdr.plain.ctr = r.sess.msgCtr
  addr : sess.peerAddr = r.sess.peerAddr
  plain : sess.txPlain = r.sess.txPlain
  /-- pending messages were pending before, or are `p` -/
  pending : ∀ i e entry, sess.exch i = some e → e.mrp.retrans = some entry →
    r.sess.exch i = some e ∨
    (entry.msgCtr = r.sess.msgCtr ∧ r.sess.peerAddr.isReliable = false ∧ ∃ mm ack,
      p.hdr = ⟨r.sess.txPlain .new r.sess.msgCtr, e.built mm ack⟩)

theorem Inv.emit_fresh (hI : Inv ctr₀ r) (hf : r.Fresh sess p) :
    Inv ctr₀ (r.emit sess p false) := by
  refine ⟨?_, ?_, ?_⟩
  · show sess.msgCtr = ctr₀ + BitVec.ofNat 32 (r.taken + 1)
    rw [hf.next, hI.next, BitVec.ofNat_add, BitVec.add_assoc]
    rfl
  · intro q hq
    show ∃ k < r.taken + 1, _
    rcases List.mem_cons.mp hq with rfl | hq
    · exact ⟨r.taken, Nat.lt_succ_self _, hf.ctr.trans hI.next⟩
    · obtain ⟨k, hk, hc⟩ := hI.sent q hq
      exact ⟨k, Nat.lt_succ_of_lt hk, hc⟩
  · intro i e entry he hr
    show sess.peerAddr.isReliable = false ∧ ∃ q ∈ p :: r.sent, ∃ mm ack,
      q.hdr = ⟨sess.txPlain .new entry.msgCtr, e.built mm ack⟩
    rw [hf.addr, hf.plain]
    rcases hf.pending i e entry he hr with hold | ⟨hc, haddr, mm, ack, hhdr⟩
    · obtain ⟨haddr, q, hq, h⟩ := hI.pending i e entry hold hr
      exact ⟨haddr, q, List.mem_cons_of_mem _ hq, h⟩
    · exact ⟨haddr, p, List.mem_cons_self .., mm, ack, hc ▸ hhdr⟩

theorem Inv.emit_again (hI : Inv ctr₀ r) (hk : r.sess.Keeps sess)
    (hctr : sess.msgCtr = r.sess.msgCtr) {q : TxPacket} (hq : q ∈ r.sent)
    (hp : p.hdr.plain.ctr = q.hdr.plain.ctr) : Inv ctr₀ (r.emit sess p true) := by
  have hI' := hI.quiet hk hctr
  refine ⟨hI'.next, ?_, ?_⟩
  · intro q' hq'
    rcases List.mem_cons.mp hq' with rfl | hq'
    · rw [hp]
      exact hI.sent q hq
    · exact hI.sent q' hq'
  · intro i e entry he hr
    obtain ⟨haddr, q', hq', h⟩ := hI'.pending i e entry he hr
    exact ⟨haddr, q', List.mem_cons_of_mem _ hq', h⟩

/-! ## What one step does -/

/-- `r'` comes from sending `mm` and `payload` on an exchange with a pending message:
the packet goes out under the pending counter. -/
structure Again (r : TxRun) (index : ℕ) (mm : MessageMeta) (payload : List UInt8)
    (e : ExchangeState) (entry : RetransEntry) (sess : Session) (p : TxPacket) : Prop where
  exch : r.sess.exch index = some e
  pending : e.mrp.retrans = some entry
  keeps : r.sess.Keeps sess
  next : sess.msgCtr = r.sess.msgCtr
  packet : p = ⟨⟨r.sess.txPlain .new entry.msgCtr, e.mrp.piggyback
    (e.stamp ((mm.setInto PacketHdr.reset.proto).adjustReliability r.sess.peerAddr))⟩, payload⟩

variable {sai : Option (BitVec 32)} {payload : List UInt8}

theorem complete_cases {index : ℕ} {mm : MessageMeta}
    (h : r.complete sai index mm payload = some r') :
    (maxExchangeTxBufSize < payload.length ∧ r' = r) ∨
    (payload.length ≤ maxExchangeTxBufSize ∧ r.RepeatsOn index mm payload ∧
      ∃ sess p, r' = r.emit sess p false ∧ r.Fresh sess p) ∨
    (payload.length ≤ maxExchangeTxBufSize ∧ ∃ e entry sess p,
      r' = r.emit sess p true ∧ r.Again index mm payload e entry sess p) := by
  rw [complete, Session.complete] at h
  by_cases hlen : maxExchangeTxBufSize < payload.length
  · rw [if_pos hlen] at h
    cases h
    exact .inl ⟨hlen, rfl⟩
  rw [if_neg hlen] at h
  refine .inr ?_
  have hlen : payload.length ≤ maxExchangeTxBufSize := Nat.le_of_not_lt hlen
  cases hp : r.sess.preSend (some index)
      ⟨PacketHdr.reset.plain, mm.setInto PacketHdr.reset.proto⟩ sai with
  | none =>
    rw [hp] at h
    cases h
  | some res =>
    obtain ⟨sess, hdr, addr, re⟩ := res
    rw [hp] at h
    cases h
    cases he : r.sess.exch index with
    | none =>
      rw [Session.preSend, he] at hp
      cases hp
    | some e =>
      cases hr : e.mrp.retrans with
      | none =>
        obtain ⟨rfl, hnext, rfl, haddr, hplain, hpend⟩ := Session.preSend_fresh he hr hp
        refine .inl ⟨hlen, ?_, sess, _, rfl, hnext, Session.ctr_txPlain .., haddr, hplain, ?_⟩
        · intro e' entry he' hr'
          rw [he, Option.some_inj] at he'
          rw [← he', hr] at hr'
          cases hr'
        · intro j e' entry he' hr'
          rcases hpend j e' entry he' hr' with hold | ⟨-, hc, hid, hrole, -, hrel⟩
          · exact .inl hold
          · refine .inr ⟨hc, hrel, mm, e.mrp.ackCtr, ?_⟩
            rw [ExchangeState.built_congr hid hrole, ← ExchangeState.piggyback_stamp,
              ProtoHdr.adjustReliability, hrel]
            rfl
      | some entry =>
        obtain ⟨rfl, hnext, hk, rfl⟩ := Session.preSend_pending he hr hp
        exact .inr ⟨hlen, e, entry, sess, _, rfl, he, hr, hk, hnext, rfl⟩

variable {a : TxAction}

/-- The three ways a step of the session can go, with what each says about the step's
condition: nothing is sent or something new is, and the condition holds trivially;
or a pending counter is used again, and the condition is about that. -/
theorem step_cases (h : step sai r a = some r') :
    (r.Repeats a ∧ ∃ sess, r' = { r with sess } ∧ r.sess.Keeps sess ∧
      sess.msgCtr = r.sess.msgCtr) ∨
    (r.Repeats a ∧ ∃ sess p, r' = r.emit sess p false ∧ r.Fresh sess p) ∨
    ∃ index mm payload e entry sess p, r' = r.emit sess p true ∧
      r.Again index mm payload e entry sess p ∧ (r.Repeats a ↔ r.RepeatsOn index mm payload) := by
  cases a with
  | recv rx nowMs =>
    cases h
    obtain ⟨hk, hctr⟩ := Session.keeps_postRecv r.sess rx nowMs
    exact .inl ⟨trivial, _, rfl, hk, hctr⟩
  | complete index mm payload =>
    rcases complete_cases h with ⟨hlen, rfl⟩ | ⟨hlen, hrep, hf⟩ | ⟨hlen, e, entry, sess, p, h'⟩
    · exact .inl ⟨fun hle => absurd hlen (Nat.not_lt.mpr hle), r'.sess, rfl, .refl _, rfl⟩
    · exact .inr (.inl ⟨fun _ => hrep, hf⟩)
    · exact .inr (.inr ⟨index, mm, payload, e, entry, sess, p, h'.1, h'.2,
        ⟨fun hrep => hrep hlen, fun hrep _ => hrep⟩⟩)
  | acknowledge index =>
    rw [step] at h
    cases he : r.sess.exch index with
    | none =>
      rw [he] at h
      cases h
    | some e =>
      rw [he] at h
      simp only at h
      by_cases hack : e.mrp.isAckPending = true
      · rw [if_pos hack] at h
        rcases complete_cases h with ⟨hlen, -⟩ | ⟨-, hrep, hf⟩ | ⟨-, e', entry, sess, p, h'⟩
        · exact absurd hlen (Nat.not_lt_zero _)
        · exact .inr (.inl ⟨fun _ => hrep, hf⟩)
        · exact .inr (.inr ⟨index, .standaloneAck, [], e', entry, sess, p, h'.1, h'.2,
            ⟨fun hrep => hrep ⟨e, he, hack⟩, fun hrep _ => hrep⟩⟩)
      · rw [if_neg hack] at h
        cases h
        refine .inl ⟨?_, r.sess, rfl, .refl _, rfl⟩
        rintro ⟨e', he', hack'⟩
        rw [he, Option.some_inj] at he'
        exact absurd (he' ▸ hack') hack
  | writePacket proto mm payload =>
    rw [step, Session.writePacket] at h
    cases hp : r.sess.preSend none ⟨.new, mm.setInto proto⟩ sai with
    | none =>
      rw [hp] at h
      cases h
    | some res =>
      obtain ⟨sess, hdr, addr, re⟩ := res
      rw [hp] at h
      cases h
      obtain ⟨rfl, hctr, rfl⟩ := Session.preSend_none hp
      exact .inr (.inl ⟨trivial, _, _, rfl, rfl, hctr, rfl, rfl, fun i e entry he _ => .inl he⟩)
  | closeDropped index proto =>
    rw [step] at h
    cases he : r.sess.exch index with
    | none =>
      rw [he] at h
      cases h
    | some e =>
      rw [he] at h
      simp only at h
      split at h
      · rename_i hcond
        split at h
        · -- the acknowledgement goes out under a new counter, as nothing is pending
          have hr : e.mrp.retrans = none := by
            simp only [ReliableMessage.isRetransPending, Bool.and_eq_true, Bool.not_eq_true',
              Option.isSome_eq_false_iff, Option.isNone_iff_eq_none] at hcond
            exact hcond.2
          rw [Session.writePacket] at h
          cases hp : r.sess.preSend (some index)
              ⟨.new, MessageMeta.standaloneAck.setInto proto⟩ sai with
          | none =>
            rw [hp] at h
            cases h
          | some res =>
            obtain ⟨sess, hdr, addr, re⟩ := res
            rw [hp] at h
            cases h
            obtain ⟨rfl, hnext, rfl, haddr, hplain, hpend⟩ := Session.preSend_fresh he hr hp
            refine .inr (.inl ⟨trivial, _, _, rfl, hnext, Session.ctr_txPlain .., haddr, hplain,
              ?_⟩)
            intro j e' entry he' hr'
            rcases Session.exch_setExch he' with ⟨-, hno⟩ | he'
            · cases hno
            · rcases hpend j e' entry he' hr' with hold | ⟨-, -, -, -, hrel, -⟩
              · exact .inl hold
              · rw [MessageMeta.isReliable_setInto] at hrel
                cases hrel
        · cases h
          refine .inl ⟨trivial, _, rfl, Session.keeps_setExch ?_, rfl⟩
          rintro e' r' ⟨⟩
      · cases h
  | addExch exchId =>
    rw [step] at h
    cases ha : r.sess.addExch exchId (.initiator .owned) with
    | none =>
      rw [ha] at h
      cases h
      exact .inl ⟨trivial, r.sess, rfl, .refl _, rfl⟩
    | some res =>
      obtain ⟨index, sess⟩ := res
      rw [ha] at h
      cases h
      obtain ⟨hk, hctr⟩ := Session.keeps_addExch ha
      exact .inl ⟨trivial, sess, rfl, hk, hctr⟩
  | accept index state =>
    rw [step] at h
    cases he : r.sess.exch index with
    | none =>
      rw [he] at h
      cases h
    | some e =>
      rw [he] at h
      simp only at h
      split at h
      · rename_i hrole
        cases h
        refine .inl ⟨trivial, _, rfl, Session.keeps_setExch ?_, rfl⟩
        rintro _ r' ⟨⟩ hr'
        exact ⟨e, r', he, hr', rfl, rfl, by rw [hrole]; rfl⟩
      · cases h
  | removeExch index =>
    rw [step] at h
    cases hd : r.sess.removeExch index with
    | none =>
      rw [hd] at h
      cases h
    | some res =>
      obtain ⟨closed, sess⟩ := res
      rw [hd] at h
      cases h
      obtain ⟨hk, hctr⟩ := Session.keeps_removeExch hd
      exact .inl ⟨trivial, sess, rfl, hk, hctr⟩

/-- A pending message was emitted, so a packet under the pending counter is there. -/
theorem Inv.exists_pending (hI : Inv ctr₀ r) {index : ℕ} {mm : MessageMeta}
    {e : ExchangeState} {entry : RetransEntry}
    (ha : r.Again index mm payload e entry sess p) :
    p.hdr = ⟨r.sess.txPlain .new entry.msgCtr, e.built mm e.mrp.ackCtr⟩ ∧
      ∃ q ∈ r.sent, ∃ mm' ack, q.hdr = ⟨r.sess.txPlain .new entry.msgCtr, e.built mm' ack⟩ := by
  obtain ⟨haddr, hq⟩ := hI.pending index e entry ha.exch ha.pending
  refine ⟨?_, hq⟩
  rw [ha.packet, ← ExchangeState.piggyback_stamp, ProtoHdr.adjustReliability, haddr]
  rfl

/-- **One step** keeps the invariant. -/
theorem Inv.step (hI : Inv ctr₀ r)
    (h : TxRun.step sai r a = some r') : Inv ctr₀ r' := by
  rcases step_cases h with ⟨-, sess, rfl, hk, hctr⟩ | ⟨-, sess, p, rfl, hf⟩ |
    ⟨index, mm, payload, e, entry, sess, p, rfl, ha, -⟩
  · exact hI.quiet hk hctr
  · exact hI.emit_fresh hf
  · obtain ⟨hhdr, q, hq, mm', ack, hq'⟩ := hI.exists_pending ha
    refine hI.emit_again ha.keeps ha.next hq ?_
    rw [hhdr, hq']

theorem taken_le_step (h : step sai r a = some r') :
    r.taken ≤ r'.taken := by
  rcases step_cases h with ⟨-, sess, rfl, -⟩ | ⟨-, sess, p, rfl, -⟩ |
    ⟨index, mm, payload, e, entry, sess, p, rfl, -⟩
  · exact Nat.le_refl _
  · exact Nat.le_succ _
  · exact Nat.le_refl _

/-- Emitting a packet keeps counters apart exactly if it is the only packet, or an
exact copy of the packets, under its counter. -/
theorem noReuse_emit {re : Bool} :
    (r.emit sess p re).NoReuse ↔
      r.NoReuse ∧ ∀ q ∈ r.sent, q.hdr.plain.ctr = p.hdr.plain.ctr → q = p := by
  constructor
  · intro h
    refine ⟨fun q hq q' hq' => h q (List.mem_cons_of_mem _ hq) q' (List.mem_cons_of_mem _ hq'), ?_⟩
    intro q hq hc
    exact h q (List.mem_cons_of_mem _ hq) p (List.mem_cons_self ..) hc
  · rintro ⟨h, hp⟩ q hq q' hq' hc
    rcases List.mem_cons.mp hq with rfl | hold
    · rcases List.mem_cons.mp hq' with rfl | hold'
      · rfl
      · exact (hp q' hold' hc.symm).symm
    · rcases List.mem_cons.mp hq' with rfl | hold'
      · exact hp q hold hc
      · exact h q hold q' hold' hc

/-- A counter taken before is not the next one, before the counter wraps. -/
theorem Inv.ctr_ne_next (hI : Inv ctr₀ r) (hlt : r.taken < 2 ^ 32) :
    ∀ q ∈ r.sent, q.hdr.plain.ctr ≠ r.sess.msgCtr := by
  intro q hq hc
  obtain ⟨k, hk, hck⟩ := hI.sent q hq
  rw [hck, hI.next] at hc
  have hnat := congrArg BitVec.toNat ((BitVec.add_right_inj ctr₀).mp hc)
  rw [BitVec.toNat_ofNat, BitVec.toNat_ofNat, Nat.mod_eq_of_lt (Nat.lt_trans hk hlt),
    Nat.mod_eq_of_lt hlt] at hnat
  omega

/-- A message on an exchange with a pending one repeats it exactly if the packet
that goes out equals the packets emitted under the pending counter. -/
theorem Inv.repeatsOn_iff (hI : Inv ctr₀ r) (hno : r.NoReuse) {index : ℕ} {mm : MessageMeta}
    {e : ExchangeState} {entry : RetransEntry}
    (ha : r.Again index mm payload e entry sess p) :
    r.RepeatsOn index mm payload ↔
      ∀ q ∈ r.sent, q.hdr.plain.ctr = p.hdr.plain.ctr → q = p := by
  obtain ⟨hhdr, q₀, hq₀, mm₀, ack₀, hhdr₀⟩ := hI.exists_pending ha
  have hpay : p.payload = payload := by rw [ha.packet]
  have hctr : p.hdr.plain.ctr = entry.msgCtr := by rw [hhdr, Session.ctr_txPlain]
  have hctr₀ : q₀.hdr.plain.ctr = entry.msgCtr := by rw [hhdr₀, Session.ctr_txPlain]
  constructor
  · intro hrep q hq hc
    rw [hno q hq q₀ hq₀ (by rw [hc, hctr, hctr₀])]
    obtain ⟨hmm, hpl, hack⟩ := hrep e entry ha.exch ha.pending q₀ hq₀ hctr₀
    rw [hhdr₀, ExchangeState.ofProto_built] at hmm
    rw [hhdr₀, ExchangeState.getAck_built] at hack
    have hsame : q₀.hdr = p.hdr := by rw [hhdr₀, hhdr, hmm, hack]
    calc q₀ = ⟨q₀.hdr, q₀.payload⟩ := rfl
      _ = ⟨p.hdr, p.payload⟩ := by rw [hsame, ← hpl, hpay]
      _ = p := rfl
  · intro heq e' entry' he' hr' q hq hc
    rw [ha.exch, Option.some_inj] at he'
    subst he'
    rw [ha.pending, Option.some_inj] at hr'
    subst hr'
    have hqp : q = p := heq q hq (by rw [hc, hctr])
    rw [hqp, hhdr, ExchangeState.ofProto_built, ExchangeState.getAck_built, hpay]
    exact ⟨rfl, rfl, rfl⟩

/-- **One step** keeps counters apart exactly if it meets the condition. -/
theorem noReuse_step (hI : Inv ctr₀ r)
    (h : step sai r a = some r') (hcount : r'.taken ≤ 2 ^ 32) :
    r'.NoReuse ↔ r.NoReuse ∧ r.Repeats a := by
  rcases step_cases h with ⟨hrep, sess, rfl, -, -⟩ | ⟨hrep, sess, p, rfl, hf⟩ |
    ⟨index, mm, payload, e, entry, sess, p, rfl, ha, hiff⟩
  · exact ⟨fun hno => ⟨hno, hrep⟩, fun hno => hno.1⟩
  · rw [noReuse_emit]
    refine and_congr_right fun _ => ⟨fun _ => hrep, fun _ q hq hc => ?_⟩
    exact absurd (hc.trans hf.ctr) (hI.ctr_ne_next hcount q hq)
  · rw [noReuse_emit, hiff]
    exact and_congr_right fun hno => (hI.repeatsOn_iff hno ha).symm

theorem noReuse_run {as : List TxAction} (hI : Inv ctr₀ r)
    (hrun : (machine sai).run r as = some r') (hcount : r'.taken ≤ 2 ^ 32) :
    r.taken ≤ r'.taken ∧ (r'.NoReuse ↔ r.NoReuse ∧ (machine sai).Meets Repeats r as) := by
  induction as generalizing r with
  | nil =>
    rw [Machine.run_nil, Option.some_inj] at hrun
    subst hrun
    exact ⟨Nat.le_refl _, ⟨fun h => ⟨h, trivial⟩, fun h => h.1⟩⟩
  | cons a as ih =>
    obtain ⟨t, hst, hrun⟩ := Machine.run_cons_eq_some.mp hrun
    obtain ⟨hle, hiff⟩ := ih (hI.step hst) hrun
    refine ⟨Nat.le_trans (taken_le_step hst) hle, ?_⟩
    rw [hiff, noReuse_step hI hst (Nat.le_trans hle hcount), and_assoc, Machine.meets_cons hst]

theorem inv_start {sess : Session} (hempty : sess.exchanges = []) :
    Inv sess.msgCtr (start sess) := by
  refine ⟨(BitVec.add_zero _).symm, fun p hp => absurd hp List.not_mem_nil, ?_⟩
  intro i e entry he
  rw [Session.exch, start, hempty] at he
  cases he

/-- **Nonces.** A run of a session that has taken at most `2 ^ 32` counters emits one
packet per counter exactly if every message sent on an exchange with a pending
retransmission repeats the pending packet; and then a nonce determines what is
authenticated and encrypted under it. -/
theorem noReuse_iff_repeats {sai : Option (BitVec 32)} {sess : Session} {as : List TxAction}
    {r : TxRun} (hempty : sess.exchanges = [])
    (hrun : (machine sai).run (start sess) as = some r) (hcount : r.taken ≤ 2 ^ 32) :
    (r.NoReuse ↔ (machine sai).Meets Repeats (start sess) as) ∧
    (r.NoReuse → ∀ p ∈ r.sent, ∀ q ∈ r.sent, ∀ localNodeid,
      p.nonce localNodeid = q.nonce localNodeid → p.aad = q.aad ∧ p.plaintext = q.plaintext) := by
  constructor
  · rw [(noReuse_run (inv_start hempty) hrun hcount).2]
    exact ⟨fun h => h.2, fun h => ⟨fun p hp => absurd hp List.not_mem_nil, h⟩⟩
  · intro hno p hp q hq localNodeid hn
    rw [hno p hp q hq (TxPacket.ctr_eq_of_nonce_eq hn)]
    exact ⟨rfl, rfl⟩

/-! ## Two runs that use a counter twice -/

def caseSession : Session :=
  { Session.new 1#32 100#32 false (.udp ⟨.v4 0x7f000001#32, 5540#16⟩) (some 2#64) with
    localNodeid := 1, peerSessId := 3, localSessId := 4, mode := .case 1 [] }

/-- A reliable message of the peer on exchange `7`, which the peer initiated. -/
def peerMsg (ctr : BitVec 32) : PacketHdr :=
  ⟨{ PlainHdr.new with sessId := 4, ctr := ctr },
    ⟨7, ExchFlags.reliable ||| ExchFlags.initiator, 1, 2, 0, 0⟩⟩

def answer : TxAction := .complete 0 ⟨1, 5, true⟩ [0x15, 0x18]

/-- The answer is sent, another reliable message of the peer arrives, the answer is
sent again. -/
def newAckRun : List TxAction := [.recv (peerMsg 1) 0, answer, .recv (peerMsg 2) 0, answer]

/-- The same, with a standalone acknowledgement in place of the second answer. -/
def standaloneAckRun : List TxAction :=
  [.recv (peerMsg 1) 0, answer, .recv (peerMsg 2) 0, .acknowledge 0]

/-- One counter, two acknowledged counters; and one counter, two messages. -/
theorem counter_used_twice :
    (∃ r, (machine none).run (start caseSession) newAckRun = some r ∧ r.taken = 1 ∧
      r.sent.map (fun p => (p.hdr.plain.ctr, p.hdr.proto.getAck, p.payload)) =
        [(100#32, some 2#32, [0x15, 0x18]), (100#32, some 1#32, [0x15, 0x18])] ∧
      ¬ r.NoReuse) ∧
    ∃ r, (machine none).run (start caseSession) standaloneAckRun = some r ∧ r.taken = 1 ∧
      r.sent.map (fun p => (p.hdr.plain.ctr, p.payload)) =
        [(100#32, []), (100#32, [0x15, 0x18])] ∧
      ¬ r.NoReuse :=
  ⟨⟨_, rfl, rfl, rfl, by decide⟩, ⟨_, rfl, rfl, rfl, by decide⟩⟩

/-- A run that repeats its answer without anything in between. -/
def repeatRun : List TxAction := [.recv (peerMsg 1) 0, answer, answer]

theorem noReuse_repeatRun :
    ∃ r, (machine none).run (start caseSession) repeatRun = some r ∧ r.sent.length = 2 ∧
      (r.NoReuse ↔ (machine none).Meets Repeats (start caseSession) repeatRun) ∧ r.NoReuse :=
  ⟨_, rfl, rfl, (@noReuse_iff_repeats none caseSession repeatRun _ rfl rfl (by decide)).1,
    by decide⟩

end TxRun

end RsMatter
