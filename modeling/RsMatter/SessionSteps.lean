import RsMatter.Session

/-!
# What one receive and one send do to the pending messages

Two facts about `Session` carry every argument about retransmissions. Nothing but a
send makes a message pending (`Session.Keeps`, one lemma per operation), and a send
on an exchange goes out either under the counter of the message pending there, with
whatever header the moment gives it (`Session.preSend_pending`), or under a new
counter (`Session.preSend_fresh`).
-/

namespace RsMatter

/-! ## Slots -/

namespace Session

variable {s s' : Session} {i j : ℕ} {e : ExchangeState} {o : Option ExchangeState}

theorem lt_length_of_exch (h : s.exch i = some e) : i < s.exchanges.length := by
  by_contra hlt
  rw [exch, List.getElem?_eq_none (Nat.le_of_not_lt hlt)] at h
  cases h

theorem exch_setExch_self (h : i < s.exchanges.length) : (s.setExch i o).exch i = o := by
  rw [exch, setExch, List.getElem?_set_self h]
  rfl

theorem exch_setExch_ne (h : i ≠ j) : (s.setExch i o).exch j = s.exch j := by
  rw [exch, exch, setExch, List.getElem?_set_ne h]

theorem exch_setExch (h : (s.setExch i o).exch j = some e) :
    (i = j ∧ o = some e) ∨ s.exch j = some e := by
  by_cases hij : i = j
  · subst hij
    by_cases hlt : i < s.exchanges.length
    · rw [exch_setExch_self hlt] at h
      exact .inl ⟨rfl, h⟩
    · rw [exch, setExch, List.set_eq_of_length_le (Nat.le_of_not_lt hlt)] at h
      exact .inr h
  · rw [exch_setExch_ne hij] at h
    exact .inr h

theorem exch_addExch {exchId : BitVec 16} {role : Role}
    (ha : s.addExch exchId role = some (i, s')) (h : s'.exch j = some e) :
    (i = j ∧ e = ⟨exchId, role, .new⟩) ∨ s.exch j = some e := by
  rw [addExch] at ha
  split at ha
  · simp only [Option.some_inj, Prod.mk.injEq] at ha
    obtain ⟨rfl, rfl⟩ := ha
    rw [exch] at h
    simp only [List.getElem?_append, List.getElem?_singleton] at h
    by_cases hj : j < s.exchanges.length
    · rw [if_pos hj] at h
      exact .inr h
    · rw [if_neg hj] at h
      by_cases hz : j - s.exchanges.length = 0
      · rw [if_pos hz] at h
        simp only [Option.join_some, Option.some_inj] at h
        exact .inl ⟨by omega, h.symm⟩
      · rw [if_neg hz] at h
        cases h
  · cases hf : s.exchanges.findIdx? Option.isNone with
    | none =>
      rw [hf] at ha
      cases ha
    | some k =>
      rw [hf] at ha
      simp only [Option.some_inj, Prod.mk.injEq] at ha
      obtain ⟨rfl, rfl⟩ := ha
      rcases exch_setExch h with ⟨hk, ho⟩ | h
      · exact .inl ⟨hk, (Option.some_inj.mp ho).symm⟩
      · exact .inr h

/-! ## Pending messages never change hands

`Keeps s s'` says that `s'` is `s` up to messages that are no longer pending: the
parts that go into a plain header are the same, and whatever is pending in a slot
of `s'` was pending there in `s`, for the same exchange. -/

/-- `s'` has no pending message that `s` did not have in the same place. -/
structure Keeps (s s' : Session) : Prop where
  addr : s'.peerAddr = s.peerAddr
  plain : s'.txPlain = s.txPlain
  /-- pending messages were pending before -/
  pending : ∀ i e' r', s'.exch i = some e' → e'.mrp.retrans = some r' →
    ∃ e r, s.exch i = some e ∧ e.mrp.retrans = some r ∧ r'.msgCtr = r.msgCtr ∧
      e'.exchId = e.exchId ∧ e'.role.isInitiator = e.role.isInitiator

theorem Keeps.refl (s : Session) : Keeps s s :=
  ⟨rfl, rfl, fun _ e r he hr => ⟨e, r, he, hr, rfl, rfl, rfl⟩⟩

theorem Keeps.trans {s₁ s₂ s₃ : Session} (h₁ : Keeps s₁ s₂) (h₂ : Keeps s₂ s₃) :
    Keeps s₁ s₃ := by
  refine ⟨h₂.addr.trans h₁.addr, h₂.plain.trans h₁.plain, ?_⟩
  intro i e₃ r₃ he₃ hr₃
  obtain ⟨e₂, r₂, he₂, hr₂, hc, hid, hrole⟩ := h₂.pending i e₃ r₃ he₃ hr₃
  obtain ⟨e₁, r₁, he₁, hr₁, hc', hid', hrole'⟩ := h₁.pending i e₂ r₂ he₂ hr₂
  exact ⟨e₁, r₁, he₁, hr₁, hc.trans hc', hid.trans hid', hrole.trans hrole'⟩

/-- Overwriting a slot keeps pending messages if the new exchange is the old one, up
to a message that is no longer pending. -/
theorem keeps_setExch (ho : ∀ e' r', o = some e' → e'.mrp.retrans = some r' →
    ∃ e r, s.exch i = some e ∧ e.mrp.retrans = some r ∧ r'.msgCtr = r.msgCtr ∧
      e'.exchId = e.exchId ∧ e'.role.isInitiator = e.role.isInitiator) :
    Keeps s (s.setExch i o) := by
  refine ⟨rfl, rfl, ?_⟩
  intro j e' r' he' hr'
  rcases exch_setExch he' with ⟨rfl, heq⟩ | he'
  · exact ho e' r' heq hr'
  · exact ⟨e', r', he', hr', rfl, rfl, rfl⟩

theorem keeps_addExch {exchId : BitVec 16} {role : Role}
    (ha : s.addExch exchId role = some (i, s')) : Keeps s s' ∧ s'.msgCtr = s.msgCtr := by
  have hconst : s'.peerAddr = s.peerAddr ∧ s'.txPlain = s.txPlain ∧ s'.msgCtr = s.msgCtr := by
    rw [addExch] at ha
    split at ha
    · cases ha
      exact ⟨rfl, rfl, rfl⟩
    · split at ha
      · cases ha
        exact ⟨rfl, rfl, rfl⟩
      · cases ha
  refine ⟨⟨hconst.1, hconst.2.1, ?_⟩, hconst.2.2⟩
  intro j e' r' he' hr'
  rcases exch_addExch ha he' with ⟨-, rfl⟩ | he'
  · cases hr'
  · exact ⟨e', r', he', hr', rfl, rfl, rfl⟩

/-- An exchange after a receive: at most its pending message is gone. -/
theorem keeps_setExch_postRecv {rxPlain : PlainHdr} {rxProto : ProtoHdr} {nowMs : ℕ}
    {e' : ExchangeState} (he : s.exch i = some e)
    (hp : e.postRecv rxPlain rxProto nowMs = .ok e') : Keeps s (s.setExch i (some e')) := by
  rw [ExchangeState.postRecv] at hp
  cases hm : e.mrp.postRecv rxPlain rxProto nowMs with
  | error code =>
    rw [hm] at hp
    cases hp
  | ok mrp =>
    rw [hm] at hp
    cases hp
    refine keeps_setExch ?_
    rintro _ r' ⟨⟩ hr'
    rcases ReliableMessage.postRecv_retrans hm with hnone | hsame
    · rw [hnone] at hr'
      cases hr'
    · exact ⟨e, r', he, hsame ▸ hr', rfl, rfl, rfl⟩

/-- **Receiving** makes nothing pending and takes no counter. -/
theorem keeps_postRecv (s : Session) (rx : PacketHdr) (nowMs : ℕ) :
    Keeps s (s.postRecv rx nowMs).1 ∧ (s.postRecv rx nowMs).1.msgCtr = s.msgCtr := by
  have hwin : ∀ w, Keeps s { s with rxCtrState := w } := fun w =>
    ⟨rfl, rfl, fun i e r he hr => ⟨e, r, he, hr, rfl, rfl, rfl⟩⟩
  rw [postRecv]
  generalize s.rxCtrState.postRecv rx.plain.ctr s.isEncrypted = res
  obtain ⟨isNew, w⟩ := res
  simp only
  split
  · exact ⟨hwin w, rfl⟩
  split
  · -- an exchange of ours
    split
    · rename_i e he
      split
      · rename_i e' hp
        exact ⟨(hwin w).trans (keeps_setExch_postRecv he hp), rfl⟩
      · exact ⟨hwin w, rfl⟩
    · exact ⟨hwin w, rfl⟩
  · split
    · exact ⟨hwin w, rfl⟩
    split
    · -- a new exchange
      rename_i t ha
      obtain ⟨hk, hctr⟩ := keeps_addExch ha
      split
      · rename_i e he
        split
        · rename_i e' hp
          exact ⟨((hwin w).trans hk).trans (keeps_setExch_postRecv he hp), hctr⟩
        · exact ⟨(hwin w).trans hk, hctr⟩
      · exact ⟨(hwin w).trans hk, hctr⟩
    · exact ⟨hwin w, rfl⟩

theorem keeps_removeExch {b : Bool} (h : s.removeExch i = some (b, s')) :
    Keeps s s' ∧ s'.msgCtr = s.msgCtr := by
  rw [removeExch] at h
  cases he : s.exch i with
  | none =>
    rw [he] at h
    cases h
  | some e =>
    rw [he] at h
    simp only at h
    split at h
    · cases h
      refine ⟨keeps_setExch ?_, rfl⟩
      rintro _ r' ⟨⟩ hr'
      exact ⟨e, r', he, hr', rfl, rfl, Role.isInitiator_setDroppedState _⟩
    · cases h
      refine ⟨keeps_setExch ?_, rfl⟩
      rintro _ _ ⟨⟩

end Session

/-! ## The header of a message -/

/-- The protocol header of a message sent on an exchange over an unreliable network,
as a function of the meta-data and the acknowledged counter. -/
def ExchangeState.built (e : ExchangeState) (mm : MessageMeta) (ack : Option (BitVec 32)) :
    ProtoHdr :=
  match ack with
  | some ctr => (e.stamp (mm.setInto PacketHdr.reset.proto)).setAck (some ctr)
  | none => e.stamp (mm.setInto PacketHdr.reset.proto)

namespace ExchangeState

variable (e : ExchangeState) (mm : MessageMeta) (ack : Option (BitVec 32))

theorem isReliable_stamp (h : ProtoHdr) : (e.stamp h).isReliable = h.isReliable := by
  rw [stamp]
  cases e.role.isInitiator
  · exact h.isReliable_unsetInitiator
  · exact h.isReliable_setInitiator

theorem getAck_stamp (h : ProtoHdr) : (e.stamp h).getAck = h.getAck := by
  rw [stamp]
  cases e.role.isInitiator
  · exact h.getAck_unsetInitiator
  · exact h.getAck_setInitiator

theorem isReliable_built : (e.built mm ack).isReliable = mm.reliable := by
  cases ack with
  | some ctr => rw [built, ProtoHdr.isReliable_setAck, isReliable_stamp, mm.isReliable_setInto]
  | none => rw [built, isReliable_stamp, mm.isReliable_setInto]

theorem ofProto_built : MessageMeta.ofProto (e.built mm ack) = mm := by
  have hid : (e.built mm ack).protoId = mm.protoId ∧
      (e.built mm ack).protoOpcode = mm.protoOpcode := by
    obtain ⟨protoId, protoOpcode, reliable⟩ := mm
    cases ack <;> cases reliable <;> rw [built, stamp] <;> cases e.role.isInitiator <;>
      exact ⟨rfl, rfl⟩
  rw [MessageMeta.ofProto, hid.1, hid.2, isReliable_built]

theorem getAck_built : (e.built mm ack).getAck = ack := by
  cases ack with
  | some ctr => exact ProtoHdr.getAck_setAck ..
  | none =>
    rw [built, getAck_stamp, MessageMeta.getAck_setInto]
    rfl

theorem built_congr {e e' : ExchangeState} (hid : e'.exchId = e.exchId)
    (hrole : e'.role.isInitiator = e.role.isInitiator) : e'.built = e.built := by
  funext mm ack
  simp only [built, stamp, hid, hrole]

theorem piggyback_stamp :
    e.mrp.piggyback (e.stamp (mm.setInto PacketHdr.reset.proto)) = e.built mm e.mrp.ackCtr := by
  rw [ReliableMessage.piggyback, ReliableMessage.ackCtr]
  cases e.mrp.ack <;> rfl

end ExchangeState

/-! ## What one send does -/

namespace Session

variable {s s' : Session} {i : ℕ} {tx hdr : PacketHdr} {sai : Option (BitVec 32)}
  {addr : Address} {re : Bool}

theorem ctr_txPlain (s : Session) (plain : PlainHdr) (ctr : BitVec 32) :
    (s.txPlain plain ctr).ctr = ctr := by
  simp [txPlain]

/-- A packet outside any exchange takes a new counter and touches nothing else. -/
theorem preSend_none (h : s.preSend none tx sai = some (s', hdr, addr, re)) :
    re = false ∧ hdr.plain.ctr = s.msgCtr ∧ s' = { s with msgCtr := s.msgCtr + 1 } := by
  simp only [preSend, getMsgCtr, Option.some_inj, Prod.mk.injEq] at h
  obtain ⟨rfl, rfl, -, rfl⟩ := h
  exact ⟨rfl, ctr_txPlain .., rfl⟩

/-- On an exchange with a pending message everything goes out under the pending
counter. -/
theorem preSend_pending {e : ExchangeState} {r : RetransEntry} (he : s.exch i = some e)
    (hr : e.mrp.retrans = some r) (h : s.preSend (some i) tx sai = some (s', hdr, addr, re)) :
    re = true ∧ s'.msgCtr = s.msgCtr ∧ Keeps s s' ∧
      hdr = ⟨s.txPlain tx.plain r.msgCtr,
        e.mrp.piggyback (e.stamp (tx.proto.adjustReliability s.peerAddr))⟩ := by
  simp only [preSend, he, hr, Option.map_some, ExchangeState.preSend] at h
  split at h
  · cases h
  rename_i e' proto hp
  split at hp
  · rename_i mrp proto' hm
    cases hp
    cases h
    obtain ⟨hproto, hcases⟩ := ReliableMessage.preSend_cases hm
    refine ⟨rfl, rfl, keeps_setExch ?_, by rw [hproto]⟩
    rintro _ r' ⟨⟩ hr'
    -- the entry is the old one, counted up, or gone
    rcases hcases with ⟨-, hsame⟩ | ⟨r₀, r₁, hr₀, hr₁, hctr⟩ | hnone | ⟨-, hno, -⟩
    · exact ⟨e, r', he, hsame ▸ hr', rfl, rfl, rfl⟩
    · exact ⟨e, r₀, he, hr₀, by rw [← hctr, Option.some_inj.mp (hr₁.symm.trans hr')], rfl, rfl⟩
    · rw [hnone] at hr'
      cases hr'
    · rw [hr] at hno
      cases hno
  · cases hp

/-- On an exchange without one a new counter is taken; the message becomes pending
if it is reliable, which it can be over an unreliable network only. -/
theorem preSend_fresh {e : ExchangeState} (he : s.exch i = some e) (hr : e.mrp.retrans = none)
    (h : s.preSend (some i) tx sai = some (s', hdr, addr, re)) :
    re = false ∧ s'.msgCtr = s.msgCtr + 1 ∧
      hdr = ⟨s.txPlain tx.plain s.msgCtr,
        e.mrp.piggyback (e.stamp (tx.proto.adjustReliability s.peerAddr))⟩ ∧
      s'.peerAddr = s.peerAddr ∧ s'.txPlain = s.txPlain ∧
      ∀ j e' r', s'.exch j = some e' → e'.mrp.retrans = some r' →
        (s.exch j = some e') ∨
        (j = i ∧ r'.msgCtr = s.msgCtr ∧ e'.exchId = e.exchId ∧
          e'.role.isInitiator = e.role.isInitiator ∧
          tx.proto.isReliable = true ∧ s.peerAddr.isReliable = false) := by
  simp only [preSend, he, hr, Option.map_none, getMsgCtr, ExchangeState.preSend] at h
  split at h
  · cases h
  rename_i e' proto hp
  split at hp
  · rename_i mrp proto' hm
    cases hp
    cases h
    obtain ⟨hproto, hcases⟩ := ReliableMessage.preSend_cases hm
    refine ⟨rfl, rfl, by rw [hproto]; rfl, rfl, rfl, ?_⟩
    intro j e' r' he' hr'
    rcases exch_setExch he' with ⟨rfl, heq⟩ | he'
    · cases heq
      refine .inr ⟨rfl, ?_⟩
      rcases hcases with ⟨-, hsame⟩ | ⟨r₀, -, hr₀, -⟩ | hnone | ⟨hrel, -, hnew⟩
      · rw [hsame, hr] at hr'
        cases hr'
      · rw [hr] at hr₀
        cases hr₀
      · rw [hnone] at hr'
        cases hr'
      · rw [ReliableMessage.isReliable_piggyback, ExchangeState.isReliable_stamp,
          ProtoHdr.isReliable_adjustReliability, Bool.and_eq_true, Bool.not_eq_true'] at hrel
        rw [hnew] at hr'
        cases hr'
        exact ⟨ctr_txPlain .., rfl, rfl, hrel⟩
    · exact .inl he'
  · cases hp

end Session

end RsMatter
