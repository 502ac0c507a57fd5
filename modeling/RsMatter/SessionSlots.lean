import Mathlib.Logic.Function.Basic
import RsMatter.SessionKeys
import RsMatter.SessionSteps

/-!
# The slots of sessions (`transport/session.rs`)

An exchange lives in a slot of its session, and the slot is all that its owner knows of it.
What one operation does to the slots of a session is said once here, in terms of the function
from slots to exchanges (`Session.exch`): it goes on with an exchange in its slot, opens one in a
free slot, or frees a slot.

What a step of the table does to the sessions is said in the same way (`KeyedSessions.Evolves`):
every session that is there afterwards is a session from before, with its slots changed by at
most one packet of the peer, or a new one with one of the next two internal ids.
-/

namespace RsMatter

/-! ## The slots of one session -/

def Role.isOwned : Role → Bool
  | initiator state => state == .owned
  | responder state => state == .owned

/-- An exchange and what becomes of it while nobody accepts or drops it. -/
structure ExchangeState.Continues (e e' : ExchangeState) : Prop where
  exchId : e'.exchId = e.exchId
  role : e'.role = e.role

theorem ExchangeState.Continues.refl (e : ExchangeState) : e.Continues e := ⟨rfl, rfl⟩

namespace ExchangeState

variable {e e' : ExchangeState}

theorem continues_postRecv {plain : PlainHdr} {proto : ProtoHdr} {nowMs : ℕ}
    (h : e.postRecv plain proto nowMs = .ok e') : e.Continues e' := by
  rw [postRecv] at h
  split at h
  · cases h
    exact ⟨rfl, rfl⟩
  · cases h

theorem continues_preSend {plain : PlainHdr} {proto proto' : ProtoHdr} {sai : Option (BitVec 32)}
    (h : e.preSend plain proto sai = some (e', proto')) : e.Continues e' := by
  rw [preSend] at h
  split at h
  · cases h
    exact ⟨rfl, rfl⟩
  · cases h

theorem exists_preSend (e : ExchangeState) (plain : PlainHdr) (proto : ProtoHdr)
    (sai : Option (BitVec 32)) (h : ∀ r, e.mrp.retrans = some r → r.msgCtr = plain.ctr) :
    ∃ e' proto', e.preSend plain proto sai = some (e', proto') := by
  rw [preSend, ReliableMessage.preSend]
  split
  · next m p hm => exact ⟨_, _, rfl⟩
  · next hm =>
    split at hm
    · split at hm
      · next r hr =>
        rw [RetransEntry.preSend, if_pos (h r hr)] at hm
        by_cases hcount : r.counter < mrpMaxTransmissions
        · rw [if_pos hcount] at hm
          cases hm
        · rw [if_neg hcount] at hm
          cases hm
      · cases hm
    · cases hm

theorem postRecv_new (exchId : BitVec 16) (role : Role) (plain : PlainHdr) (proto : ProtoHdr)
    (nowMs : ℕ) : ∃ e, postRecv ⟨exchId, role, .new⟩ plain proto nowMs = .ok e := by
  rw [postRecv, ReliableMessage.postRecv, ReliableMessage.new]
  cases proto.getAck <;> exact ⟨_, rfl⟩

end ExchangeState

namespace Session

variable {s s' : Session} {i : ℕ} {e : ExchangeState}

theorem exch_setExch_eq (h : i < s.exchanges.length) (o : Option ExchangeState) :
    (s.setExch i o).exch = Function.update s.exch i o := by
  funext j
  by_cases hij : j = i
  · subst hij
    rw [Function.update_self, exch_setExch_self h]
  · rw [Function.update_of_ne hij, exch_setExch_ne (Ne.symm hij)]

theorem exch_of_addExch {exchId : BitVec 16} {role : Role}
    (h : s.addExch exchId role = some (i, s')) :
    s.exch i = none ∧ i < s'.exchanges.length ∧ s'.id = s.id ∧
      s'.exch = Function.update s.exch i (some ⟨exchId, role, .new⟩) := by
  rw [addExch] at h
  split at h
  · cases h
    refine ⟨?_, by simp, rfl, ?_⟩
    · rw [exch, List.getElem?_eq_none (Nat.le_refl _)]
      rfl
    · funext j
      rw [exch]
      by_cases hj : j = s.exchanges.length
      · subst hj
        rw [Function.update_self, List.getElem?_concat_length]
        rfl
      · rw [Function.update_of_ne hj, exch]
        rcases Nat.lt_or_gt_of_ne hj with hlt | hgt
        · rw [List.getElem?_append_left hlt]
        · rw [List.getElem?_eq_none (by simp; omega), List.getElem?_eq_none (by omega)]
  · split at h
    · next k hk =>
      cases h
      obtain ⟨hlt, hnone, -⟩ := List.findIdx?_eq_some_iff_getElem.mp hk
      refine ⟨?_, by rwa [setExch, List.length_set], rfl, exch_setExch_eq hlt _⟩
      rw [exch, List.getElem?_eq_getElem hlt, Option.isNone_iff_eq_none.mp hnone]
      rfl
    · cases h

/-- Sending on an exchange never fails: the exchange goes on in its slot, and nothing else changes
but the counter. -/
theorem preSend_of_exch (he : s.exch i = some e) (tx : PacketHdr) (sai : Option (BitVec 32)) :
    ∃ s' hdr re e', s.preSend (some i) tx sai = some (s', hdr, s.peerAddr, re) ∧
      e.Continues e' ∧
      s' = { s with exchanges := s.exchanges.set i (some e'), msgCtr := s'.msgCtr } := by
  simp only [preSend, he]
  cases hr : e.mrp.retrans with
  | none =>
    obtain ⟨e', proto, hsend⟩ := e.exists_preSend (s.txPlain tx.plain s.msgCtr)
      (tx.proto.adjustReliability s.peerAddr) sai fun r h => by
        rw [hr] at h
        cases h
    have hsend' : e.preSend ({ s with msgCtr := s.msgCtr + 1 }.txPlain tx.plain s.msgCtr)
        (tx.proto.adjustReliability s.peerAddr) sai = some (e', proto) := hsend
    simp only [Option.map_none, getMsgCtr, hsend']
    exact ⟨_, _, _, e', rfl, ExchangeState.continues_preSend hsend, rfl⟩
  | some r =>
    obtain ⟨e', proto, hsend⟩ := e.exists_preSend (s.txPlain tx.plain r.msgCtr)
      (tx.proto.adjustReliability s.peerAddr) sai fun r' h => by
        rw [hr] at h
        cases h
        exact (ctr_txPlain ..).symm
    simp only [Option.map_some, hsend]
    exact ⟨_, _, _, e', rfl, ExchangeState.continues_preSend hsend, rfl⟩

/-- What a packet of the peer can do to the slots. -/
inductive Heard (s : Session) (rxProto : ProtoHdr) (s' : Session) : Prop where
  | refused (h : s'.exch = s.exch)
  | taken (i : ℕ) (e e' : ExchangeState) (he : s.exch i = some e) (hc : e.Continues e')
    (h : s'.exch = Function.update s.exch i (some e'))
  /-- no exchange is for the packet, and one is opened -/
  | opened (i : ℕ) (e' : ExchangeState) (hfree : s.exch i = none)
    (hnone : ∀ j e, s.exch j = some e → e.isForRx rxProto = false)
    (hinit : rxProto.isInitiator = true)
    (hc : ExchangeState.Continues ⟨rxProto.exchId, .responder .acceptPending, .new⟩ e')
    (h : s'.exch = Function.update s.exch i (some e'))

theorem isForRx_of_getExchForRx {rxProto : ProtoHdr} (h : s.getExchForRx rxProto = none)
    {j : ℕ} (he : s.exch j = some e) : e.isForRx rxProto = false := by
  rw [getExchForRx, List.findIdx?_eq_none_iff] at h
  have hlt := lt_length_of_exch he
  rw [exch, List.getElem?_eq_getElem hlt, Option.join_some] at he
  have hany := h _ (List.getElem_mem hlt)
  rw [he] at hany
  exact hany

theorem exch_of_findIdx? (s : Session) {p : ExchangeState → Bool}
    (h : s.exchanges.findIdx? (·.any p) = some i) : ∃ e, s.exch i = some e ∧ p e = true := by
  obtain ⟨hlt, hany, -⟩ := List.findIdx?_eq_some_iff_getElem.mp h
  cases hslot : s.exchanges[i] with
  | none =>
    rw [hslot] at hany
    cases hany
  | some e =>
    rw [hslot] at hany
    refine ⟨e, ?_, hany⟩
    rw [exch, List.getElem?_eq_getElem hlt, hslot]
    rfl

theorem exch_of_getExchForRx {rxProto : ProtoHdr} (h : s.getExchForRx rxProto = some i) :
    ∃ e, s.exch i = some e ∧ e.isForRx rxProto = true :=
  s.exch_of_findIdx? h

/-- **Receiving**, slot by slot. -/
theorem heard_postRecv (s : Session) (rx : PacketHdr) (nowMs : ℕ) :
    (s.postRecv rx nowMs).1.id = s.id ∧ s.Heard rx.proto (s.postRecv rx nowMs).1 := by
  rw [postRecv]
  generalize s.rxCtrState.postRecv rx.plain.ctr s.isEncrypted = res
  obtain ⟨isNew, w⟩ := res
  dsimp only
  split
  · exact ⟨rfl, .refused rfl⟩
  split
  · next i hi =>
    split
    · next e he =>
      split
      · next e' hp =>
        exact ⟨rfl, .taken i e e' he (ExchangeState.continues_postRecv hp)
          (exch_setExch_eq (lt_length_of_exch he) _)⟩
      · exact ⟨rfl, .refused rfl⟩
    · exact ⟨rfl, .refused rfl⟩
  · next hnone =>
    split
    · exact ⟨rfl, .refused rfl⟩
    · next hnew =>
      split
      · next i t ha =>
        obtain ⟨hfree, hlt, hid, hexch⟩ := exch_of_addExch ha
        have hslot : t.exch i = some ⟨rx.proto.exchId, .responder .acceptPending, .new⟩ := by
          rw [hexch, Function.update_self]
        rw [hslot]
        obtain ⟨e', he'⟩ := ExchangeState.postRecv_new rx.proto.exchId (.responder .acceptPending)
          rx.plain rx.proto nowMs
        simp only [he']
        have hinit : rx.proto.isInitiator = true := by
          rw [Bool.or_eq_true, not_or] at hnew
          simpa using hnew.1
        refine ⟨hid, .opened i e' hfree (fun j e he => isForRx_of_getExchForRx hnone he) hinit
          (ExchangeState.continues_postRecv he') ?_⟩
        rw [exch_setExch_eq hlt, hexch, Function.update_idem]
        rfl
      · exact ⟨rfl, .refused rfl⟩

theorem length_addExch {exchId : BitVec 16} {role : Role} (hlen : s.exchanges.length ≤ maxExchanges)
    (h : s.addExch exchId role = some (i, s')) :
    s'.exchanges.length ≤ maxExchanges ∧ i < maxExchanges := by
  have hlt := (exch_of_addExch h).2.1
  suffices hle : s'.exchanges.length ≤ maxExchanges by exact ⟨hle, Nat.lt_of_lt_of_le hlt hle⟩
  rw [addExch] at h
  split at h
  · next hroom =>
    cases h
    rw [List.length_append]
    exact hroom
  · split at h
    · cases h
      rw [setExch, List.length_set]
      exact hlen
    · cases h

theorem length_postRecv (rx : PacketHdr) (nowMs : ℕ) (hlen : s.exchanges.length ≤ maxExchanges) :
    (s.postRecv rx nowMs).1.exchanges.length ≤ maxExchanges := by
  rw [postRecv]
  dsimp only
  split
  · exact hlen
  split
  · split
    · split
      · rw [setExch, List.length_set]
        exact hlen
      · exact hlen
    · exact hlen
  · split
    · exact hlen
    split
    · next ha =>
      have hle := (length_addExch (by exact hlen) ha).1
      split
      · split
        · rw [setExch, List.length_set]
          exact hle
        · exact hle
      · exact hle
    · exact hlen

/-- `s'` is `s` with something else in a slot, as far as exchanges go. -/
structure Puts (s : Session) (i : ℕ) (o : Option ExchangeState) (s' : Session) : Prop where
  id : s'.id = s.id
  exch : s'.exch = Function.update s.exch i o
  room : s.exchanges.length ≤ maxExchanges → s'.exchanges.length ≤ maxExchanges

theorem puts_setExch (he : s.exch i = some e) (o : Option ExchangeState) :
    s.Puts i o (s.setExch i o) := by
  refine ⟨rfl, exch_setExch_eq (lt_length_of_exch he) o, fun hlen => ?_⟩
  rw [setExch, List.length_set]
  exact hlen

theorem Puts.setExch {o : Option ExchangeState} {e' : ExchangeState} (h : s.Puts i (some e') s') :
    s.Puts i o (s'.setExch i o) := by
  have he' : s'.exch i = some e' := by rw [h.exch, Function.update_self]
  have hputs := puts_setExch he' o
  refine ⟨hputs.id.trans h.id, ?_, fun hlen => hputs.room (h.room hlen)⟩
  rw [hputs.exch, h.exch, Function.update_idem]

theorem puts_addExch {exchId : BitVec 16} {role : Role}
    (h : s.addExch exchId role = some (i, s')) : s.Puts i (some ⟨exchId, role, .new⟩) s' :=
  ⟨(exch_of_addExch h).2.2.1, (exch_of_addExch h).2.2.2, fun hlen => (length_addExch hlen h).1⟩

/-- Dropping an exchange: it lingers in its slot, or the slot is free. -/
theorem puts_removeExch (he : s.exch i = some e) :
    ∃ b o s', s.removeExch i = some (b, s') ∧ s.Puts i o s' ∧
      (o = none ∨ o = some { e with role := e.role.setDroppedState }) := by
  simp only [removeExch, he]
  split
  · exact ⟨_, _, _, rfl, puts_setExch he _, .inr rfl⟩
  · exact ⟨_, _, _, rfl, puts_setExch he _, .inl rfl⟩

/-- Sending on an exchange never fails: the exchange goes on in its slot. -/
theorem puts_preSend (he : s.exch i = some e) (tx : PacketHdr) (sai : Option (BitVec 32)) :
    ∃ s' hdr re e', s.preSend (some i) tx sai = some (s', hdr, s.peerAddr, re) ∧
      e.Continues e' ∧ s.Puts i (some e') s' := by
  obtain ⟨s', hdr, re, e', hsend, hc, hs'⟩ := preSend_of_exch he tx sai
  refine ⟨s', hdr, re, e', hsend, hc, ?_⟩
  have hputs := puts_setExch he (some e')
  rw [hs']
  exact ⟨hputs.id, hputs.exch, hputs.room⟩

/-- A session before and after at most one packet of the peer, as far as exchanges go. -/
structure Hears (s s' : Session) : Prop where
  id : s'.id = s.id
  slots : ∃ rxProto, s.Heard rxProto s'
  room : s.exchanges.length ≤ maxExchanges → s'.exchanges.length ≤ maxExchanges

theorem Hears.of_exchanges (hid : s'.id = s.id) (h : s'.exchanges = s.exchanges) : s.Hears s' := by
  refine ⟨hid, ⟨.new, .refused ?_⟩, fun hlen => h ▸ hlen⟩
  funext i
  rw [exch, exch, h]

theorem hears_postRecv (s : Session) (rx : PacketHdr) (nowMs : ℕ) :
    s.Hears (s.postRecv rx nowMs).1 :=
  ⟨(heard_postRecv s rx nowMs).1, ⟨_, (heard_postRecv s rx nowMs).2⟩, length_postRecv rx nowMs⟩

theorem Hears.continues (h : s.Hears s') (he : s.exch i = some e) :
    ∃ e', s'.exch i = some e' ∧ e.Continues e' := by
  obtain ⟨rxProto, hslots⟩ := h.slots
  cases hslots with
  | refused hexch => exact ⟨e, hexch ▸ he, .refl e⟩
  | taken j e₀ e' he₀ hc hexch =>
    by_cases hij : i = j
    · subst hij
      rw [he] at he₀
      cases he₀
      exact ⟨e', by rw [hexch, Function.update_self], hc⟩
    · exact ⟨e, by rw [hexch, Function.update_of_ne hij, he], .refl e⟩
  | opened j e' hfree _ _ _ hexch =>
    have hij : i ≠ j := by
      rintro rfl
      rw [he] at hfree
      cases hfree
    exact ⟨e, by rw [hexch, Function.update_of_ne hij, he], .refl e⟩

end Session

/-! ## The table -/

namespace KeyedSessions

/-- Is this an action on the table rather than on an exchange? -/
def Action.isTable : Action → Bool
  | .addExch .. => false
  | .removeExch .. => false
  | .preSend _ (some _) _ _ _ => false
  | _ => true

/-- What a step of the table does to the sessions; `new` is the id of the session that it sets
up, if any. -/
structure Evolves (ss : KeyedSessions) (new : Option (BitVec 32)) (ss' : KeyedSessions) : Prop where
  /-- the ids are old ones, and the new one -/
  ids : (ss'.sessions.map (·.id)).Subperm (ss.sessions.map (·.id) ++ new.toList)
  /-- every session is one from before, or it is the new one -/
  origin : ∀ s' ∈ ss'.sessions,
    (∃ s ∈ ss.sessions, s.toSession.Hears s'.toSession) ∨
    (new = some s'.id ∧ ∃ blank : Session, blank.exchanges = [] ∧ blank.Hears s'.toSession)
  next : ss.nextSessUniqueId ≤ 0x0fffffff#32 → ss'.nextSessUniqueId ≤ 0x0fffffff#32

variable {ss ss' : KeyedSessions} {s s' : KeyedSession} {new : Option (BitVec 32)}

theorem succId_le (id : BitVec 32) : succId id ≤ 0x0fffffff#32 := by
  rw [succId]
  split
  · decide
  · next h => exact BitVec.not_lt.mp h

theorem Evolves.of_subperm (h : ss'.sessions.Subperm ss.sessions)
    (hnext : ss.nextSessUniqueId ≤ 0x0fffffff#32 → ss'.nextSessUniqueId ≤ 0x0fffffff#32) :
    Evolves ss new ss' where
  ids := (map_subperm _ h).trans (List.sublist_append_left _ _).subperm
  origin s' hs' := .inl ⟨s', h.subset hs', .of_exchanges rfl rfl⟩
  next := hnext

theorem Evolves.of_middle {a c : List KeyedSession} (hold : ss.sessions = a ++ s :: c)
    (hnew : ss'.sessions = a ++ s' :: c) (h : s.toSession.Hears s'.toSession)
    (hnext : ss.nextSessUniqueId ≤ 0x0fffffff#32 → ss'.nextSessUniqueId ≤ 0x0fffffff#32) :
    Evolves ss new ss' where
  ids := by
    have hids : ss'.sessions.map (·.id) = ss.sessions.map (·.id) := by
      rw [hold, hnew, List.map_append, List.map_append, List.map_cons, List.map_cons, h.id]
    rw [hids]
    exact (List.sublist_append_left _ _).subperm
  origin t ht := by
    rw [hnew] at ht
    rw [hold]
    refine .inl ?_
    rcases List.mem_append.mp ht with ht | ht
    · exact ⟨t, List.mem_append_left _ ht, .of_exchanges rfl rfl⟩
    · rcases List.mem_cons.mp ht with rfl | ht
      · exact ⟨s, by simp, h⟩
      · exact ⟨t, List.mem_append_right _ (List.mem_cons_of_mem _ ht), .of_exchanges rfl rfl⟩
  next := hnext

theorem Evolves.of_append {kept : List KeyedSession} (blank : Session)
    (hkept : kept.Subperm ss.sessions) (hnew : ss'.sessions = kept ++ [s'])
    (hblank : blank.exchanges = []) (h : blank.Hears s'.toSession)
    (hnext : ss.nextSessUniqueId ≤ 0x0fffffff#32 → ss'.nextSessUniqueId ≤ 0x0fffffff#32) :
    Evolves ss (some s'.id) ss' where
  ids := by
    rw [hnew, List.map_append]
    exact (List.subperm_append_right _).mpr (map_subperm _ hkept)
  origin t ht := by
    rw [hnew] at ht
    rcases List.mem_append.mp ht with ht | ht
    · exact .inl ⟨t, hkept.subset ht, .of_exchanges rfl rfl⟩
    · rcases List.mem_singleton.mp ht with rfl
      exact .inr ⟨rfl, blank, hblank, h⟩
  next := hnext

/-! ### The next id -/

/-- The next id stays, or it is the one after some id. -/
def MovesOn (ss ss' : KeyedSessions) : Prop :=
  ss'.nextSessUniqueId = ss.nextSessUniqueId ∨ ∃ id, ss'.nextSessUniqueId = succId id

theorem MovesOn.next (h : ss.MovesOn ss') (hle : ss.nextSessUniqueId ≤ 0x0fffffff#32) :
    ss'.nextSessUniqueId ≤ 0x0fffffff#32 := by
  rcases h with h | ⟨id, h⟩
  · rw [h]
    exact hle
  · rw [h]
    exact succId_le id

theorem next_add (msgCtr : BitVec 32) (reserved : Bool) (peerAddr : Address)
    (peerNodeid : Option (BitVec 64)) (now : ℕ) (ss : KeyedSessions) :
    (ss.add msgCtr reserved peerAddr peerNodeid now).1.nextSessUniqueId =
      succId ss.nextSessUniqueId := by
  rw [add]
  dsimp only
  split <;> rfl

@[simp] theorem next_modifyLast (f : KeyedSession → KeyedSession) (ss : KeyedSessions) :
    (ss.modifyLast f).nextSessUniqueId = ss.nextSessUniqueId := by
  rw [modifyLast]
  split <;> rfl

@[simp] theorem next_postRecvLast (rx : PacketHdr) (now : ℕ) (ss : KeyedSessions) :
    (ss.postRecvLast rx now).1.nextSessUniqueId = ss.nextSessUniqueId := by
  rw [postRecvLast]
  split <;> rfl

theorem next_addEvicting (rand : BitVec 32 × BitVec 32) (peer : Address) (srcNodeid : BitVec 64)
    (now : ℕ) (ss : KeyedSessions) :
    ∃ id, (ss.addEvicting rand peer srcNodeid now).1.nextSessUniqueId = succId id := by
  have hnext := next_add rand.1 false peer (some srcNodeid) now ss
  rw [addEvicting]
  split
  · next hadd =>
    rw [hadd] at hnext
    exact ⟨_, hnext⟩
  · next hadd =>
    rw [hadd] at hnext
    split
    · exact ⟨_, hnext⟩
    · exact ⟨_, next_add ..⟩

theorem movesOn_getOrCreateForGroupRx (env : RxEnv) (peer : Address) (rx : PacketHdr)
    (pb : ParseBuf) (ss : KeyedSessions) :
    ss.MovesOn (ss.getOrCreateForGroupRx env peer rx pb).1 := by
  rw [getOrCreateForGroupRx]
  split
  · next srcNodeid groupId _ _ =>
    split
    · exact .inl rfl
    · split
      · exact .inl rfl
      · dsimp only
        split
        · exact .inl rfl
        · split
          · exact .inl rfl
          · next rand _ =>
            have hnext := next_addEvicting rand peer srcNodeid env.now
            split
            · next hadd =>
              obtain ⟨id, hid⟩ := hnext _
              rw [hadd] at hid
              exact .inr ⟨id, hid⟩
            · next hadd =>
              obtain ⟨id, hid⟩ := hnext _
              rw [hadd] at hid
              exact .inr ⟨id, (next_modifyLast _ _).trans hid⟩
  · exact .inl rfl

theorem movesOn_decodePacket (env : RxEnv) (peer : Address) (buf : List UInt8)
    (ss : KeyedSessions) : ss.MovesOn (ss.decodePacket env peer buf).1 := by
  rw [decodePacket]
  split
  · exact .inl rfl
  · next plain pb _ =>
    dsimp only
    split
    · next hsession =>
      obtain ⟨r, -, rfl⟩ := Option.map_eq_some_iff.mp hsession
      exact .inl rfl
    · split
      · split
        · exact .inl rfl
        · split
          · split
            · exact .inl rfl
            · next rand _ =>
              have hnext := next_add rand.1 false peer plain.getSrcNodeid env.now ss
              split
              · next hadd =>
                rw [hadd] at hnext
                exact .inr ⟨_, hnext⟩
              · next hadd =>
                rw [hadd] at hnext
                exact .inr ⟨_, by rw [next_postRecvLast, hnext]⟩
          · exact .inl rfl
      · split
        · have hmoves := movesOn_getOrCreateForGroupRx env peer { PacketHdr.reset with plain } pb ss
          split
          · next hcreate =>
            rw [hcreate] at hmoves
            exact hmoves
          · next hcreate =>
            rw [hcreate] at hmoves
            simpa [MovesOn] using hmoves
        · exact .inl rfl

/-! ### One step of the table -/

def freshId (ss : KeyedSessions) (a : Action) : Option (BitVec 32) :=
  if ss.setsUp a = true then some ss.newId else none

theorem freshId_of_room {a : Action} (hroom : ss.sessions.length < maxSessions)
    (h : ss.setsUp a = decide (ss.sessions.length < maxSessions)) :
    ss.freshId a = some ss.nextSessUniqueId := by
  rw [freshId, h, if_pos (decide_eq_true hroom), newId, if_pos hroom]

def get (id : BitVec 32) (ss : KeyedSessions) : Option KeyedSession :=
  ss.sessions.find? (·.id == id)

theorem id_of_get {id : BitVec 32} (h : ss.get id = some s) : s.id = id := by
  have hid := List.find?_some h
  exact beq_iff_eq.mp hid

theorem onSession_eq_some {β : Type} {id : BitVec 32} {now : ℕ}
    {f : KeyedSession → KeyedSession × β} {b : β} (h : ss.onSession id now f = some (ss', b)) :
    ∃ a t c, ss.sessions = a ++ t :: c ∧ ss.get id = some t ∧
      ss'.sessions = a ++ (f (t.updateLastUsed now)).1 :: c ∧ b = (f (t.updateLastUsed now)).2 ∧
      ss'.nextSessUniqueId = ss.nextSessUniqueId := by
  obtain ⟨⟨l, b'⟩, hl, hr⟩ := Option.map_eq_some_iff.mp h
  cases hr
  obtain ⟨a, t, c, ht, hfind, rfl, rfl⟩ := withFirst_eq_some_find hl
  exact ⟨a, t, c, ht, hfind, rfl, rfl, rfl⟩

theorem Evolves.of_onSession {β : Type} {id : BitVec 32} {now : ℕ}
    {f : KeyedSession → KeyedSession × β} {b : β} (h : ss.onSession id now f = some (ss', b))
    (hf : ∀ t : KeyedSession, t.toSession.Hears (f t).1.toSession) : Evolves ss new ss' := by
  obtain ⟨a, t, c, hold, -, hnew, -, hnext⟩ := onSession_eq_some h
  exact .of_middle hold hnew (hf (t.updateLastUsed now)) fun hle => hnext ▸ hle

theorem Evolves.of_dropExcept {p q : KeyedSession → Bool} {expireSessId : Option (BitVec 32)} :
    Evolves ss new (ss.dropExcept p q expireSessId) := by
  have hdrop : (swapRemoveWhere (fun s => p s && decide (some s.id ≠ expireSessId))
      ss.sessions).Subperm ss.sessions :=
    (swapRemoveWhere_perm _ _).subperm.trans List.filter_sublist.subperm
  cases expireSessId with
  | none => exact .of_subperm hdrop id
  | some id =>
    cases hmod : modifyFirst (fun s : KeyedSession => s.id == id && q s)
        (fun s => { s with expired := true })
        (swapRemoveWhere (fun s => p s && decide (some s.id ≠ some id)) ss.sessions) with
    | none =>
      have hsame : (ss.dropExcept p q (some id)).sessions =
          swapRemoveWhere (fun s => p s && decide (some s.id ≠ some id)) ss.sessions := by
        simp only [dropExcept, hmod, Option.getD_none]
      exact .of_subperm (hsame ▸ hdrop) fun hle => hle
    | some l =>
      obtain ⟨a, x, c, hl, -, rfl⟩ := modifyFirst_eq_some hmod
      have hsessions : (ss.dropExcept p q (some id)).sessions =
          a ++ { x with expired := true } :: c := by
        simp only [dropExcept, hmod, Option.getD_some]
      rw [hl] at hdrop
      refine ⟨?_, ?_, fun hle => hle⟩
      · rw [hsessions]
        have hids := map_subperm (fun s : KeyedSession => s.id) hdrop
        rw [List.map_append, List.map_cons] at hids ⊢
        exact hids.trans (List.sublist_append_left _ _).subperm
      · intro t ht
        rw [hsessions] at ht
        refine .inl ?_
        rcases List.mem_append.mp ht with ht | ht
        · exact ⟨t, hdrop.subset (List.mem_append_left _ ht), .of_exchanges rfl rfl⟩
        · rcases List.mem_cons.mp ht with rfl | ht
          · exact ⟨x, hdrop.subset (by simp), .of_exchanges rfl rfl⟩
          · exact ⟨t, hdrop.subset (List.mem_append_right _ (List.mem_cons_of_mem _ ht)),
              .of_exchanges rfl rfl⟩

theorem evolves_decodePacket (env : RxEnv) (peer : Address) (buf : List UInt8)
    (ss : KeyedSessions) : Evolves ss (ss.freshId (.decodePacket env peer buf))
      (ss.decodePacket env peer buf).1 := by
  have hnext := (movesOn_decodePacket env peer buf ss).next
  cases received_decodePacket env peer buf ss with
  | refused hsub _ => exact .of_subperm hsub hnext
  | undecoded a s c code _ hold hnew _ =>
    exact .of_middle hold hnew (.of_exchanges rfl rfl) hnext
  | taken a s c plain pb rx _ _ _ hold hnew _ =>
    exact .of_middle hold hnew (Session.hears_postRecv s.toSession rx env.now) hnext
  | opened kept s rx hkept hblank hsetsUp _ hnew _ =>
    have hears := Session.hears_postRecv s.toSession rx env.now
    have hfresh : ss.freshId (.decodePacket env peer buf) =
        some (s.postRecv rx env.now).1.id := by
      rw [freshId, if_pos hsetsUp, ← hblank.id]
      exact congrArg some hears.id.symm
    rw [hfresh]
    exact .of_append s.toSession hkept hnew hblank.exchanges hears hnext

/-- **One step** of the table. -/
theorem evolves_step {a : Action} (ha : a.isTable = true) (h : ss.step a = some ss') :
    Evolves ss (ss.freshId a) ss' := by
  cases a with
  | decodePacket env peer buf =>
    cases h
    exact evolves_decodePacket env peer buf ss
  | createUnsecured msgCtr peer ephemeralId now =>
    rw [step] at h
    obtain ⟨ss₁, result, hadd, hnext, ⟨rfl, hroom, hsessions⟩ | ⟨⟨code, rfl⟩, hfull, hsessions⟩⟩ :=
      add_cases msgCtr false peer none now ss
    · rw [hadd] at h
      cases h
      rw [freshId_of_room hroom rfl]
      have hlast := sessions_modifyLast hsessions fun s => { s with localNodeid := ephemeralId }
      refine .of_append (Session.new ss.nextSessUniqueId msgCtr false peer none)
        (List.Subperm.refl _) hlast rfl (.of_exchanges rfl rfl) fun _ => ?_
      rw [next_modifyLast, hnext]
      exact succId_le _
    · rw [hadd] at h
      cases h
      exact .of_subperm (hsessions ▸ List.Subperm.refl _) fun _ => hnext ▸ succId_le _
  | reserveNow msgCtr now =>
    obtain ⟨ss₁, result, hadd, hnext, ⟨rfl, hroom, hsessions⟩ | ⟨⟨code, rfl⟩, hfull, hsessions⟩⟩ :=
      add_cases msgCtr true (.udp ⟨.v4 0, 0⟩) none now ss
    · rw [step, hadd] at h
      cases h
      rw [freshId_of_room hroom rfl]
      exact .of_append (Session.new ss.nextSessUniqueId msgCtr true (.udp ⟨.v4 0, 0⟩) none)
        (List.Subperm.refl _) hsessions rfl (.of_exchanges rfl rfl) fun _ => hnext ▸ succId_le _
    · rw [step, hadd] at h
      cases h
      exact .of_subperm (hsessions ▸ List.Subperm.refl _) fun _ => hnext ▸ succId_le _
  | updatePase id params decKey encKey now =>
    obtain ⟨⟨ss₁, b⟩, hon, rfl⟩ := Option.map_eq_some_iff.mp h
    exact .of_onSession hon fun t => .of_exchanges rfl rfl
  | updateCase id fabIdx catIds params decKey encKey now =>
    obtain ⟨⟨ss₁, b⟩, hon, rfl⟩ := Option.map_eq_some_iff.mp h
    exact .of_onSession hon fun t => .of_exchanges rfl rfl
  | complete id now =>
    obtain ⟨⟨ss₁, b⟩, hon, rfl⟩ := Option.map_eq_some_iff.mp h
    exact .of_onSession hon fun t => .of_exchanges rfl rfl
  | remove id =>
    cases h
    exact .of_subperm (remove_subperm id ss) fun hle => (nextSessUniqueId_remove id ss).symm ▸ hle
  | removeForFabric fabricIdx expireSessId =>
    cases h
    exact .of_dropExcept
  | removePase expireSessId =>
    cases h
    exact .of_dropExcept
  | upgradeFabricIdx id fabricIdx now =>
    obtain ⟨⟨ss₁, b⟩, hon, rfl⟩ := Option.map_eq_some_iff.mp h
    refine .of_onSession hon fun t => ?_
    rw [KeyedSession.upgradeFabricIdx]
    split <;> exact .of_exchanges rfl rfl
  | addExch id exchId role now => cases ha
  | removeExch id index now => cases ha
  | preSend id exchIndex tx sai now =>
    cases exchIndex with
    | some index => cases ha
    | none =>
      rw [step, onPlain] at h
      obtain ⟨⟨ss₁, b⟩, hon, hr⟩ := Option.bind_eq_some_iff.mp h
      have heq : ss₁ = ss' := by
        dsimp only at hr
        split at hr
        · exact Option.some_inj.mp hr
        · cases hr
      subst heq
      refine .of_onSession hon fun t => ?_
      exact .of_exchanges rfl rfl
  | reset =>
    cases h
    exact .of_subperm (List.nil_subperm) fun hle => hle

end KeyedSessions

end RsMatter
