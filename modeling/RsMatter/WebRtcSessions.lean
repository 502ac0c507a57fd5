import RsMatter.KeyedRows
import RsMatter.WebRtc

/-!
# WebRTC sessions over whole runs

What a command has seen of the table need not hold any more when the application has answered. The
proofs go through the one rule of `Suspension.lean`: the assertion of a command that waits to put a
row is that its id is still the one of its peer, and that the session has neither been ended nor
lost its fabric.
-/

namespace RsMatter

open Prog

namespace WebRtc

variable {N : ℕ}

/-! ## What each command does to the table -/

namespace Provider

variable {p : Provider N} {sdpLen : ℕ}

def Has (p : Provider N) (id : BitVec 16) : Prop := Rows.Has SessionEntry.id p.sessions.1 id

theorem isSome_sessionCopy {id : BitVec 16} : (p.sessionCopy id).isSome ↔ p.Has id :=
  Rows.isSome_find? (f := SessionEntry.id)

variable {fabIdx : BitVec 8}

theorem ownSession_eq_ok {id : BitVec 16} {peer : BitVec 64} {r : SessionEntry}
    (h : p.ownSession id fabIdx peer = .ok r) :
    p.sessionCopy id = some r ∧ r.fabIdx = fabIdx ∧ r.peerNodeId = peer := by
  cases hcopy : p.sessionCopy id with
  | none =>
    rw [ownSession, hcopy] at h
    cases h
  | some session =>
    rw [ownSession, hcopy] at h
    change (checkPeer session fabIdx peer >>= fun _ => pure session) = .ok r at h
    rw [checkPeer] at h
    split at h
    · cases h
    · next hsame =>
      obtain rfl : session = r := Except.ok.inj h
      push Not at hsame
      exact ⟨rfl, hsame⟩

theorem allocateIdLoop_eq_some {sessions : List SessionEntry} {fuel : ℕ} {candidate id next : BitVec 16}
    (h : allocateIdLoop sessions fuel candidate = some (id, next)) :
    id ≠ 0 ∧ ¬Rows.Has SessionEntry.id sessions id := by
  induction fuel generalizing candidate with
  | zero => cases h
  | succ fuel ih =>
    rw [allocateIdLoop] at h
    split at h
    · next hfree =>
      obtain ⟨rfl, _⟩ := Prod.mk.inj (Option.some.inj h)
      refine ⟨hfree.1, fun ⟨r, hr, hid⟩ => hfree.2 ?_⟩
      exact List.any_eq_true.mpr ⟨r, hr, beq_iff_eq.mpr hid⟩
    · exact ih h

def IsNextId (p : Provider N) (id : BitVec 16) : Prop :=
  ∃ nextId, allocateIdLoop p.sessions.1 (2 ^ 16) p.nextId = some (id, nextId)

theorem IsNextId.fresh {id : BitVec 16} : p.IsNextId id → id ≠ 0 ∧ ¬p.Has id
  | ⟨_, h⟩ => allocateIdLoop_eq_some h

variable {p' : Provider N}

theorem allocateId_eq_ok {id : BitVec 16} (h : allocateId.run p = (p', .ok id)) :
    p.IsNextId id := by
  unfold allocateId at h
  rw [run_bind_of_ok (run_get _)] at h
  cases hloop : allocateIdLoop p.sessions.1 (2 ^ 16) p.nextId with
  | none =>
    rw [hloop] at h
    cases (Prod.mk.inj h).2
  | some found =>
    rw [hloop] at h
    obtain rfl : found.1 = id := Except.ok.inj (Prod.mk.inj h).2
    exact ⟨found.2, hloop⟩

theorem keeps_allocateId : Prog.Keeps sessions (allocateId : Prog _ (Provider N) _) := by
  refine keeps_bind keeps_get fun p => ?_
  split
  · exact keeps_throw _
  · exact keeps_bind (keeps_modify fun _ => rfl) fun _ => keeps_pure _

/-- What a command has seen of the table when it begins to wait. -/
inductive Seen (p : Provider N) : Command → Task → Prop where
  | solicitOffer {fabIdx peer params id node params'} (hid : p.IsNextId id) :
    Seen p (.solicitOffer fabIdx peer params) (.onSolicitOffer id fabIdx node params')
  | newOffer {fabIdx peer sdp params id node params'} (hid : p.IsNextId id) :
    Seen p (.provideOffer fabIdx peer sdp params (.ok none)) (.onOffer id fabIdx node params')
  | oldOffer {fabIdx peer sdp params id node params' r} (hcopy : p.sessionCopy id = some r)
    (hfab : r.fabIdx = fabIdx) (hnode : r.peerNodeId = node) :
    Seen p (.provideOffer fabIdx peer sdp params (.ok (some id))) (.onOffer id fabIdx node params')
  | answer {fabIdx peer sdp id r} (hcopy : p.sessionCopy id = some r) (hfab : r.fabIdx = fabIdx)
    (hnode : peer = some r.peerNodeId) (hstate : r.state ≠ .established) :
    Seen p (.provideAnswer fabIdx peer (.ok id) sdp) (.onAnswer id)
  | iceCandidates {fabIdx peer webRtcSessionId candidates id} :
    Seen p (.provideIceCandidates fabIdx peer webRtcSessionId candidates) (.onIceCandidates id)
  | finish {fabIdx peer webRtcSessionId reason id} :
    Seen p (.endSession fabIdx peer webRtcSessionId reason) (.onEndSession id)
  | push {id session} : Seen p (.pushOutbound (.offer id)) (.takeOfferSdp session)

variable {peer : Option (BitVec 64)} {t : Task}

theorem seen_handleSolicitOffer
    {params : Except ErrorCode OfferParams}
    (h : (handleSolicitOffer fabIdx peer params).run p = (p', .ok t)) :
    Seen p (.solicitOffer fabIdx peer params) t := by
  simp only [handleSolicitOffer, run_bind_eq_ok, run_ofExcept_eq_ok] at h
  obtain ⟨_, _, ⟨_, rfl⟩, _, _, ⟨_, rfl⟩, _, id, hid, h⟩ := h
  obtain rfl := Except.ok.inj (Prod.mk.inj h).2
  exact .solicitOffer (allocateId_eq_ok hid)

theorem seen_handleProvideOffer
    {sdp : Except ErrorCode (List UInt8)} {params : Except ErrorCode OfferParams}
    {webRtcSessionId : Except ErrorCode (Option (BitVec 16))}
    (h : (handleProvideOffer sdpLen fabIdx peer sdp params webRtcSessionId).run p = (p', .ok t)) :
    Seen p (.provideOffer fabIdx peer sdp params webRtcSessionId) t := by
  simp only [handleProvideOffer, run_bind_eq_ok, run_ofExcept_eq_ok] at h
  obtain ⟨_, _, ⟨_, rfl⟩, _, _, ⟨_, rfl⟩, _, _, ⟨_, rfl⟩, _, id, ⟨hid, rfl⟩, h⟩ := h
  obtain rfl := lift_eq_ok.mp hid
  cases id with
  | none =>
    rw [run_bind_eq_ok] at h
    obtain ⟨_, id, hid, h⟩ := h
    obtain rfl := Except.ok.inj (Prod.mk.inj h).2
    exact .newOffer (allocateId_eq_ok hid)
  | some id =>
    simp only [run_bind_eq_ok, run_get_eq_ok, run_ofExcept_eq_ok] at h
    obtain ⟨_, _, ⟨rfl, rfl⟩, _, r, ⟨hown, rfl⟩, h⟩ := h
    obtain rfl := Except.ok.inj (Prod.mk.inj h).2
    obtain ⟨hcopy, hfab, hnode⟩ := ownSession_eq_ok hown
    exact .oldOffer hcopy hfab hnode

variable {webRtcSessionId : Except ErrorCode (BitVec 16)}

theorem seen_handleProvideAnswer
    {sdp : Except ErrorCode (List UInt8)}
    (h : (handleProvideAnswer sdpLen fabIdx peer webRtcSessionId sdp).run p = (p', .ok t)) :
    Seen p (.provideAnswer fabIdx peer webRtcSessionId sdp) t := by
  simp only [handleProvideAnswer, run_bind_eq_ok, run_ofExcept_eq_ok, run_get_eq_ok] at h
  obtain ⟨_, _, ⟨hpeer, rfl⟩, _, id, ⟨hid, rfl⟩, _, _, ⟨_, rfl⟩, _, _, ⟨rfl, rfl⟩, _, r, ⟨hown, rfl⟩, h⟩ := h
  obtain rfl := lift_eq_ok.mp hid
  obtain ⟨hcopy, hfab, rfl⟩ := ownSession_eq_ok hown
  have hnode : peer = some r.peerNodeId := by
    cases peer with
    | none => cases hpeer
    | some node => exact congrArg some (Except.ok.inj hpeer)
  cases hstate : r.state with
  | awaitingDeferredOffer | awaitingAnswer =>
    rw [hstate] at h
    obtain rfl := Except.ok.inj (Prod.mk.inj h).2
    exact .answer hcopy hfab hnode (by rw [hstate]; exact nofun)
  | established =>
    rw [hstate] at h
    cases (Prod.mk.inj h).2

theorem seen_handleProvideIceCandidates
    {candidates : Except ErrorCode Unit}
    (h : (handleProvideIceCandidates fabIdx peer webRtcSessionId candidates).run p = (p', .ok t)) :
    Seen p (.provideIceCandidates fabIdx peer webRtcSessionId candidates) t := by
  simp only [handleProvideIceCandidates, run_bind_eq_ok, run_ofExcept_eq_ok,
    run_get_eq_ok] at h
  obtain ⟨_, _, ⟨_, rfl⟩, _, id, ⟨_, rfl⟩, _, _, ⟨rfl, rfl⟩, _, r, ⟨_, rfl⟩, _, _, ⟨_, rfl⟩, h⟩ := h
  obtain rfl := Except.ok.inj (Prod.mk.inj h).2
  exact .iceCandidates

theorem seen_handleEndSession
    {reason : Except ErrorCode Unit}
    (h : (handleEndSession fabIdx peer webRtcSessionId reason).run p = (p', .ok t)) :
    Seen p (.endSession fabIdx peer webRtcSessionId reason) t := by
  simp only [handleEndSession, run_bind_eq_ok, run_ofExcept_eq_ok, run_get_eq_ok] at h
  obtain ⟨_, _, ⟨_, rfl⟩, _, id, ⟨_, rfl⟩, _, _, ⟨_, rfl⟩, _, _, ⟨rfl, rfl⟩, _, r, ⟨_, rfl⟩, h⟩ := h
  obtain rfl := Except.ok.inj (Prod.mk.inj h).2
  exact .finish

theorem run_some_map {m : Prog (Stop ErrorCode) (Provider N) Task}
    (h : (some <$> m).run p = (p', .ok (some t))) : m.run p = (p', .ok t) := by
  have hbind : (m >>= fun t => pure (some t)).run p = (p', .ok (some t)) := h
  obtain ⟨q, t', hm, hpure⟩ := run_bind_eq_ok.mp hbind
  obtain ⟨rfl, ht⟩ := Prod.mk.inj hpure
  obtain rfl := Option.some.inj (Except.ok.inj ht)
  exact hm

theorem seen_of_start {c : Command}
    (h : (start sdpLen c).run p = (p', .ok (some t))) : Seen p c t := by
  cases c with
  | solicitOffer fabIdx peer params => exact seen_handleSolicitOffer (run_some_map h)
  | provideOffer fabIdx peer sdp params id => exact seen_handleProvideOffer (run_some_map h)
  | provideAnswer fabIdx peer id sdp => exact seen_handleProvideAnswer (run_some_map h)
  | provideIceCandidates fabIdx peer id candidates => exact seen_handleProvideIceCandidates (run_some_map h)
  | endSession fabIdx peer id reason => exact seen_handleEndSession (run_some_map h)
  | removeFabricSessions fabIdx => cases (Prod.mk.inj h).2
  | pushOutbound work =>
    have hpush := Except.ok.inj (Prod.mk.inj h).2
    cases work with
    | offer id =>
      obtain ⟨session, _, rfl⟩ := Option.map_eq_some_iff.mp hpush
      exact .push
    | _ => cases hpush

/-- Up to its first wait, no command but the removal of a fabric changes the table. -/
theorem sessions_start (c : Command) (hc : ∀ fabIdx, c ≠ .removeFabricSessions fabIdx) :
    ((start sdpLen c).run p).1.sessions = p.sessions := by
  have hmap {m : Prog (Stop ErrorCode) (Provider N) Task} (hm : Prog.Keeps sessions m) :
      Prog.Keeps sessions (some <$> m) := keeps_bind hm fun _ => keeps_pure _
  refine (?_ : Prog.Keeps sessions (start sdpLen c)) p
  cases c with
  | solicitOffer fabIdx peer params =>
    apply hmap
    refine keeps_bind (keeps_ofExcept _) fun _ => ?_
    refine keeps_bind (keeps_ofExcept _) fun _ => ?_
    exact keeps_bind keeps_allocateId fun _ => keeps_pure _
  | provideOffer fabIdx peer sdp params id =>
    apply hmap
    refine keeps_bind (keeps_ofExcept _) fun _ => ?_
    refine keeps_bind (keeps_ofExcept _) fun _ => ?_
    refine keeps_bind (keeps_ofExcept _) fun _ => ?_
    refine keeps_bind (keeps_ofExcept _) fun id => ?_
    cases id with
    | none => exact keeps_bind keeps_allocateId fun _ => keeps_pure _
    | some id =>
      refine keeps_bind keeps_get fun _ => ?_
      exact keeps_bind (keeps_ofExcept _) fun _ => keeps_pure _
  | provideAnswer fabIdx peer id sdp =>
    apply hmap
    refine keeps_bind (keeps_ofExcept _) fun _ => ?_
    refine keeps_bind (keeps_ofExcept _) fun _ => ?_
    refine keeps_bind (keeps_ofExcept _) fun _ => ?_
    refine keeps_bind keeps_get fun _ => ?_
    refine keeps_bind (keeps_ofExcept _) fun session => ?_
    cases hstate : session.state with
    | awaitingAnswer | awaitingDeferredOffer => exact keeps_pure _
    | established => exact keeps_throw _
  | provideIceCandidates fabIdx peer id candidates =>
    apply hmap
    refine keeps_bind (keeps_ofExcept _) fun _ => ?_
    refine keeps_bind (keeps_ofExcept _) fun _ => ?_
    refine keeps_bind keeps_get fun _ => ?_
    refine keeps_bind (keeps_ofExcept _) fun _ => ?_
    exact keeps_bind (keeps_ofExcept _) fun _ => keeps_pure _
  | endSession fabIdx peer id reason =>
    apply hmap
    refine keeps_bind (keeps_ofExcept _) fun _ => ?_
    refine keeps_bind (keeps_ofExcept _) fun _ => ?_
    refine keeps_bind (keeps_ofExcept _) fun _ => ?_
    refine keeps_bind keeps_get fun _ => ?_
    exact keeps_bind (keeps_ofExcept _) fun _ => keeps_pure _
  | removeFabricSessions fabIdx => exact absurd rfl (hc fabIdx)
  | pushOutbound work => exact keeps_bind keeps_get fun _ => keeps_pure _

/-- What `upsert_session` has done: the row is there, in the place of the one with its id or at the end. -/
structure Upserted (p p' : Provider N) (entry : SessionEntry) : Prop where
  nodup (h : (p.sessions.1.map (·.id)).Nodup) : (p'.sessions.1.map (·.id)).Nodup
  row (h : (p.sessions.1.map (·.id)).Nodup) (r : SessionEntry) (hr : r ∈ p'.sessions.1) :
    r = entry ∨ (r ∈ p.sessions.1 ∧ r.id ≠ entry.id)
  /-- no id goes, and the one of the row comes -/
  has (id : BitVec 16) : p'.Has id ↔ p.Has id ∨ entry.id = id

/-- `upsert_session` fails only for a new row, when the table is full. -/
theorem upsertSession_spec (p : Provider N) (entry : SessionEntry) :
    (∃ p', (upsertSession entry).run p = (p', .ok ()) ∧ Upserted p p' entry) ∨
      (¬p.Has entry.id ∧ p.sessions.1.length = N ∧
        (upsertSession entry).run p = (p, .error (.error .resourceExhausted))) := by
  unfold upsertSession
  rw [run_bind_of_ok (run_get _)]
  cases hfind : p.sessions.1.findIdx? (·.id == entry.id) with
  | some i =>
    obtain ⟨r, hr, hid⟩ := Rows.findIdx?_eq_some (f := SessionEntry.id) hfind
    have hkeys := Rows.map_key_set (f := SessionEntry.id) hr hid.symm
    refine .inl ⟨_, rfl, fun h => hkeys.symm ▸ h, fun h x hx => ?_, fun id => ?_⟩
    · exact hid ▸ Rows.mem_set_cases h hr hx
    · refine (Rows.has_congr hkeys).trans ?_
      exact ⟨.inl, fun h => h.elim (fun h => h) fun h => ⟨r, List.mem_of_getElem? hr, hid.trans h⟩⟩
  | none =>
    have hnew := Rows.findIdx?_eq_none.mp hfind
    cases hpush : p.sessions.push entry .resourceExhausted with
    | ok sessions =>
      obtain ⟨_, hsessions⟩ := HVec.push_eq_ok.mp hpush
      have hrun : (Prog.ofExcept (.ok sessions) >>= fun sessions => Prog.modify fun p : Provider N =>
          { p with sessions } : Prog (Stop ErrorCode) _ _).run p = ({ p with sessions }, .ok ()) := rfl
      refine .inl ⟨_, hrun, fun h => ?_, fun h x hx => ?_, fun id => ?_⟩
      · rw [hsessions]
        exact Rows.nodup_append h hnew
      · rw [hsessions] at hx
        rcases List.mem_append.mp hx with hx | hx
        · exact .inr ⟨hx, fun hid => hnew ⟨x, hx, hid⟩⟩
        · exact .inl (List.mem_singleton.mp hx)
      · rw [Has, hsessions]
        exact Rows.has_append
    | error e =>
      have hfull : ¬p.sessions.1.length < N := fun hroom => by
        rw [HVec.push, dif_pos hroom] at hpush
        cases hpush
      rw [HVec.push, dif_neg hfull] at hpush
      obtain rfl := Except.error.inj hpush
      exact .inr ⟨hnew, Nat.le_antisymm p.sessions.2 (Nat.le_of_not_lt hfull), rfl⟩

/-- The rows after `set_state` are those before, but for the state of one. -/
theorem setState_spec (p : Provider N) (id : BitVec 16) (state : SessionState) :
    (p.setState id state).sessions.1.map (·.id) = p.sessions.1.map (·.id) ∧
      ((p.sessions.1.map (·.id)).Nodup → ∀ r ∈ (p.setState id state).sessions.1,
        (r ∈ p.sessions.1 ∧ r.id ≠ id) ∨ ∃ r₀ ∈ p.sessions.1, r₀.id = id ∧ r = { r₀ with state }) := by
  rw [setState]
  cases hfind : p.sessions.1.findIdx? (·.id == id) with
  | some i =>
    exact ⟨Rows.map_key_modify (f := SessionEntry.id) hfind fun _ => rfl,
      fun h x hx => Rows.mem_modify_cases (f := SessionEntry.id) h hfind hx⟩
  | none =>
    have hnew := Rows.findIdx?_eq_none.mp hfind
    exact ⟨rfl, fun _ r hr => .inl ⟨hr, fun hid => hnew ⟨r, hr, hid⟩⟩⟩

end Provider

/-! ## What holds of each session -/

namespace History

/-- The session is one that can be in the table: the one of a peer, not ended, on a fabric that is
still there. -/
structure Live (h : History) (id : BitVec 16) (fabIdx : BitVec 8) (peer : BitVec 64) : Prop where
  /-- no id is `0` -/
  id_ne_zero : id ≠ 0
  owner : h.owner = some (fabIdx, peer)
  ended : h.ended = false
  gone : h.gone = false

/-- The row of a session. A row that awaits the answer is one of an offer. -/
structure Backs (h : History) (r : SessionEntry) : Prop where
  live : h.Live r.id r.fabIdx r.peerNodeId
  offer (hstate : r.state = .awaitingAnswer) : h.offer ≠ .none

def Waits (h : History) : Task → Prop
  | .onSolicitOffer id fabIdx peer _ | .onOffer id fabIdx peer _ => h.Live id fabIdx peer
  | .onAnswer _ => h.offer = .given
  | .onEndSession _ => h.passed = true
  | .onIceCandidates _ | .takeOfferSdp _ | .sendOffer _ => True

/-- What happens to a session without ending it or its fabric. -/
structure Grows (f : History → History) : Prop where
  owner (h : History) : (f h).owner = h.owner
  ended (h : History) : (f h).ended = h.ended
  gone (h : History) : (f h).gone = h.gone
  passed (h : History) (hp : h.passed = true) : (f h).passed = true
  offer (h : History) (ho : h.offer ≠ .none) : (f h).offer ≠ .none
  given (h : History) (ho : h.offer = .given) : (f h).offer = .given

variable {f : History → History} {h : History}

/-- An offer that has left and is neither under way nor lost has been given. -/
theorem Backs.given {r : SessionEntry} (hr : h.Backs r) (hestablished : r.state ≠ .established)
    (hdeferred : r.state ≠ .awaitingDeferredOffer)
    (hoffer : r.state = .awaitingAnswer → h.offer ≠ .underWay ∧ h.offer ≠ .lost) : h.offer = .given := by
  have hawaiting : r.state = .awaitingAnswer := by
    cases hstate : r.state with
    | awaitingAnswer => rfl
    | awaitingDeferredOffer => exact absurd hstate hdeferred
    | established => exact absurd hstate hestablished
  obtain ⟨hunderWay, hlost⟩ := hoffer hawaiting
  have hnone := hr.offer hawaiting
  cases hstatus : h.offer with
  | none => exact absurd hstatus hnone
  | underWay => exact absurd hstatus hunderWay
  | lost => exact absurd hstatus hlost
  | given => rfl

theorem Live.grow {id : BitVec 16} {fabIdx : BitVec 8} {peer : BitVec 64} (hf : Grows f)
    (hlive : h.Live id fabIdx peer) : (f h).Live id fabIdx peer :=
  ⟨hlive.id_ne_zero, (hf.owner h).trans hlive.owner, (hf.ended h).trans hlive.ended,
    (hf.gone h).trans hlive.gone⟩

theorem Backs.grow {r : SessionEntry} (hf : Grows f) (hr : h.Backs r) : (f h).Backs r :=
  ⟨hr.live.grow hf, fun hstate => hf.offer h (hr.offer hstate)⟩

theorem Waits.grow {t : Task} (hf : Grows f) (ht : h.Waits t) : (f h).Waits t := by
  cases t with
  | onSolicitOffer | onOffer => exact Live.grow hf ht
  | onAnswer => exact hf.given h ht
  | onEndSession => exact hf.passed h ht
  | _ => trivial

theorem grows_id : Grows fun h => h :=
  ⟨fun _ => rfl, fun _ => rfl, fun _ => rfl, fun _ hp => hp, fun _ ho => ho, fun _ ho => ho⟩

theorem grows_pass : Grows ({ · with passed := true }) :=
  ⟨fun _ => rfl, fun _ => rfl, fun _ => rfl, fun _ _ => rfl, fun _ ho => ho, fun _ ho => ho⟩

theorem grows_accept : Grows ({ · with accepted := true }) :=
  ⟨fun _ => rfl, fun _ => rfl, fun _ => rfl, fun _ hp => hp, fun _ ho => ho, fun _ ho => ho⟩

theorem grows_solicited (deferred : Bool) : Grows (·.solicited deferred) := by
  refine ⟨fun _ => rfl, fun _ => rfl, fun _ => rfl, fun _ hp => hp, fun _ ho => ?_, fun _ ho => ?_⟩
  · cases deferred
    · exact nofun
    · exact ho
  · cases deferred
    · rfl
    · exact ho

theorem grows_offering (status : OfferStatus) (hstatus : status ≠ .none) :
    Grows (·.offering status) := by
  refine ⟨fun h => ?_, fun h => ?_, fun h => ?_, fun h hp => ?_, fun h ho => ?_, fun h ho => ?_⟩ <;>
    rw [offering] <;> split
  all_goals first | rfl | exact hp | exact ho | exact hstatus

theorem accepted_offering (status : OfferStatus) (h : History) :
    (h.offering status).accepted = h.accepted := by
  rw [offering]
  split <;> rfl

theorem offering_ne_none {status : OfferStatus} (hstatus : status ≠ .none) (h : History) :
    (h.offering status).offer ≠ .none := by
  rw [offering]
  split
  · next hgiven =>
    rw [hgiven]
    exact nofun
  · exact hstatus

theorem Live.backs_solicited {id : BitVec 16} {fabIdx : BitVec 8} {peer : BitVec 64}
    (hlive : h.Live id fabIdx peer) (params : OfferParams) (outcome : OfferOutcome) :
    (h.solicited outcome.deferred).Backs (Provider.entryOf id fabIdx peer params outcome
      (if outcome.deferred then .awaitingDeferredOffer else .awaitingAnswer)) := by
  refine ⟨hlive.grow (grows_solicited outcome.deferred), fun hstate => ?_⟩
  cases hdeferred : outcome.deferred with
  | false => exact nofun
  | true =>
    rw [hdeferred] at hstate
    cases hstate

theorem Live.backs_offered {id : BitVec 16} {fabIdx : BitVec 8} {peer : BitVec 64}
    (hlive : h.Live id fabIdx peer) (params : OfferParams) (outcome : OfferOutcome) :
    Backs { h with accepted := true } (Provider.entryOf id fabIdx peer params outcome .established) :=
  ⟨hlive.grow grows_accept, nofun⟩

end History

namespace Traced

variable {s : Traced N} {id : BitVec 16}

structure Sound (s : Traced N) : Prop where
  nodup : (s.provider.sessions.1.map (·.id)).Nodup
  row (r : SessionEntry) (hr : r ∈ s.provider.sessions.1) : (s.history r.id).Backs r
  accepted (id : BitVec 16) (h : (s.history id).accepted = true) :
    s.provider.Has id ∨ (s.history id).passed = true ∨ (s.history id).gone = true

theorem note_self (history : BitVec 16 → History) (id : BitVec 16) (f : History → History) :
    note history id f id = f (history id) := if_pos rfl

theorem note_of_ne (history : BitVec 16 → History) {id i : BitVec 16} (f : History → History) (h : i ≠ id) :
    note history id f i = history i := if_neg h

/-- What keeps a property of all sessions keeps it of the one it is about. -/
theorem note_cases {P : History → Prop} {history : BitVec 16 → History} {f : History → History}
    (i : BitVec 16) (h : P (history i)) (hf : i = id → P (f (history i))) : P (note history id f i) := by
  by_cases hi : i = id
  · rw [hi, note_self]
    exact hi ▸ hf hi
  · rwa [note_of_ne history f hi]

theorem note_id (history : BitVec 16 → History) (id : BitVec 16) : note history id (fun h => h) = history := by
  funext i
  exact note_cases (P := (· = history i)) i rfl fun _ => rfl

variable {p' : Provider N}

theorem Sound.effect {f : History → History} (hs : s.Sound)
    (hnodup : (p'.sessions.1.map (·.id)).Nodup)
    (hrow : ∀ r ∈ p'.sessions.1,
      (r ∈ s.provider.sessions.1 ∧ r.id ≠ id) ∨ (r.id = id ∧ (f (s.history id)).Backs r))
    (hhas : ∀ i, i ≠ id → s.provider.Has i → p'.Has i)
    (hacc : (f (s.history id)).accepted = true →
      p'.Has id ∨ (f (s.history id)).passed = true ∨ (f (s.history id)).gone = true) :
    Sound ⟨p', note s.history id f⟩ := by
  refine ⟨hnodup, fun r hr => ?_, fun i h => ?_⟩
  · change (note s.history id f r.id).Backs r
    rcases hrow r hr with ⟨hr, hne⟩ | ⟨rfl, hr⟩
    · rw [note_of_ne _ f hne]
      exact hs.row r hr
    · rwa [note_self]
  · change p'.Has i ∨ (note s.history id f i).passed = true ∨ (note s.history id f i).gone = true
    change (note s.history id f i).accepted = true at h
    by_cases hi : i = id
    · subst hi
      rw [note_self] at h ⊢
      exact hacc h
    · rw [note_of_ne _ f hi] at h ⊢
      exact (hs.accepted i h).imp_left (hhas i hi)

theorem Sound.grow {f : History → History} (hs : s.Sound) (hf : History.Grows f)
    (hp : p'.sessions = s.provider.sessions)
    (hacc : ∀ h : History, (f h).accepted = h.accepted) : Sound ⟨p', note s.history id f⟩ := by
  have hsessions : p'.sessions.1 = s.provider.sessions.1 := congrArg Subtype.val hp
  have hhas (i : BitVec 16) : p'.Has i ↔ s.provider.Has i := by rw [Provider.Has, Provider.Has, hsessions]
  refine hs.effect (hsessions ▸ hs.nodup) (fun r hr => ?_) (fun i _ => (hhas i).mpr) fun h => ?_
  · rw [hsessions] at hr
    by_cases hid : r.id = id
    · exact .inr ⟨hid, hid ▸ (hs.row r hr).grow hf⟩
    · exact .inl ⟨hr, hid⟩
  · rw [hacc] at h
    rw [hhas, hf.gone]
    exact (hs.accepted id h).imp_right (Or.imp_left (hf.passed _))

theorem Sound.handOut {fabIdx : BitVec 8} {peer : BitVec 64} (hs : s.Sound)
    (hp : p'.sessions = s.provider.sessions) (hid : ¬s.provider.Has id) :
    Sound ⟨p', note s.history id fun _ => .handedOut fabIdx peer⟩ := by
  have hsessions : p'.sessions.1 = s.provider.sessions.1 := congrArg Subtype.val hp
  refine hs.effect (hsessions ▸ hs.nodup) (fun r hr => ?_) (fun i _ h => ?_) nofun
  · rw [hsessions] at hr
    exact .inl ⟨hr, fun h => hid ⟨r, hr, h⟩⟩
  · rwa [Provider.Has, hsessions]

theorem Sound.accept {f : History → History} {entry : SessionEntry} (hs : s.Sound)
    (hp : Provider.Upserted s.provider p' entry) (hentry : (f (s.history entry.id)).Backs entry) :
    Sound ⟨p', note s.history entry.id f⟩ := by
  refine hs.effect (hp.nodup hs.nodup) (fun r hr => ?_) (fun i _ h => (hp.has i).mpr (.inl h)) fun _ => ?_
  · rcases hp.row hs.nodup r hr with rfl | hr
    · exact .inr ⟨rfl, hentry⟩
    · exact .inl hr
  · exact .inl ((hp.has entry.id).mpr (.inr rfl))

/-- A command ends by putting its row into the table, where there is room for it. -/
theorem Sound.put {f : History → History} (hs : s.Sound) (entry : SessionEntry) (reply : Reply)
    (hentry : (f (s.history entry.id)).Backs entry)
    (hroom : s.provider.Has entry.id ∨ s.provider.sessions.1.length < N) :
    let m : Prog (Stop ErrorCode) (Provider N) Next :=
      Provider.upsertSession entry >>= fun _ => pure (.reply reply)
    Sound ⟨(m.run s.provider).1, note s.history entry.id f⟩ ∧
      ∀ t, (m.run s.provider).2 ≠ .ok (.wait t) := by
  rcases s.provider.upsertSession_spec entry with ⟨p', hrun, hput⟩ | ⟨hnew, hfull, _⟩
  · intro m
    have hm : m.run s.provider = (p', .ok (.reply reply)) := run_bind_of_ok hrun
    rw [hm]
    exact ⟨hs.accept hput hentry, by rintro _ ⟨⟩⟩
  · exact (hroom.elim hnew fun h => Nat.ne_of_lt h hfull).elim

theorem Sound.finish (hs : s.Sound) (hpassed : (s.history id).passed = true) :
    Sound ⟨s.provider.removeSession id, note s.history id ({ · with ended := true })⟩ := by
  refine hs.effect (Rows.nodup_filter _ hs.nodup) (fun r hr => ?_) (fun i hi h => ?_) fun _ => .inr (.inl hpassed)
  · obtain ⟨hr, hne⟩ := List.mem_filter.mp hr
    exact .inl ⟨hr, bne_iff_ne.mp hne⟩
  · obtain ⟨r, hr, rfl⟩ := h
    exact ⟨r, List.mem_filter.mpr ⟨hr, bne_iff_ne.mpr hi⟩, rfl⟩

theorem Sound.setState {f : History → History} (hs : s.Sound) (id : BitVec 16) (state : SessionState) (hf : History.Grows f)
    (hacc : ∀ h : History, (f h).accepted = h.accepted)
    (hstate : state = .awaitingAnswer → ∀ h : History, (f h).offer ≠ .none) :
    Sound ⟨s.provider.setState id state, note s.history id f⟩ := by
  obtain ⟨hids, hrows⟩ := s.provider.setState_spec id state
  have hhas (i : BitVec 16) : (s.provider.setState id state).Has i ↔ s.provider.Has i := Rows.has_congr hids
  refine hs.effect (hids ▸ hs.nodup) (fun r hr => ?_) (fun i _ => (hhas i).mpr) fun h => ?_
  · rcases hrows hs.nodup r hr with hr | ⟨r₀, hr₀, rfl, rfl⟩
    · exact .inl hr
    · exact .inr ⟨rfl, (hs.row r₀ hr₀).live.grow hf, fun h => hstate h _⟩
  · rw [hacc] at h
    rw [hhas, hf.gone]
    exact (hs.accepted id h).imp_right (Or.imp_left (hf.passed _))

theorem Sound.removeFabric (hs : s.Sound) (fabIdx : BitVec 8) :
    Sound ⟨s.provider.removeFabricSessions fabIdx, noteFabric s.history fabIdx⟩ := by
  refine ⟨Rows.nodup_filter _ hs.nodup, fun r hr => ?_, fun i h => ?_⟩
  · obtain ⟨hr, hne⟩ := List.mem_filter.mp hr
    have howner : ¬((s.history r.id).owner.any (·.1 == fabIdx)) = true := by
      rw [(hs.row r hr).live.owner]
      exact fun h => bne_iff_ne.mp hne (eq_of_beq h)
    change (noteFabric s.history fabIdx r.id).Backs r
    rw [noteFabric, if_neg howner]
    exact hs.row r hr
  · change _ ∨ (noteFabric s.history fabIdx i).passed = true ∨ (noteFabric s.history fabIdx i).gone = true
    change (noteFabric s.history fabIdx i).accepted = true at h
    rw [noteFabric] at h ⊢
    split at h
    · next howner =>
      rw [if_pos howner]
      exact .inr (.inr rfl)
    · next howner =>
      rw [if_neg howner]
      refine (hs.accepted i h).imp_left fun ⟨r, hr, hid⟩ => ⟨r, List.mem_filter.mpr ⟨hr, ?_⟩, hid⟩
      refine bne_iff_ne.mpr fun hfab => howner ?_
      rw [← hid, (hs.row r hr).live.owner]
      exact beq_iff_eq.mpr hfab

/-! ## One step -/

variable {sdpLen : ℕ} {s' : Traced N}

/-- A command that removes no fabric leaves the table alone up to its first wait. -/
theorem start_cases {c : Command} {t : Option Task} (hc : ∀ fabIdx, c ≠ .removeFabricSessions fabIdx)
    (h : start sdpLen s c = some (s', t)) :
    s'.provider.sessions = s.provider.sessions ∧
      ((t = none ∧ s'.history = s.history) ∨
        ∃ u, t = some u ∧ s.provider.Seen c u ∧ s'.history = noteTask s.provider s.history u) := by
  have hsessions : ((Provider.start sdpLen c).run s.provider).1.sessions = s.provider.sessions :=
    Provider.sessions_start c hc
  have hother (u : Task) : noteStart s.provider s.history c (some u) = noteTask s.provider s.history u := by
    cases c with
    | removeFabricSessions fabIdx => exact absurd rfl (hc fabIdx)
    | _ => rfl
  have hnone : noteStart s.provider s.history c none = s.history := by
    cases c with
    | removeFabricSessions fabIdx => exact absurd rfl (hc fabIdx)
    | _ => rfl
  rw [start] at h
  rcases hrun : (Provider.start sdpLen c).run s.provider with ⟨p', _ | _ | u⟩
  all_goals
    rw [hrun] at h hsessions
    obtain ⟨rfl, rfl⟩ := Prod.mk.inj (Option.some.inj h)
  · exact ⟨hsessions, .inl ⟨rfl, rfl⟩⟩
  · exact ⟨hsessions, .inl ⟨rfl, hnone⟩⟩
  · exact ⟨hsessions, .inr ⟨u, rfl, Provider.seen_of_start hrun, hother u⟩⟩

theorem resume_cases {t : Task} {o : Outcome} {u : Option Task} (h : resume s t o = some (s', u)) :
    ∃ m, Provider.resume t o = some m ∧ s'.provider = (m.run s.provider).1 ∧
      s'.history = noteOutcome s.history t o ∧ ∀ v, u = some v → (m.run s.provider).2 = .ok (.wait v) := by
  obtain ⟨m, hm, h⟩ := Option.map_eq_some_iff.mp h
  refine ⟨m, hm, ?_⟩
  rcases hrun : m.run s.provider with ⟨p', _ | next⟩
  · rw [hrun] at h
    obtain ⟨rfl, rfl⟩ := Prod.mk.inj h
    exact ⟨rfl, rfl, by rintro _ ⟨⟩⟩
  · rw [hrun] at h
    obtain ⟨rfl, rfl⟩ := Prod.mk.inj h
    refine ⟨rfl, rfl, fun v hv => ?_⟩
    cases next with
    | wait t =>
      obtain rfl := Option.some.inj hv
      rfl
    | reply r => cases hv

end Traced

/-! ## The runs -/

/-- The id and the fabric of the row that a command waits to put. -/
def Task.putting : Task → Option (BitVec 16 × BitVec 8)
  | onSolicitOffer sessionId fabIdx .. | onOffer sessionId fabIdx .. => some (sessionId, fabIdx)
  | onAnswer _ | onIceCandidates _ | onEndSession _ | takeOfferSdp _ | sendOffer _ => none

/-- The provider, and the commands that wait for the application. -/
abbrev World (N : ℕ) := Suspending.World (Traced N) Task

/-- Nobody gets in the way of a command that waits: an id that is handed out is not one that a
waiting command names; while a command waits to put a row, its fabric is not removed and its session
is not ended; and a row that the application has accepted has room. And a peer answers only an offer
that has left: not while it is deferred or under way, and not when it was lost. -/
def Suits (w : World N) : Suspending.Act Command Outcome → Prop
  | .start (.solicitOffer ..) | .start (.provideOffer _ _ _ _ (.ok none)) =>
    ∀ id, w.state.provider.IsNextId id → ∀ t ∈ w.waiting, t.sessionId ≠ id
  | .start (.provideAnswer fabIdx peer (.ok id) _) =>
    ∀ r, w.state.provider.sessionCopy id = some r → r.fabIdx = fabIdx → peer = some r.peerNodeId →
      r.state ≠ .awaitingDeferredOffer ∧ (r.state = .awaitingAnswer →
        (w.state.history id).offer ≠ .underWay ∧ (w.state.history id).offer ≠ .lost)
  | .start (.removeFabricSessions fabIdx) =>
    ∀ t ∈ w.waiting, ∀ id, t.putting ≠ some (id, fabIdx)
  | .resume i (.offer (.ok _)) =>
    ∀ t, w.waiting[i]? = some t → ∀ id fabIdx, t.putting = some (id, fabIdx) →
      w.state.provider.Has id ∨ w.state.provider.sessions.1.length < N
  | .resume i (.done _) =>
    ∀ id, w.waiting[i]? = some (.onEndSession id) → ∀ t ∈ w.waiting, ∀ fabIdx, t.putting ≠ some (id, fabIdx)
  | _ => True

namespace Traced

variable {s s' : Traced N} {sdpLen : ℕ}

def Relies (s : Traced N) (t : Task) : Prop := (s.history t.sessionId).Waits t

theorem relies_note {f : History → History} {p' : Provider N} {id : BitVec 16} {t : Task}
    (ht : s.Relies t) (hf : t.sessionId = id → (s.history id).Waits t → (f (s.history id)).Waits t) :
    Relies ⟨p', note s.history id f⟩ t := by
  refine note_cases (P := (History.Waits · t)) t.sessionId ht fun hid => ?_
  rw [hid]
  exact hf hid (hid ▸ ht)

theorem relies_noteFabric {p' : Provider N} {fabIdx : BitVec 8} {t : Task} (ht : s.Relies t)
    (hfab : ∀ id, t.putting ≠ some (id, fabIdx)) : Relies ⟨p', noteFabric s.history fabIdx⟩ t := by
  change (noteFabric s.history fabIdx t.sessionId).Waits t
  rw [noteFabric]
  split
  · next howner =>
    cases t with
    | onSolicitOffer id fabIdx' | onOffer id fabIdx' =>
      obtain ⟨_, howner', _, _⟩ := ht
      rw [howner'] at howner
      obtain rfl : fabIdx' = fabIdx := eq_of_beq howner
      exact absurd rfl (hfab id)
    | _ => exact ht
  · exact ht

theorem start_holds {w : World N} {c : Command} {t : Option Task} (hok : Suits w (.start c))
    (hw : Suspending.Holds Sound Relies w) (hstep : start sdpLen w.state c = some (s', t)) :
    Sound s' ∧ (∀ u ∈ t, Relies s' u) ∧ ∀ u ∈ w.waiting, Relies s' u := by
  by_cases hc : ∃ fabIdx, c = .removeFabricSessions fabIdx
  · obtain ⟨fabIdx, rfl⟩ := hc
    obtain ⟨rfl, rfl⟩ := Prod.mk.inj (Option.some.inj hstep)
    exact ⟨hw.state.removeFabric fabIdx, forall_mem_none, fun u hu => relies_noteFabric (hw.waiting u hu) (hok u hu)⟩
  obtain ⟨hsessions, hcases⟩ := start_cases (fun fabIdx h => hc ⟨fabIdx, h⟩) hstep
  obtain ⟨p', history⟩ := s'
  -- where nothing happens to the sessions
  have hsame : Sound ⟨p', w.state.history⟩ := by
    have hgrow : Sound ⟨p', note w.state.history 0 _⟩ :=
      hw.state.grow History.grows_id hsessions fun _ => rfl
    rwa [note_id] at hgrow
  -- where an id is handed out
  have hfresh {id : BitVec 16} (hid : w.state.provider.IsNextId id) (fabIdx : BitVec 8) (peer : BitVec 64)
      (hwaiting : ∀ t ∈ w.waiting, t.sessionId ≠ id) :
      let s' : Traced N := ⟨p', note w.state.history id fun _ => .handedOut fabIdx peer⟩
      s'.Sound ∧ (s'.history id).Live id fabIdx peer ∧ ∀ u ∈ w.waiting, s'.Relies u := by
    refine ⟨hw.state.handOut hsessions hid.fresh.2, ?_, fun u hu => ?_⟩
    · change (note w.state.history id (fun _ => .handedOut fabIdx peer) id).Live id fabIdx peer
      rw [note_self]
      exact ⟨hid.fresh.1, rfl, rfl, rfl⟩
    · exact relies_note (hw.waiting u hu) fun h => absurd h (hwaiting u hu)
  rcases hcases with ⟨rfl, rfl⟩ | ⟨u, rfl, hseen, rfl⟩
  · exact ⟨hsame, forall_mem_none, hw.waiting⟩
  suffices h : Sound ⟨p', _⟩ ∧ Relies ⟨p', _⟩ u ∧ ∀ v ∈ w.waiting, Relies ⟨p', _⟩ v by
    refine ⟨h.1, fun v hv => ?_, h.2.2⟩
    obtain rfl := Option.some.inj hv
    exact h.2.1
  cases hseen with
  | solicitOffer hid => exact hfresh hid _ _ (hok _ hid)
  | newOffer hid =>
    rw [noteTask, if_neg (mt Provider.isSome_sessionCopy.mp hid.fresh.2)]
    exact hfresh hid _ _ (hok _ hid)
  | oldOffer hcopy hfab hnode =>
    rw [noteTask, if_pos (by rw [hcopy]; rfl)]
    obtain ⟨hr, rfl⟩ := Rows.find?_eq_some (f := SessionEntry.id) hcopy
    obtain ⟨rfl, rfl⟩ := And.intro hfab hnode
    exact ⟨hsame, (hw.state.row _ hr).live, hw.waiting⟩
  | answer hcopy hfab hnode hstate =>
    obtain ⟨hr, rfl⟩ := Rows.find?_eq_some (f := SessionEntry.id) hcopy
    obtain ⟨hdeferred, hoffer⟩ := hok _ hcopy hfab hnode
    exact ⟨hsame, (hw.state.row _ hr).given hstate hdeferred hoffer, hw.waiting⟩
  | iceCandidates => exact ⟨hsame, trivial, hw.waiting⟩
  | push => exact ⟨hsame, trivial, hw.waiting⟩
  | finish =>
    refine ⟨hw.state.grow History.grows_pass hsessions fun _ => rfl, ?_, fun u hu => ?_⟩
    · exact congrArg History.passed (note_self w.state.history _ ({ · with passed := true }))
    · exact relies_note (hw.waiting u hu) fun _ => History.Waits.grow History.grows_pass

theorem resume_holds {w : World N} {i : ℕ} {t : Task} {o : Outcome} {u : Option Task}
    (hok : Suits w (.resume i o)) (hw : Suspending.Holds Sound Relies w) (ht : w.waiting[i]? = some t)
    (hstep : resume w.state t o = some (s', u)) :
    Sound s' ∧ (∀ v ∈ u, Relies s' v) ∧ ∀ v ∈ w.waiting.eraseIdx i, Relies s' v := by
  obtain ⟨m, hm, hp, hhistory, hu⟩ := resume_cases hstep
  obtain ⟨p', history⟩ := s'
  obtain rfl : p' = _ := hp
  obtain rfl : history = _ := hhistory
  have hothers (v : Task) (hv : v ∈ w.waiting.eraseIdx i) : Relies w.state v :=
    hw.waiting v (List.mem_of_mem_eraseIdx hv)
  have hself : Relies w.state t := hw.waiting t (List.mem_of_getElem? ht)
  -- what the others rely on stays, while no session is ended
  have hgrow {f : History → History} (hf : History.Grows f) (id : BitVec 16) (p' : Provider N) (v : Task)
      (hv : v ∈ w.waiting.eraseIdx i) : Relies ⟨p', note w.state.history id f⟩ v :=
    relies_note (hothers v hv) fun _ => History.Waits.grow hf
  cases t with
  | onSolicitOffer id fabIdx peer params =>
    cases o with
    | offer r =>
      obtain rfl := Option.some.inj hm
      cases r with
      | error e => exact ⟨hw.state, fun v hv => (nomatch hu v hv), hothers⟩
      | ok outcome =>
        have hlive : (w.state.history id).Live id fabIdx peer := hself
        have hgrows := History.grows_solicited outcome.deferred
        have hentry := hlive.backs_solicited params outcome
        have hput := hw.state.put (f := (·.solicited outcome.deferred))
          (Provider.entryOf id fabIdx peer params outcome _) (.solicitOfferResponse id outcome.deferred
            outcome.videoStreamId outcome.audioStreamId) hentry (hok _ ht id fabIdx rfl)
        exact ⟨hput.1, fun v hv => absurd (hu v hv) (hput.2 v), hgrow hgrows id _⟩
    | done r | sent r => cases hm
  | onOffer id fabIdx peer params =>
    cases o with
    | offer r =>
      obtain rfl := Option.some.inj hm
      cases r with
      | error e => exact ⟨hw.state, fun v hv => (nomatch hu v hv), hothers⟩
      | ok outcome =>
        have hlive : (w.state.history id).Live id fabIdx peer := hself
        have hentry := hlive.backs_offered params outcome
        have hput := hw.state.put (f := ({ · with accepted := true }))
          (Provider.entryOf id fabIdx peer params outcome _) (.provideOfferResponse id
            outcome.videoStreamId outcome.audioStreamId) hentry (hok _ ht id fabIdx rfl)
        exact ⟨hput.1, fun v hv => absurd (hu v hv) (hput.2 v), hgrow History.grows_accept id _⟩
    | done r | sent r => cases hm
  | onAnswer id =>
    cases o with
    | done r =>
      obtain rfl := Option.some.inj hm
      cases r with
      | error e => exact ⟨hw.state, fun v hv => (nomatch hu v hv), hothers⟩
      | ok _ =>
        have hset := hw.state.setState id .established History.grows_id (fun _ => rfl) nofun
        rw [note_id] at hset
        exact ⟨hset, fun v hv => (nomatch hu v hv), hothers⟩
    | offer r | sent r => cases hm
  | onIceCandidates id =>
    cases o with
    | done r =>
      obtain rfl := Option.some.inj hm
      cases r with
      | error e => exact ⟨hw.state, fun v hv => (nomatch hu v hv), hothers⟩
      | ok _ => exact ⟨hw.state, fun v hv => (nomatch hu v hv), hothers⟩
    | offer r | sent r => cases hm
  | onEndSession id =>
    cases o with
    | done r =>
      obtain rfl := Option.some.inj hm
      refine ⟨hw.state.finish hself, fun v hv => (nomatch hu v hv), fun v hv => ?_⟩
      refine relies_note (f := ({ · with ended := true })) (hothers v hv) fun hid hv' => ?_
      have hputting := hok id ht v (List.mem_of_mem_eraseIdx hv)
      cases v with
      | onSolicitOffer id' fabIdx | onOffer id' fabIdx =>
        obtain rfl : id' = id := hid
        exact absurd rfl (hputting fabIdx)
      | _ => exact hv'
    | offer r | sent r => cases hm
  | takeOfferSdp session =>
    cases o with
    | done r =>
      obtain rfl := Option.some.inj hm
      cases r with
      | error e => exact ⟨hw.state, fun v hv => (nomatch hu v hv), hothers⟩
      | ok _ =>
        have hgrows := History.grows_offering .underWay nofun
        refine ⟨hw.state.setState _ _ hgrows (History.accepted_offering _) fun _ =>
          History.offering_ne_none nofun, fun v hv => ?_, hgrow hgrows _ _⟩
        obtain rfl := Next.wait.inj (Except.ok.inj (hu v hv))
        trivial
    | offer r | sent r => cases hm
  | sendOffer session =>
    cases o with
    | sent r =>
      obtain rfl := Option.some.inj hm
      cases r with
      | error e =>
        have hgrows := History.grows_offering .lost nofun
        exact ⟨hw.state.grow hgrows rfl (History.accepted_offering _), fun v hv => (nomatch hu v hv),
          hgrow hgrows _ _⟩
      | ok _ =>
        have hgrows := History.grows_offering .given nofun
        exact ⟨hw.state.grow hgrows rfl (History.accepted_offering _), fun v hv => (nomatch hu v hv),
          hgrow hgrows _ _⟩
    | offer r | done r => cases hm

/-! ### What stays -/

theorem note_keeps {β : Type} (part : History → β) {f : History → History}
    (hf : ∀ h, part (f h) = part h) (history : BitVec 16 → History) (id i : BitVec 16) :
    part (note history id f i) = part (history i) :=
  note_cases (P := (part · = part (history i))) i rfl fun _ => hf _

theorem noteOutcome_keeps {β : Type} (part : History → β)
    (hsolicited : ∀ h deferred, part (h.solicited deferred) = part h)
    (haccepted : ∀ h, part { h with accepted := true } = part h)
    (hended : ∀ h, part { h with ended := true } = part h)
    (hoffering : ∀ h status, part (h.offering status) = part h)
    (history : BitVec 16 → History) (t : Task) (o : Outcome) (i : BitVec 16) :
    part (noteOutcome history t o i) = part (history i) := by
  unfold noteOutcome
  split
  · exact note_keeps part (fun h => hsolicited h _) history _ i
  · exact note_keeps part haccepted history _ i
  · exact note_keeps part hended history _ i
  · exact note_keeps part (fun h => hoffering h _) history _ i
  · exact note_keeps part (fun h => hoffering h _) history _ i
  · exact note_keeps part (fun h => hoffering h _) history _ i
  · rfl

theorem owner_of_step {w w' : World N} {a : Suspending.Act Command Outcome}
    (hstep : (program N sdpLen).machine.step w a = some w') {id : BitVec 16}
    (hid : w.state.provider.Has id) : (w'.state.history id).owner = (w.state.history id).owner := by
  cases a with
  | start c =>
    obtain ⟨⟨s', t⟩, hrun, rfl⟩ := Option.map_eq_some_iff.mp hstep
    change (s'.history id).owner = _
    by_cases hc : ∃ fabIdx, c = .removeFabricSessions fabIdx
    · obtain ⟨fabIdx, rfl⟩ := hc
      obtain ⟨rfl, rfl⟩ := Prod.mk.inj (Option.some.inj hrun)
      change (noteFabric w.state.history fabIdx id).owner = _
      rw [noteFabric]
      split <;> rfl
    obtain ⟨_, ⟨_, hsame⟩ | ⟨u, _, hseen, hnote⟩⟩ := start_cases (fun fabIdx h => hc ⟨fabIdx, h⟩) hrun
    · rw [hsame]
    · have hother {id' : BitVec 16} (hnext : w.state.provider.IsNextId id') : id ≠ id' := by
        rintro rfl
        exact hnext.fresh.2 hid
      rw [hnote]
      cases hseen with
      | solicitOffer hnext => rw [noteTask, note_of_ne _ _ (hother hnext)]
      | newOffer hnext =>
        rw [noteTask, if_neg (mt Provider.isSome_sessionCopy.mp hnext.fresh.2),
          note_of_ne _ _ (hother hnext)]
      | oldOffer hcopy => rw [noteTask, if_pos (by rw [hcopy]; rfl)]
      | finish => exact note_keeps History.owner (f := ({ · with passed := true })) (fun _ => rfl) _ _ _
      | answer | iceCandidates | push => rfl
  | resume i o =>
    obtain ⟨t, _, hrest⟩ := Option.bind_eq_some_iff.mp hstep
    obtain ⟨⟨s', u⟩, hrun, rfl⟩ := Option.map_eq_some_iff.mp hrest
    obtain ⟨_, _, _, hhistory, _⟩ := resume_cases hrun
    change (s'.history id).owner = _
    rw [hhistory]
    exact noteOutcome_keeps History.owner (fun _ _ => rfl) (fun _ => rfl) (fun _ => rfl)
      (fun h _ => by rw [History.offering]; split <;> rfl) _ t o id

theorem gone_of_step {w w' : World N} {a : Suspending.Act Command Outcome}
    (ha : ∀ fabIdx, a ≠ .start (.removeFabricSessions fabIdx))
    (hgone : ∀ id, (w.state.history id).gone = false)
    (hstep : (program N sdpLen).machine.step w a = some w') (id : BitVec 16) :
    (w'.state.history id).gone = false := by
  cases a with
  | start c =>
    obtain ⟨⟨s', t⟩, hrun, rfl⟩ := Option.map_eq_some_iff.mp hstep
    change (s'.history id).gone = false
    obtain ⟨_, ⟨_, hsame⟩ | ⟨u, _, _, hnote⟩⟩ := start_cases (fun fabIdx h => ha fabIdx (h ▸ rfl)) hrun
    · rw [hsame]
      exact hgone id
    · rw [hnote, noteTask.eq_def]
      split
      · exact note_cases (P := (History.gone · = false)) id (hgone id) fun _ => rfl
      · split
        · exact hgone id
        · exact note_cases (P := (History.gone · = false)) id (hgone id) fun _ => rfl
      · exact note_cases (P := (History.gone · = false)) id (hgone id) fun _ => hgone _
      all_goals exact hgone id
  | resume i o =>
    obtain ⟨t, _, hrest⟩ := Option.bind_eq_some_iff.mp hstep
    obtain ⟨⟨s', u⟩, hrun, rfl⟩ := Option.map_eq_some_iff.mp hrest
    obtain ⟨_, _, _, hhistory, _⟩ := resume_cases hrun
    change (s'.history id).gone = false
    rw [hhistory]
    refine (noteOutcome_keeps History.gone (fun _ _ => rfl) (fun _ => rfl) (fun _ => rfl)
      (fun h _ => ?_) _ t o id).trans (hgone id)
    rw [History.offering]
    split <;> rfl

end Traced

/-! ## Whole runs -/

structure Correct (w : World N) : Prop where
  nodup : (w.state.provider.sessions.1.map (·.id)).Nodup
  /-- no id is `0` -/
  id_ne_zero (r : SessionEntry) (hr : r ∈ w.state.provider.sessions.1) : r.id ≠ 0
  current (r : SessionEntry) (hr : r ∈ w.state.provider.sessions.1) :
    (w.state.history r.id).ended = false ∧ (w.state.history r.id).gone = false
  /-- what the application has accepted is there, or it has been told, or the fabric is gone -/
  accepted (id : BitVec 16) (h : (w.state.history id).accepted = true) : w.state.provider.Has id ∨
    (w.state.history id).passed = true ∨ (w.state.history id).gone = true
  /-- an answer is passed on only where the offer was given -/
  answer (id : BitVec 16) (h : .onAnswer id ∈ w.waiting) : (w.state.history id).offer = .given

def World.new : World N := ⟨.new, []⟩

theorem holds_new : Suspending.Holds Traced.Sound Traced.Relies (World.new : World N) :=
  ⟨⟨List.nodup_nil, List.forall_mem_nil _, by rintro _ ⟨⟩⟩, List.forall_mem_nil _⟩

theorem holds_of_step {sdpLen : ℕ} (w : World N) (a : Suspending.Act Command Outcome) (w' : World N)
    (hok : Suits w a) (hw : Suspending.Holds Traced.Sound Traced.Relies w)
    (hstep : (Traced.program N sdpLen).machine.step w a = some w') :
    Suspending.Holds Traced.Sound Traced.Relies w' :=
  Suspending.holds_step (P := Traced.program N sdpLen) Suits (fun _ _ _ _ hok hw => Traced.start_holds hok hw)
    (fun _ _ _ _ _ _ hok hw => Traced.resume_holds hok hw) w a w' hok hw hstep

theorem correct_of_holds {w : World N} (hw : Suspending.Holds Traced.Sound Traced.Relies w) : Correct w where
  nodup := hw.state.nodup
  id_ne_zero r hr := (hw.state.row r hr).live.id_ne_zero
  current r hr := ⟨(hw.state.row r hr).live.ended, (hw.state.row r hr).live.gone⟩
  accepted := hw.state.accepted
  answer _ h := hw.waiting _ h

namespace Sample

def params : OfferParams := ⟨.liveView, 1, none, none, false⟩

def accepted (deferred : Bool) : Outcome := .offer (.ok ⟨deferred, some 3, none⟩)

def row (id : BitVec 16) (state : SessionState) : SessionEntry :=
  ⟨id, 1, 7, 1, .liveView, some 3, none, false, state⟩

def solicit : Suspending.Act Command Outcome := .start (.solicitOffer 1 (some 7) (.ok params))

/-- A peer makes an offer, for a new session or another one. -/
def offer (id : Option (BitVec 16)) : Suspending.Act Command Outcome :=
  .start (.provideOffer 1 (some 7) (.ok []) (.ok params) (.ok id))

/-- A peer answers the offer of the first session. -/
def answer : Suspending.Act Command Outcome := .start (.provideAnswer 1 (some 7) (.ok 1) (.ok []))

/-- A peer asks for an offer, gets it and answers it. -/
def answered : List (Suspending.Act Command Outcome) :=
  [solicit, .resume 0 (accepted false), answer, .resume 0 (.done (.ok ()))]

theorem meets_answered : (Traced.program 2 64).machine.Meets Suits World.new answered := by
  refine ⟨fun _ _ => List.forall_mem_nil _, fun w hw => ?_⟩
  obtain rfl := Option.some.inj hw
  refine ⟨fun _ _ _ _ _ => .inr (by decide +kernel), fun w hw => ?_⟩
  obtain rfl := Option.some.inj hw
  refine ⟨fun r hr _ _ => ?_, fun w hw => ?_⟩
  · obtain rfl : row 1 .awaitingAnswer = r := Option.some.inj hr
    exact ⟨by rintro ⟨⟩, fun _ => ⟨by rintro ⟨⟩, by rintro ⟨⟩⟩⟩
  obtain rfl := Option.some.inj hw
  exact ⟨by rintro _ ⟨⟩, fun _ _ => trivial⟩

end Sample

end WebRtc

end RsMatter
