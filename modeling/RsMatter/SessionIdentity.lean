import RsMatter.ExchangeOwners
import RsMatter.ExpiredSession
import RsMatter.SoundSessions

/-!
# Which session is meant (`transport/session.rs`)

A session has an internal id, by which the node itself refers to it, and a local session id, by
which the packets of its peer do. Internal ids are counted up and start over after 28 bits, and
nobody looks whether the next one is in use. A handshake reserves a session, takes the next local
id that no session has, and stores it in the session only when it has agreed on keys; until then
the id is in use by nobody. The session of a group message gets the session id of the message.

Where none of this brings an id up twice, ids tell the sessions apart
(`Handshakes.addressed_of_run`).
-/

namespace RsMatter

/-! ## What sessions are found by -/

structure SessionIdentity where
  id : BitVec 32
  /-- have the two parties agreed on keys in a handshake? -/
  secured : Bool
  localSessId : BitVec 16
  peerAddr : Address
  deriving DecidableEq

def KeyedSession.identity (s : KeyedSession) : SessionIdentity :=
  ⟨s.id, s.mode.isHandshake, s.localSessId, s.peerAddr⟩

namespace KeyedSessions

def identities (ss : KeyedSessions) : List SessionIdentity := ss.sessions.map (·.identity)

def getForTx (sessionId : BitVec 32) (ss : KeyedSessions) : Option KeyedSession :=
  ss.sessions.find? (·.id == sessionId)

def hasLocalSessId (ss : KeyedSessions) (sessId : BitVec 16) : Bool :=
  ss.sessions.any (·.localSessId == sessId)

/-- What the session that a step sets up is found by. -/
def newIdentity (ss : KeyedSessions) (a : Action) : Option SessionIdentity :=
  if ss.setsUp a = true then
    match a with
    | .decodePacket _ peer buf => some ⟨ss.newId, false, rxSessId buf, peer⟩
    | .createUnsecured _ peer _ _ => some ⟨ss.newId, false, 0, peer⟩
    | .reserveNow .. => some ⟨ss.newId, false, 0, .udp ⟨.v4 0, 0⟩⟩
    | _ => none
  else none

/-- Does a handshake load what it has agreed on into its session? -/
def Action.isUpdate : Action → Bool
  | .updatePase .. => true
  | .updateCase .. => true
  | _ => false

variable {ss ss' : KeyedSessions} {s s' : KeyedSession}

theorem identities_of_middle {a c : List KeyedSession} (hold : ss.sessions = a ++ s :: c)
    (hnew : ss'.sessions = a ++ s' :: c) (h : s'.identity = s.identity) :
    ss'.identities = ss.identities := by
  rw [identities, identities, hold, hnew, List.map_append, List.map_append, List.map_cons,
    List.map_cons, h]

theorem identities_onSession {β : Type} {id : BitVec 32} {now : ℕ}
    {f : KeyedSession → KeyedSession × β} {b : β} (h : ss.onSession id now f = some (ss', b))
    (hf : ∀ t : KeyedSession, (f t).1.identity = t.identity) : ss'.identities = ss.identities := by
  obtain ⟨a, t, c, hold, -, hnew, -⟩ := onSession_eq_some h
  exact identities_of_middle hold hnew (hf _)

theorem identities_onPlain {id : BitVec 32} {now : ℕ} {f : Session → Option Session}
    (hf : ∀ t t' : Session, f t = some t' →
      t'.id = t.id ∧ t'.mode = t.mode ∧ t'.localSessId = t.localSessId ∧ t'.peerAddr = t.peerAddr)
    (h : ss.onPlain id now f = some ss') : ss'.identities = ss.identities := by
  rw [onPlain] at h
  obtain ⟨⟨ss₁, b⟩, hon, hr⟩ := Option.bind_eq_some_iff.mp h
  dsimp only at hr
  split at hr
  · cases hr
    refine identities_onSession hon fun t => ?_
    cases hft : f t.toSession with
    | none => rfl
    | some t' =>
      obtain ⟨hid, hmode, hlocal, haddr⟩ := hf _ _ hft
      simp only [KeyedSession.identity, hid, hmode, hlocal, haddr]
  · cases hr

theorem identities_of_subperm (h : ss'.sessions.Subperm ss.sessions) (new : List SessionIdentity) :
    ss'.identities.Subperm (ss.identities ++ new) :=
  (map_subperm _ h).trans (List.sublist_append_left _ _).subperm

theorem identities_dropExcept (p q : KeyedSession → Bool) (expireSessId : Option (BitVec 32))
    (new : List SessionIdentity) :
    (ss.dropExcept p q expireSessId).identities.Subperm (ss.identities ++ new) := by
  have hdrop : (swapRemoveWhere (fun s => p s && decide (some s.id ≠ expireSessId))
      ss.sessions).Subperm ss.sessions :=
    (swapRemoveWhere_perm _ _).subperm.trans List.filter_sublist.subperm
  cases expireSessId with
  | none => exact identities_of_subperm hdrop new
  | some id =>
    refine List.Subperm.trans ?_ ((map_subperm _ hdrop).trans (List.sublist_append_left _ _).subperm)
    rw [dropExcept, identities]
    dsimp only
    cases hmod : modifyFirst (fun s : KeyedSession => s.id == id && q s)
        (fun s => { s with expired := true })
        (swapRemoveWhere (fun s => p s && decide (some s.id ≠ some id)) ss.sessions) with
    | none => exact List.Subperm.refl _
    | some l =>
      obtain ⟨a, x, c, hl, -, rfl⟩ := modifyFirst_eq_some hmod
      rw [hl, Option.getD_some, List.map_append, List.map_append, List.map_cons, List.map_cons]
      exact List.Subperm.refl _

theorem identity_postRecv (s : KeyedSession) (rx : PacketHdr) (now : ℕ) :
    (s.postRecv rx now).1.identity = s.identity := by
  have hframe := Session.postRecv_frame s.toSession rx now
  have hid := congrArg Session.id hframe
  have hmode := congrArg Session.mode hframe
  have hlocal := congrArg Session.localSessId hframe
  have haddr := congrArg Session.peerAddr hframe
  simp only [KeyedSession.identity, KeyedSession.postRecv]
  rw [hid, hmode, hlocal, haddr]

theorem identities_of_append {kept : List KeyedSession} {x : SessionIdentity} {new : Option SessionIdentity}
    (hkept : kept.Subperm ss.sessions) (hnew : ss'.sessions = kept ++ [s']) (hx : s'.identity = x)
    (heq : new = some x) : ss'.identities.Subperm (ss.identities ++ new.toList) := by
  subst heq hx
  rw [identities, hnew, List.map_append]
  exact (List.subperm_append_right _).mpr (map_subperm _ hkept)

theorem newIdentity_decodePacket {env : RxEnv} {peer : Address} {buf : List UInt8}
    (h : ss.setsUp (.decodePacket env peer buf) = true) :
    ss.newIdentity (.decodePacket env peer buf) = some ⟨ss.newId, false, rxSessId buf, peer⟩ := by
  rw [newIdentity, if_pos h]

theorem identities_decodePacket (env : RxEnv) (peer : Address) (buf : List UInt8)
    (ss : KeyedSessions) : (ss.decodePacket env peer buf).1.identities.Subperm
      (ss.identities ++ (ss.newIdentity (.decodePacket env peer buf)).toList) := by
  have hsame : ∀ {ss' : KeyedSessions}, ss'.identities = ss.identities →
      ss'.identities.Subperm (ss.identities ++
        (ss.newIdentity (.decodePacket env peer buf)).toList) := by
    intro ss' h
    rw [h]
    exact (List.sublist_append_left _ _).subperm
  cases received_decodePacket env peer buf ss with
  | refused hsub _ => exact identities_of_subperm hsub _
  | undecoded a s c code _ hold hnew _ => exact hsame (identities_of_middle hold hnew rfl)
  | taken a s c plain pb rx _ _ _ hold hnew _ =>
    exact hsame (identities_of_middle hold hnew (identity_postRecv _ rx env.now))
  | opened kept s rx hkept hblank hsetsUp hmode hnew _ =>
    refine identities_of_append hkept hnew ?_ (newIdentity_decodePacket hsetsUp)
    have hplain : s.mode.isHandshake = false := by
      rcases hmode with hmode | ⟨hmode, -⟩
      · rw [hmode]
        rfl
      · cases hm : s.mode <;> simp_all [SessionMode.isGroup, SessionMode.isHandshake]
    rw [identity_postRecv, KeyedSession.identity, hblank.id, hblank.localSessId, hblank.peerAddr,
      hplain]

/-- **One step** of the table, unless a handshake loads what it has agreed on: sessions are found
by what they were found by, and there can be a new one. -/
theorem identities_step {a : Action} (ha : a.isUpdate = false) (h : ss.step a = some ss') :
    ss'.identities.Subperm (ss.identities ++ (ss.newIdentity a).toList) := by
  have hsame : ∀ {ss' : KeyedSessions}, ss'.identities = ss.identities →
      ss'.identities.Subperm (ss.identities ++ (ss.newIdentity a).toList) := by
    intro ss' h
    rw [h]
    exact (List.sublist_append_left _ _).subperm
  cases a with
  | decodePacket env peer buf =>
    cases h
    exact identities_decodePacket env peer buf ss
  | createUnsecured msgCtr peer ephemeralId now =>
    rw [step] at h
    obtain ⟨ss₁, result, hadd, -, ⟨rfl, hroom, hsessions⟩ | ⟨⟨code, rfl⟩, -, hsessions⟩⟩ :=
      add_cases msgCtr false peer none now ss
    · rw [hadd] at h
      cases h
      have hlast := sessions_modifyLast hsessions fun s => { s with localNodeid := ephemeralId }
      refine identities_of_append (List.Subperm.refl _) hlast rfl ?_
      rw [newIdentity, setsUp, if_pos (decide_eq_true hroom), newId, if_pos hroom]
      rfl
    · rw [hadd] at h
      cases h
      exact identities_of_subperm (hsessions ▸ List.Subperm.refl _) _
  | reserveNow msgCtr now =>
    obtain ⟨ss₁, result, hadd, -, ⟨rfl, hroom, hsessions⟩ | ⟨⟨code, rfl⟩, -, hsessions⟩⟩ :=
      add_cases msgCtr true (.udp ⟨.v4 0, 0⟩) none now ss
    · rw [step, hadd] at h
      cases h
      refine identities_of_append (List.Subperm.refl _) hsessions rfl ?_
      rw [newIdentity, setsUp, if_pos (decide_eq_true hroom), newId, if_pos hroom]
      rfl
    · rw [step, hadd] at h
      cases h
      exact identities_of_subperm (hsessions ▸ List.Subperm.refl _) _
  | updatePase id params decKey encKey now => cases ha
  | updateCase id fabIdx catIds params decKey encKey now => cases ha
  | complete id now =>
    obtain ⟨⟨ss₁, b⟩, hon, rfl⟩ := Option.map_eq_some_iff.mp h
    exact hsame (identities_onSession hon fun t => rfl)
  | remove id =>
    cases h
    exact identities_of_subperm (remove_subperm id ss) _
  | removeForFabric fabricIdx expireSessId =>
    cases h
    exact identities_dropExcept _ _ _ _
  | removePase expireSessId =>
    cases h
    exact identities_dropExcept _ _ _ _
  | upgradeFabricIdx id fabricIdx now =>
    obtain ⟨⟨ss₁, b⟩, hon, rfl⟩ := Option.map_eq_some_iff.mp h
    refine hsame (identities_onSession hon fun t => ?_)
    -- a PASE session stays one
    rw [KeyedSession.upgradeFabricIdx]
    split
    · next hmode => simp only [KeyedSession.identity, hmode, SessionMode.isHandshake]
    · rfl
  | addExch id exchId role now =>
    rw [step] at h
    refine hsame (identities_onPlain (fun t t' ht => ?_) h)
    obtain ⟨⟨i, t₁⟩, hadd, rfl⟩ := Option.map_eq_some_iff.mp ht
    rw [Session.addExch_frame hadd]
    exact ⟨rfl, rfl, rfl, rfl⟩
  | removeExch id index now =>
    rw [step] at h
    refine hsame (identities_onPlain (fun t t' ht => ?_) h)
    obtain ⟨⟨b, t₁⟩, hremove, rfl⟩ := Option.map_eq_some_iff.mp ht
    rw [Session.removeExch_frame hremove]
    exact ⟨rfl, rfl, rfl, rfl⟩
  | preSend id exchIndex tx sai now =>
    rw [step] at h
    refine hsame (identities_onPlain (fun t t' ht => ?_) h)
    obtain ⟨⟨t₁, hdr, addr, b⟩, hsend, rfl⟩ := Option.map_eq_some_iff.mp ht
    rw [Session.preSend_frame hsend]
    exact ⟨rfl, rfl, rfl, rfl⟩
  | reset =>
    cases h
    exact List.nil_subperm

/-- A handshake loads what it has agreed on: the first session with its id is found by that. -/
theorem identities_update {id : BitVec 32} {now : ℕ} {f : KeyedSession → KeyedSession × Unit}
    {b : Unit} {x : SessionIdentity} (h : ss.onSession id now f = some (ss', b))
    (hf : ∀ t : KeyedSession, (f t).1.identity = { x with id := t.id }) :
    ∃ a t c, t.id = id ∧ ss.identities = a ++ t :: c ∧
      ss'.identities = a ++ { x with id } :: c := by
  obtain ⟨a, t, c, hold, hget, hnew, -⟩ := onSession_eq_some h
  refine ⟨a.map (·.identity), t.identity, c.map (·.identity), id_of_get hget, ?_, ?_⟩
  · rw [identities, hold, List.map_append, List.map_cons]
  · rw [identities, hnew, List.map_append, List.map_cons, hf]
    have hid : t.id = id := id_of_get hget
    have hused : (t.updateLastUsed now).id = id := hid
    rw [hused]

end KeyedSessions

/-! ## Handshakes -/

structure Handshake where
  /-- the internal id of the session that it has reserved -/
  id : BitVec 32
  /-- the local session id that it has been given -/
  localSessId : Option (BitVec 16)
  deriving DecidableEq

/-- The sessions, with the handshakes under way. -/
structure Handshakes where
  table : KeyedSessions
  nextSessId : BitVec 16
  handshakes : List Handshake
  deriving DecidableEq

namespace Handshakes

def new : Handshakes := ⟨.new, 1, []⟩

inductive Action where
  /-- something that has nothing to do with handshakes -/
  | table (a : KeyedSessions.Action)
  /-- a handshake begins and reserves a session -/
  | reserveNow (msgCtr : BitVec 32) (now : ℕ)
  /-- a handshake is given a local session id -/
  | getNextSessId (i : ℕ)
  /-- a PASE handshake has agreed on keys -/
  | updatePase (i : ℕ) (params : Device.SecureParams) (decKey encKey : List UInt8) (now : ℕ)
  /-- a CASE handshake has agreed on keys -/
  | updateCase (i : ℕ) (fabIdx : ℕ) (catIds : List (BitVec 32)) (params : Device.SecureParams)
    (decKey encKey : List UInt8) (now : ℕ)
  /-- a handshake is done with its session -/
  | complete (i now : ℕ)
  /-- a handshake fails, and its session goes -/
  | drop (i : ℕ)
  | reset

/-- Has an action on the table nothing to do with handshakes and local ids? -/
def isOther : KeyedSessions.Action → Bool
  | .reserveNow .. => false
  | .updatePase .. => false
  | .updateCase .. => false
  | .complete .. => false
  | .reset => false
  | _ => true

/-- The next local id that no session has, and the one after it (`get_next_sess_id`): the loop is
that of `get_next_exch_id`. -/
def getNextSessId (h : Handshakes) : Option (BitVec 16 × BitVec 16) :=
  nextExchIdLoop h.table.hasLocalSessId 0xffff h.nextSessId

/-- A handshake loads what it has agreed on into its session, with the local id it was given. -/
def update (h : Handshakes) (i : ℕ) (a : BitVec 32 → BitVec 16 → KeyedSessions.Action) :
    Option Handshakes :=
  match h.handshakes[i]? with
  | some ⟨id, some localSessId⟩ => (h.table.step (a id localSessId)).map ({ h with table := · })
  | _ => none

/-- The sessions and handshakes after something has happened. -/
def step (h : Handshakes) : Action → Option Handshakes
  | .table a =>
    if isOther a = true then (h.table.step a).map ({ h with table := · }) else none
  | .reserveNow msgCtr now =>
    match h.table.add msgCtr true (.udp ⟨.v4 0, 0⟩) none now with
    | (table, .ok ()) =>
      some { h with table, handshakes := ⟨h.table.nextSessUniqueId, none⟩ :: h.handshakes }
    | (table, .error _) => some { h with table }
  | .getNextSessId i =>
    match h.handshakes[i]?, h.getNextSessId with
    | some k, some (id, next) =>
      some { h with
        nextSessId := next
        handshakes := h.handshakes.set i { k with localSessId := some id } }
    | _, _ => none
  | .updatePase i params decKey encKey now =>
    h.update i fun id localSessId => .updatePase id { params with localSessId } decKey encKey now
  | .updateCase i fabIdx catIds params decKey encKey now =>
    h.update i fun id localSessId =>
      .updateCase id fabIdx catIds { params with localSessId } decKey encKey now
  | .complete i now =>
    match h.handshakes[i]? with
    | some k =>
      (h.table.step (.complete k.id now)).map fun table =>
        { h with table, handshakes := h.handshakes.eraseIdx i }
    | none => none
  | .drop i =>
    match h.handshakes[i]? with
    | some k => some { h with table := h.table.remove k.id, handshakes := h.handshakes.eraseIdx i }
    | none => none
  | .reset => some { h with table := h.table.reset, nextSessId := 1 }

def machine : Machine Handshakes Action := ⟨step⟩

/-! ## The property -/

end Handshakes

structure KeyedSessions.Addressed (ss : KeyedSessions) : Prop where
  ids : (ss.sessions.map (·.id)).Nodup
  /-- the local id of a session that a handshake has completed is its own -/
  localSessIds : ∀ s ∈ ss.sessions, s.reserved = false → s.mode.isHandshake = true →
    s.localSessId ≠ 0 ∧ ∀ t ∈ ss.sessions, t ≠ s → t.reserved = false → t.peerAddr = s.peerAddr →
      t.localSessId ≠ s.localSessId
  /-- every session is found by its internal id -/
  get : ∀ s ∈ ss.sessions, ss.get s.id = some s ∧ ss.getForTx s.id = some s
  /-- a packet that is for such a session is for no other one -/
  getForRx : ∀ rxPeer rxPlain, ∀ s ∈ ss.sessions, s.mode.isHandshake = true → s.expired = false →
    s.isForRx rxPeer rxPlain = true → ss.getForRx rxPeer rxPlain = some s ∧
      ∀ t ∈ ss.sessions, t.isForRx rxPeer rxPlain = true → t = s

namespace Handshakes

/-- Is nobody found by the ids of a session that is set up? -/
def Free (h : Handshakes) (x : SessionIdentity) : Prop :=
  (∀ s ∈ h.table.sessions, s.id ≠ x.id) ∧ (∀ k ∈ h.handshakes, k.id ≠ x.id) ∧
  (∀ s ∈ h.table.sessions, s.mode.isHandshake = true → s.peerAddr = x.peerAddr →
    s.localSessId ≠ x.localSessId) ∧
  ∀ k ∈ h.handshakes, k.localSessId ≠ some x.localSessId

/-- Does a step bring no id up twice? A session that is set up has an internal id that no session
and no handshake has, and a session id that no session with keys for the same peer has and that
no handshake has been given; and a handshake is given an id that no other handshake under way
has been given. -/
def Fresh (h : Handshakes) : Action → Prop
  | .table a => ∀ x ∈ h.table.newIdentity a, h.Free x
  | .reserveNow msgCtr now => ∀ x ∈ h.table.newIdentity (.reserveNow msgCtr now), h.Free x
  | .getNextSessId _ => ∀ r ∈ h.getNextSessId, ∀ k ∈ h.handshakes, k.localSessId ≠ some r.1
  | _ => True

instance (h : Handshakes) (x : SessionIdentity) : Decidable (h.Free x) :=
  inferInstanceAs (Decidable (_ ∧ _ ∧ _ ∧ _))

instance (h : Handshakes) : (a : Action) → Decidable (h.Fresh a)
  | .table a => inferInstanceAs (Decidable (∀ x ∈ h.table.newIdentity a, h.Free x))
  | .reserveNow msgCtr now =>
    inferInstanceAs (Decidable (∀ x ∈ h.table.newIdentity (.reserveNow msgCtr now), h.Free x))
  | .getNextSessId _ =>
    -- not through all pairs of ids
    show Decidable (∀ r ∈ h.getNextSessId, ∀ k ∈ h.handshakes, k.localSessId ≠ some r.1) from
      Option.decidableForallMem h.getNextSessId
  | .updatePase .. => .isTrue trivial
  | .updateCase .. => .isTrue trivial
  | .complete .. => .isTrue trivial
  | .drop _ => .isTrue trivial
  | .reset => .isTrue trivial

/-- What holds as long as no id comes up twice. -/
structure Inv (h : Handshakes) : Prop where
  sound : h.table.Sound
  ids : (h.table.identities.map (·.id)).Nodup
  /-- the local id of a session with keys is its own among the sessions for its peer -/
  secured : ∀ s ∈ h.table.identities, s.secured = true → s.localSessId ≠ 0 ∧
    ∀ t ∈ h.table.identities, t.id ≠ s.id → t.peerAddr = s.peerAddr → t.localSessId ≠ s.localSessId
  own : (h.handshakes.map (·.id)).Nodup
  /-- the local id that a handshake has been given is its own -/
  given : ∀ k ∈ h.handshakes, ∀ x, k.localSessId = some x → x ≠ 0 ∧
    (∀ s ∈ h.table.identities, s.id ≠ k.id → s.localSessId ≠ x) ∧
    ∀ k' ∈ h.handshakes, k' ≠ k → k'.localSessId ≠ some x
  /-- `0` is left out -/
  next : h.nextSessId ≠ 0

theorem inv_new : new.Inv where
  sound := .of_nil rfl
  ids := List.nodup_nil
  secured := List.forall_mem_nil _
  own := List.nodup_nil
  given := List.forall_mem_nil _
  next := by decide

variable {h h' : Handshakes} {a : Action}

/-- Nobody is found by the ids of the session, and it has no keys of its own. -/
theorem Free.identities {x : SessionIdentity} (hfree : h.Free x) :
    (∀ s ∈ h.table.identities, s.id ≠ x.id) ∧
    ∀ s ∈ h.table.identities, s.secured = true → s.peerAddr = x.peerAddr →
      s.localSessId ≠ x.localSessId := by
  constructor
  · intro s hs
    obtain ⟨t, ht, rfl⟩ := List.mem_map.mp hs
    exact hfree.1 t ht
  · intro s hs
    obtain ⟨t, ht, rfl⟩ := List.mem_map.mp hs
    exact hfree.2.2.1 t ht

/-- Sessions and handshakes go, and a session without keys can come. -/
theorem Inv.of_subperm (hinv : h.Inv) {new : Option SessionIdentity} (hsound : h'.table.Sound)
    (hsub : h'.table.identities.Subperm (h.table.identities ++ new.toList))
    (hnew : ∀ x ∈ new, h.Free x ∧ x.secured = false) (hks : h'.handshakes.Sublist h.handshakes)
    (hnext : h'.nextSessId ≠ 0) : h'.Inv := by
  have hmem : ∀ s ∈ h'.table.identities, s ∈ h.table.identities ∨ new = some s := by
    intro s hs
    rcases List.mem_append.mp (hsub.subset hs) with hs | hs
    · exact .inl hs
    · exact .inr (Option.mem_toList.mp hs)
  refine ⟨hsound, ?_, ?_, (hks.map _).nodup hinv.own, ?_, hnext⟩
  · obtain ⟨l, hperm, hl⟩ := map_subperm (fun s : SessionIdentity => s.id) hsub
    refine hperm.nodup_iff.mp (hl.nodup ?_)
    rw [List.map_append, List.nodup_append]
    refine ⟨hinv.ids, ?_, ?_⟩
    · cases new <;> simp
    · rintro _ hold _ hnewId rfl
      obtain ⟨s, hs, hid⟩ := List.mem_map.mp hold
      obtain ⟨x, hx, hid'⟩ := List.mem_map.mp hnewId
      exact (hnew x (Option.mem_toList.mp hx)).1.identities.1 s hs (hid.trans hid'.symm)
  · intro s hs hsecured
    rcases hmem s hs with hs | rfl
    · obtain ⟨hne, hown⟩ := hinv.secured s hs hsecured
      refine ⟨hne, fun t ht hid haddr => ?_⟩
      rcases hmem t ht with ht | rfl
      · exact hown t ht hid haddr
      · exact ((hnew t rfl).1.identities.2 s hs hsecured haddr.symm).symm
    · rw [(hnew s rfl).2] at hsecured
      cases hsecured
  · intro k hk x hx
    obtain ⟨hne, hsessions, hothers⟩ := hinv.given k (hks.subset hk) x hx
    refine ⟨hne, fun s hs hid => ?_, fun k' hk' => hothers k' (hks.subset hk')⟩
    rcases hmem s hs with hs | rfl
    · exact hsessions s hs hid
    · rintro rfl
      exact (hnew s rfl).1.2.2.2 k (hks.subset hk) hx

theorem Inv.cons (hinv : h.Inv) {id : BitVec 32} (hid : ∀ k ∈ h.handshakes, k.id ≠ id) :
    { h with handshakes := ⟨id, none⟩ :: h.handshakes : Handshakes }.Inv where
  sound := hinv.sound
  ids := hinv.ids
  secured := hinv.secured
  own := by
    rw [List.map_cons, List.nodup_cons]
    refine ⟨fun hmem => ?_, hinv.own⟩
    obtain ⟨k, hk, hkid⟩ := List.mem_map.mp hmem
    exact hid k hk hkid
  given := by
    intro k hk x hx
    rcases List.mem_cons.mp hk with rfl | hk
    · cases hx
    · obtain ⟨hne, hsessions, hothers⟩ := hinv.given k hk x hx
      refine ⟨hne, hsessions, fun k' hk' hk'k => ?_⟩
      rcases List.mem_cons.mp hk' with rfl | hk'
      · exact nofun
      · exact hothers k' hk' hk'k
  next := hinv.next

theorem succExchId_ne_zero (id : BitVec 16) : succExchId id ≠ 0 := by
  rw [succExchId]
  split
  · decide
  · next h => exact h

theorem getNextSessId_spec {id next : BitVec 16} (hnext : h.nextSessId ≠ 0)
    (hget : h.getNextSessId = some (id, next)) :
    id ≠ 0 ∧ next ≠ 0 ∧ ∀ s ∈ h.table.identities, s.localSessId ≠ id := by
  obtain ⟨⟨n, -, hid, hfree, -⟩, hsucc⟩ := nextExchIdLoop_spec hget
  refine ⟨?_, ?_, fun s hs heq => ?_⟩
  · rw [hid]
    cases n with
    | zero => exact hnext
    | succ n =>
      rw [Function.iterate_succ_apply']
      exact succExchId_ne_zero _
  · rw [hsucc]
    exact succExchId_ne_zero id
  · obtain ⟨t, ht, rfl⟩ := List.mem_map.mp hs
    refine List.any_eq_false.mp hfree t ht ?_
    rw [beq_iff_eq]
    exact heq

theorem exists_getNextSessId (hfew : h.table.sessions.length ≤ maxSessions) :
    ∃ r, h.getNextSessId = some r := by
  have hids : (h.table.sessions.map (·.localSessId)).length < 0xffff := by
    rw [List.length_map]
    exact hfew.trans_lt (by decide)
  refine exists_nextExchIdLoop hids (fun id hid => ?_) h.nextSessId
  obtain ⟨s, hs, heq⟩ := List.any_eq_true.mp hid
  exact List.mem_map.mpr ⟨s, hs, beq_iff_eq.mp heq⟩

theorem Inv.set (hinv : h.Inv) {i : ℕ} {k : Handshake} {id next : BitVec 16}
    (hi : h.handshakes[i]? = some k) (hget : h.getNextSessId = some (id, next))
    (hfresh : ∀ k' ∈ h.handshakes, k'.localSessId ≠ some id) :
    { h with
      nextSessId := next
      handshakes := h.handshakes.set i { k with localSessId := some id } : Handshakes }.Inv := by
  obtain ⟨hne, hnext, hsessions⟩ := getNextSessId_spec hinv.next hget
  have hids : (h.handshakes.set i { k with localSessId := some id }).map (·.id) =
      h.handshakes.map (·.id) := by
    obtain ⟨hlt, rfl⟩ := List.getElem?_eq_some_iff.mp hi
    rw [List.map_set, ← List.getElem_map fun k : Handshake => k.id, List.set_getElem_self]
    rwa [List.length_map]
  refine ⟨hinv.sound, hinv.ids, hinv.secured, ?_, ?_, hnext⟩
  · rw [hids]
    exact hinv.own
  · intro k₁ hk₁ x hx
    rcases List.mem_or_eq_of_mem_set hk₁ with hk₁ | rfl
    · obtain ⟨hx0, hother, hks⟩ := hinv.given k₁ hk₁ x hx
      refine ⟨hx0, hother, fun k₂ hk₂ hne₂ => ?_⟩
      rcases List.mem_or_eq_of_mem_set hk₂ with hk₂ | rfl
      · exact hks k₂ hk₂ hne₂
      · exact fun hsome => hfresh k₁ hk₁ (hx.trans hsome.symm)
    · obtain rfl : id = x := Option.some_inj.mp hx
      refine ⟨hne, fun s hs _ => hsessions s hs, fun k₂ hk₂ hne₂ => ?_⟩
      rcases List.mem_or_eq_of_mem_set hk₂ with hk₂ | rfl
      · exact hfresh k₂ hk₂
      · exact absurd rfl hne₂

theorem Inv.update (hinv : h.Inv) {k : Handshake} {x : BitVec 16} {y : SessionIdentity}
    {b c : List SessionIdentity} {t : SessionIdentity} (hk : k ∈ h.handshakes)
    (hx : k.localSessId = some x) (hid : t.id = k.id) (hy : y.id = k.id ∧ y.localSessId = x)
    (hold : h.table.identities = b ++ t :: c) (hnew : h'.table.identities = b ++ y :: c)
    (hsound : h'.table.Sound) (hks : h'.handshakes = h.handshakes)
    (hnext : h'.nextSessId = h.nextSessId) : h'.Inv := by
  obtain ⟨hx0, hsessions, hothers⟩ := hinv.given k hk x hx
  have hids : h'.table.identities.map (·.id) = h.table.identities.map (·.id) := by
    rw [hold, hnew, List.map_append, List.map_append, List.map_cons, List.map_cons, hy.1, hid]
  have hmem : ∀ s ∈ h'.table.identities, s = y ∨ s ∈ h.table.identities ∧ s.id ≠ k.id := by
    -- the id of the session is at one place only
    have hnodup := hinv.ids
    rw [hold, List.map_append, List.map_cons, List.nodup_middle, List.nodup_cons,
      ← List.map_append, hid] at hnodup
    intro s hs
    rw [hnew, List.mem_append, List.mem_cons] at hs
    rw [hold]
    rcases hs with hs | rfl | hs
    · refine .inr ⟨List.mem_append_left _ hs, fun heq => hnodup.1 ?_⟩
      exact List.mem_map.mpr ⟨s, List.mem_append_left _ hs, heq⟩
    · exact .inl rfl
    · refine .inr ⟨List.mem_append_right _ (List.mem_cons_of_mem _ hs), fun heq => hnodup.1 ?_⟩
      exact List.mem_map.mpr ⟨s, List.mem_append_right _ hs, heq⟩
  refine ⟨hsound, ?_, ?_, hks ▸ hinv.own, ?_, hnext ▸ hinv.next⟩
  · rw [hids]
    exact hinv.ids
  · intro s hs hsecured
    rcases hmem s hs with rfl | ⟨hs, hsid⟩
    · rw [hy.2]
      refine ⟨hx0, fun u hu huid _ => ?_⟩
      rcases hmem u hu with rfl | ⟨hu, huid⟩
      · exact absurd rfl huid
      · exact hsessions u hu huid
    · obtain ⟨hne, hown⟩ := hinv.secured s hs hsecured
      refine ⟨hne, fun u hu huid haddr => ?_⟩
      rcases hmem u hu with rfl | ⟨hu, -⟩
      · rw [hy.2]
        exact (hsessions s hs hsid).symm
      · exact hown u hu huid haddr
  · intro k' hk' x' hx'
    rw [hks] at hk' ⊢
    obtain ⟨hx'0, hsessions', hothers'⟩ := hinv.given k' hk' x' hx'
    refine ⟨hx'0, fun s hs hsid => ?_, hothers'⟩
    rcases hmem s hs with rfl | ⟨hs, -⟩
    · rw [hy.2]
      rintro rfl
      have hkk' : k' ≠ k := fun heq => hsid (heq ▸ hy.1)
      exact hothers k' hk' hkk' hx'
    · exact hsessions' s hs hsid

theorem update_eq_some {i : ℕ} {f : BitVec 32 → BitVec 16 → KeyedSessions.Action}
    (hupdate : h.update i f = some h') :
    ∃ id x table, (⟨id, some x⟩ : Handshake) ∈ h.handshakes ∧ h.table.step (f id x) = some table ∧
      h' = { h with table } := by
  rw [Handshakes.update] at hupdate
  split at hupdate
  · next id x hi =>
    obtain ⟨table, htable, rfl⟩ := Option.map_eq_some_iff.mp hupdate
    exact ⟨id, x, table, List.mem_of_getElem? hi, htable, rfl⟩
  · cases hupdate

theorem isUpdate_of_isOther {a : KeyedSessions.Action} (ha : isOther a = true) :
    a.isUpdate = false := by
  cases a <;> first | rfl | cases ha

theorem secured_newIdentity {ss : KeyedSessions} {a : KeyedSessions.Action} {x : SessionIdentity}
    (hx : x ∈ ss.newIdentity a) : x.secured = false := by
  unfold KeyedSessions.newIdentity at hx
  split at hx
  · split at hx <;> cases hx <;> rfl
  · cases hx

/-- **One step** that brings no id up twice. -/
theorem Inv.step (hfresh : h.Fresh a) (hinv : h.Inv) (hstep : h.step a = some h') : h'.Inv := by
  cases a with
  | table a =>
    rw [Handshakes.step] at hstep
    split at hstep
    · next hother =>
      obtain ⟨table, htable, rfl⟩ := Option.map_eq_some_iff.mp hstep
      exact hinv.of_subperm (hinv.sound.step htable)
        (KeyedSessions.identities_step (isUpdate_of_isOther hother) htable)
        (fun x hx => ⟨hfresh x hx, secured_newIdentity hx⟩) (List.Sublist.refl _) hinv.next
    · cases hstep
  | reserveNow msgCtr now =>
    have htable : h.table.step (.reserveNow msgCtr now) =
        some (h.table.add msgCtr true (.udp ⟨.v4 0, 0⟩) none now).1 := rfl
    have hadded : { h with
        table := (h.table.add msgCtr true (.udp ⟨.v4 0, 0⟩) none now).1 : Handshakes }.Inv :=
      hinv.of_subperm (hinv.sound.step htable) (KeyedSessions.identities_step rfl htable)
        (fun x hx => ⟨hfresh x hx, secured_newIdentity hx⟩) (List.Sublist.refl _) hinv.next
    obtain ⟨table, result, hadd, -, ⟨rfl, hroom, -⟩ | ⟨⟨code, rfl⟩, -, -⟩⟩ :=
      KeyedSessions.add_cases msgCtr true (.udp ⟨.v4 0, 0⟩) none now h.table
    · rw [Handshakes.step, hadd] at hstep
      rw [hadd] at hadded
      cases hstep
      refine hadded.cons fun k hk => ?_
      have hnew : (⟨h.table.nextSessUniqueId, false, 0, .udp ⟨.v4 0, 0⟩⟩ : SessionIdentity) ∈
          h.table.newIdentity (.reserveNow msgCtr now) := by
        rw [KeyedSessions.newIdentity, KeyedSessions.setsUp, if_pos (decide_eq_true hroom),
          KeyedSessions.newId, if_pos hroom]
        rfl
      exact (hfresh _ hnew).2.1 k hk
    · rw [Handshakes.step, hadd] at hstep
      rw [hadd] at hadded
      cases hstep
      exact hadded
  | getNextSessId i =>
    rw [Handshakes.step] at hstep
    split at hstep
    · next k id next hi hget =>
      cases hstep
      exact hinv.set hi hget (hfresh _ hget)
    · cases hstep
  | updatePase i params decKey encKey now
  | updateCase i fabIdx catIds params decKey encKey now =>
    obtain ⟨id, x, table, hk, htable, rfl⟩ := update_eq_some hstep
    have hsound := hinv.sound.step htable
    obtain ⟨⟨table', u⟩, hon, rfl⟩ := Option.map_eq_some_iff.mp htable
    obtain ⟨b, t, c, hid, hold, hnew⟩ := KeyedSessions.identities_update
      (x := ⟨0, true, x, params.peerAddr⟩) hon fun t => rfl
    exact hinv.update hk rfl hid ⟨rfl, rfl⟩ hold hnew hsound rfl rfl
  | complete i now =>
    rw [Handshakes.step] at hstep
    split at hstep
    · next k hi =>
      obtain ⟨table, htable, rfl⟩ := Option.map_eq_some_iff.mp hstep
      have hsub := KeyedSessions.identities_step rfl htable
      refine hinv.of_subperm (hinv.sound.step htable) hsub (fun x hx => ?_)
        (List.eraseIdx_sublist _ _) hinv.next
      cases hx
    · cases hstep
  | drop i =>
    rw [Handshakes.step] at hstep
    split at hstep
    · next k hi =>
      cases hstep
      have htable : h.table.step (.remove k.id) = some (h.table.remove k.id) := rfl
      refine hinv.of_subperm (hinv.sound.step htable) (KeyedSessions.identities_step rfl htable)
        (fun x hx => ?_) (List.eraseIdx_sublist _ _) hinv.next
      cases hx
    · cases hstep
  | reset =>
    cases hstep
    have htable : h.table.step .reset = some h.table.reset := rfl
    have hone : (1 : BitVec 16) ≠ 0 := by decide
    refine hinv.of_subperm (hinv.sound.step htable) (KeyedSessions.identities_step rfl htable)
      (fun x hx => ?_) (List.Sublist.refl _) hone
    cases hx

/-! ## Finding sessions -/

theorem find?_eq_some_of_unique {α : Type} {p : α → Bool} {l : List α} {x : α} (hx : x ∈ l)
    (hp : p x = true) (hunique : ∀ y ∈ l, p y = true → y = x) : l.find? p = some x := by
  cases hfind : l.find? p with
  | none => exact absurd hp (List.find?_eq_none.mp hfind x hx)
  | some y => rw [hunique y (List.mem_of_find?_eq_some hfind) (List.find?_some hfind)]

theorem of_isForRx {s : KeyedSession} {rxPeer : Address} {rxPlain : PlainHdr}
    (hfor : s.isForRx rxPeer rxPlain = true) :
    s.localSessId = rxPlain.sessId ∧ s.peerAddr = rxPeer := by
  rw [KeyedSession.isForRx] at hfor
  simp only [Bool.and_eq_true, beq_iff_eq] at hfor
  exact ⟨hfor.1.1.1.2, hfor.1.1.2⟩

theorem Inv.eq_of_id (hinv : h.Inv) {s t : KeyedSession} (hs : s ∈ h.table.sessions)
    (ht : t ∈ h.table.sessions) (hid : t.id = s.id) : t = s := by
  have hids := hinv.ids
  rw [KeyedSessions.identities, List.map_map] at hids
  exact List.inj_on_of_nodup_map hids ht hs hid

/-- A session for the peer of a session with keys has another local id. -/
theorem Inv.localSessId_ne (hinv : h.Inv) {s t : KeyedSession} (hs : s ∈ h.table.sessions)
    (ht : t ∈ h.table.sessions) (hsecured : s.mode.isHandshake = true) (hne : t ≠ s)
    (haddr : t.peerAddr = s.peerAddr) : t.localSessId ≠ s.localSessId := by
  refine (hinv.secured s.identity (List.mem_map_of_mem hs) hsecured).2 t.identity
    (List.mem_map_of_mem ht) (fun hid => ?_) haddr
  exact hne (hinv.eq_of_id hs ht hid)

theorem Inv.addressed (hinv : h.Inv) : h.table.Addressed where
  ids := by
    have hids := hinv.ids
    rw [KeyedSessions.identities, List.map_map] at hids
    exact hids
  localSessIds s hs _ hsecured :=
    ⟨(hinv.secured s.identity (List.mem_map_of_mem hs) hsecured).1,
      fun _ ht hne _ haddr => hinv.localSessId_ne hs ht hsecured hne haddr⟩
  get s hs := by
    have hfind : h.table.sessions.find? (·.id == s.id) = some s := by
      refine find?_eq_some_of_unique hs (beq_self_eq_true _) fun t ht hid => ?_
      exact hinv.eq_of_id hs ht (beq_iff_eq.mp hid)
    exact ⟨hfind, hfind⟩
  getForRx rxPeer rxPlain s hs hsecured hexpired hfor := by
    have hunique : ∀ t ∈ h.table.sessions, t.isForRx rxPeer rxPlain = true → t = s := by
      intro t ht htfor
      by_contra hne
      obtain ⟨hsid, hsaddr⟩ := of_isForRx hfor
      obtain ⟨htid, htaddr⟩ := of_isForRx htfor
      exact hinv.localSessId_ne hs ht hsecured hne (htaddr.trans hsaddr.symm) (htid.trans hsid.symm)
    refine ⟨find?_eq_some_of_unique hs ?_ fun t ht hp => ?_, hunique⟩
    · rw [hexpired, hfor]
      rfl
    · rw [Bool.and_eq_true] at hp
      exact hunique t ht hp.2

/-- **Which session is meant.** In every run in which no id comes up twice, internal ids tell
sessions apart, and so do the local ids of the sessions that handshakes have completed, which are
not `0`, among the sessions for one peer; and there is a local id for the next handshake. -/
theorem addressed_of_run {as : List Action} (hok : machine.Meets Fresh new as)
    (hrun : machine.run new as = some h) : h.table.Addressed ∧ ∃ r, h.getNextSessId = some r := by
  have hinv : h.Inv :=
    Machine.invariant_of_meets (fun _ _ _ hfresh hinv hstep => hinv.step hfresh hstep) inv_new hok hrun
  exact ⟨hinv.addressed, exists_getNextSessId hinv.sound.few⟩

/-! ## One id after the other -/

/-- The ids of some calls of `getNextSessId`, and the id after them. -/
def getNextSessIds : ℕ → Handshakes → Option (List (BitVec 16) × BitVec 16)
  | 0, h => some ([], h.nextSessId)
  | k + 1, h => do
    let (id, next) ← h.getNextSessId
    let (ids, last) ← getNextSessIds k { h with nextSessId := next }
    some (id :: ids, last)

/-- The first ids of the row that no session has. -/
def freeIds (h : Handshakes) (n : ℕ) : List (BitVec 16) :=
  ((List.range n).map (succExchId^[·] h.nextSessId)).filter fun id => !h.table.hasLocalSessId id

theorem succExchId_iterate_add (n m : ℕ) (id : BitVec 16) :
    succExchId^[n + m] id = succExchId^[m] (succExchId^[n] id) := by
  rw [Nat.add_comm, Function.iterate_add_apply]

theorem freeIds_add (n m : ℕ) :
    h.freeIds (n + m) = h.freeIds n ++
      ({ h with nextSessId := succExchId^[n] h.nextSessId } : Handshakes).freeIds m := by
  simp only [freeIds, List.range_add, List.map_append, List.filter_append, List.map_map, Function.comp_def,
    succExchId_iterate_add]

theorem freeIds_one (hfree : h.table.hasLocalSessId h.nextSessId = false) : h.freeIds 1 = [h.nextSessId] := by
  simp [freeIds, hfree]

theorem freeIds_taken {n : ℕ} (htaken : ∀ m < n, h.table.hasLocalSessId (succExchId^[m] h.nextSessId) = true) :
    h.freeIds n = [] := by
  refine List.filter_eq_nil_iff.mpr fun id hid => ?_
  obtain ⟨m, hm, rfl⟩ := List.mem_map.mp hid
  simp [htaken m (List.mem_range.mp hm)]

/-- The calls return the ids of a row that no session has, up to one of them. -/
theorem getNextSessIds_eq {k : ℕ} {ids : List (BitVec 16)} {last : BitVec 16}
    (hget : getNextSessIds k h = some (ids, last)) : ∃ n, ids = h.freeIds n ∧ ids.length = k ∧
      ∀ m, n = m + 1 → h.freeIds m ++ [succExchId^[m] h.nextSessId] = h.freeIds n := by
  induction k generalizing h ids last with
  | zero =>
    cases hget
    exact ⟨0, rfl, rfl, fun m hm => absurd hm.symm (Nat.succ_ne_zero m)⟩
  | succ k ih =>
    obtain ⟨⟨id, next⟩, hid, hget⟩ := Option.bind_eq_some_iff.mp hget
    obtain ⟨⟨ids', last'⟩, hids, hget⟩ := Option.bind_eq_some_iff.mp hget
    cases hget
    obtain ⟨⟨n, -, rfl, hfree, htaken⟩, rfl⟩ := nextExchIdLoop_spec hid
    obtain ⟨n', rfl, hlen, hlast⟩ := ih hids
    have hfirst : h.freeIds (n + 1) = [succExchId^[n] h.nextSessId] := by
      rw [freeIds_add, freeIds_taken htaken, freeIds_one hfree, List.nil_append]
    have hnext : ({ h with nextSessId := succExchId (succExchId^[n] h.nextSessId) } : Handshakes) =
        { h with nextSessId := succExchId^[n + 1] h.nextSessId } := by
      rw [Function.iterate_succ_apply']
    rw [hnext] at hlen hlast ⊢
    refine ⟨n + 1 + n', ?_, congrArg (· + 1) hlen, fun m hm => ?_⟩
    · rw [freeIds_add, hfirst]
      rfl
    · cases n' with
      | zero =>
        obtain rfl : m = n := by omega
        rw [freeIds_taken htaken]
        exact hfirst.symm
      | succ n' =>
        obtain rfl : m = n + 1 + n' := by omega
        have hstep := hlast n' rfl
        rw [freeIds_add (n + 1) n', freeIds_add (n + 1) (n' + 1), ← hstep, List.append_assoc,
          succExchId_iterate_add (n + 1) n']

theorem length_freeIds {n : ℕ} (hn : n ≤ 0xffff) : n ≤ (h.freeIds n).length + h.table.sessions.length := by
  have hsplit := @List.length_eq_length_filter_add _ ((List.range n).map (succExchId^[·] h.nextSessId))
    fun id => !h.table.hasLocalSessId id
  rw [List.length_map, List.length_range] at hsplit
  have htaken : ((List.range n).map (succExchId^[·] h.nextSessId)).filter (fun id => !!h.table.hasLocalSessId id) ⊆
      h.table.sessions.map (·.localSessId) := by
    intro id hid
    have hhas := (List.mem_filter.mp hid).2
    rw [Bool.not_not] at hhas
    obtain ⟨s, hs, heq⟩ := List.any_eq_true.mp hhas
    exact List.mem_map.mpr ⟨s, hs, beq_iff_eq.mp heq⟩
  have hlen := (List.subperm_of_subset ((nodup_succExchId h.nextSessId hn).filter _) htaken).length_le
  rw [List.length_map] at hlen
  rw [freeIds]
  omega

theorem nodup_getNextSessIds {k : ℕ} {ids : List (BitVec 16)} {last : BitVec 16}
    (hk : k + h.table.sessions.length ≤ 0xffff) (hget : getNextSessIds k h = some (ids, last)) : ids.Nodup := by
  obtain ⟨n, rfl, hlen, hlast⟩ := getNextSessIds_eq hget
  have hn : n ≤ 0xffff := by
    by_contra hgt
    -- the ids before the last one would be too many
    obtain ⟨m, rfl⟩ : ∃ m, n = 0xffff + m + 1 := ⟨n - 0xffff - 1, by omega⟩
    rw [← hlast _ rfl, List.length_append, freeIds_add, List.length_append, List.length_singleton] at hlen
    have hrow := h.length_freeIds le_rfl
    omega
  exact (nodup_succExchId h.nextSessId hn).filter _

theorem exists_getNextSessIds (hfew : h.table.sessions.length ≤ maxSessions) (k : ℕ) :
    ∃ r, getNextSessIds k h = some r := by
  induction k generalizing h with
  | zero => exact ⟨_, rfl⟩
  | succ k ih =>
    obtain ⟨⟨id, next⟩, hid⟩ := exists_getNextSessId hfew
    obtain ⟨⟨ids, last⟩, hids⟩ := @ih { h with nextSessId := next } hfew
    refine ⟨(id :: ids, last), ?_⟩
    simp only [getNextSessIds, hid, hids, Option.bind_eq_bind, Option.bind_some]

open KeyedSessions (succId)

namespace Sample

open KeyedSessions.Sample (peer groupKey request)

def opening : List Action := List.replicate maxSessions (.table (.createUnsecured 1 peer 1 1))

def fullHandshakes : Handshakes := (machine.run new opening).getD new

/-- Handshakes find no room until the internal ids start over, and a session makes room for
another one. -/
def wrapped : List Action :=
  opening ++ (List.replicate (2 ^ 28 - 16) (.reserveNow 1 1) ++
    [Action.table (.remove 1), .table (.createUnsecured 1 peer 1 1)])

def handshake : List Action :=
  [.reserveNow 1 1, .getNextSessId 0, .updateCase 0 1 [] ⟨1, 2, 3, 0, peer⟩ groupKey groupKey 2,
    .complete 0 3]

/-- The session id of the group key is that of the session. -/
def env : RxEnv := { KeyedSessions.Sample.env with deriveGroupSessionId := fun _ => .ok 1 }

/-- A message to the group, from the same peer under another node id. -/
def groupMessage : List UInt8 :=
  [0x06, 0x01, 0x00, 0x01, 1, 0, 0, 0, 3, 0, 0, 0, 0, 0, 0, 0, 9, 0] ++ (request 1 ++ groupKey)

def grouped : List Action := handshake ++ [.table (.decodePacket env peer groupMessage)]

def regular : List Action :=
  handshake ++
    [Action.table (.decodePacket KeyedSessions.Sample.env peer KeyedSessions.Sample.groupMessage)]

end Sample

theorem run_full (hfull : ¬ h.table.sessions.length < maxSessions) (n : ℕ) :
    machine.run h (List.replicate n (.reserveNow 1 1)) =
      some { h with
        table := { h.table with nextSessUniqueId := succId^[n] h.table.nextSessUniqueId } } := by
  induction n generalizing h with
  | zero => rfl
  | succ n ih =>
    have hstep : h.step (.reserveNow 1 1) =
        some { h with table := { h.table with nextSessUniqueId := succId h.table.nextSessUniqueId } } := by
      rw [Handshakes.step, KeyedSessions.add]
      dsimp only
      rw [if_neg hfull]
      rfl
    exact Machine.run_cons_eq_some.mpr ⟨_, hstep, ih hfull⟩

/-- Two sessions get the same internal id when the ids have started over; and a group session gets
the local id of a session with the same peer. -/
theorem ids_come_up_twice :
    (∃ h, machine.run new Sample.wrapped = some h ∧ ¬ (h.table.sessions.map (·.id)).Nodup) ∧
    ∃ h, machine.run new Sample.grouped = some h ∧
      ∃ s ∈ h.table.sessions, ∃ t ∈ h.table.sessions, s.mode.isHandshake = true ∧ t ≠ s ∧
        s.reserved = false ∧ t.reserved = false ∧ t.peerAddr = s.peerAddr ∧
        t.localSessId = s.localSessId := by
  constructor
  · have hopening : machine.run new Sample.opening = some Sample.fullHandshakes := by
      decide +kernel
    have hfull : ¬ Sample.fullHandshakes.table.sessions.length < maxSessions := by decide +kernel
    have hnext : Sample.fullHandshakes.table.nextSessUniqueId = 16 := by decide +kernel
    have hlast : ((machine.run { Sample.fullHandshakes with
        table := { Sample.fullHandshakes.table with nextSessUniqueId := 0 } }
        [.table (.remove 1), .table (.createUnsecured 1 KeyedSessions.Sample.peer 1 1)]).map fun h =>
          decide (¬ (h.table.sessions.map (·.id)).Nodup)) = some true := by
      decide +kernel
    obtain ⟨h, hh, htwice⟩ := Option.map_eq_some_iff.mp hlast
    refine ⟨h, ?_, of_decide_eq_true htwice⟩
    rw [Sample.wrapped, Machine.run_append, hopening, Option.bind_some, Machine.run_append,
      run_full hfull, hnext, Hub.succId_wraps (by decide) (by decide), Option.bind_some]
    exact hh
  · refine ⟨(machine.run new Sample.grouped).getD new, ?_⟩
    decide +kernel

theorem addressed_regular : ∃ h, machine.run new Sample.regular = some h ∧
    h.table.sessions.length = 2 ∧ h.table.Addressed := by
  obtain ⟨h, hrun, hlen⟩ : ∃ h, machine.run new Sample.regular = some h ∧
      h.table.sessions.length = 2 := by
    refine ⟨(machine.run new Sample.regular).getD new, ?_⟩
    decide +kernel
  exact ⟨h, hrun, hlen, (addressed_of_run (by decide +kernel) hrun).1⟩

end Handshakes

end RsMatter
