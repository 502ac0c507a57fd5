import RsMatter.SessionSlots

/-!
# Expired sessions (`transport/session.rs`, `transport.rs`)

A command that removes a fabric or ends commissioning does not take away the session it came
on: that session is expired, so that it opens no more exchanges, while the ongoing one can
complete. Completing takes packets of the peer, the acknowledgement of the response to begin
with; but the session of a received packet is looked up among those that are not expired. An
expired session gets no packet at all.
-/

namespace RsMatter

namespace KeyedSession

/-- The slot that the session dispatches a packet to: the packet can be decrypted and parsed, its
counter is new, and an exchange that it is for takes it. -/
def dispatch (env : RxEnv) (plain : PlainHdr) (pb : ParseBuf) (s : KeyedSession) : Option ℕ :=
  match s.decodeRemaining env.aead { PacketHdr.reset with plain } pb with
  | .error _ => none
  | .ok rx =>
    match (s.postRecv rx env.now).2 with
    | .ok false => s.getExchForRx rx.proto
    | _ => none

/-- Is a packet an authentic one of the exchange in a slot? -/
def isAuthentic (s : KeyedSession) (i : ℕ) (env : RxEnv) (peer : Address) (buf : List UInt8) :
    Bool :=
  match PlainHdr.new.decode ⟨[], buf⟩ with
  | .error _ => false
  | .ok (plain, pb) => s.isForRx peer plain && s.dispatch env plain pb == some i

end KeyedSession

namespace KeyedSessions

def getForRx (rxPeer : Address) (rxPlain : PlainHdr) (ss : KeyedSessions) : Option KeyedSession :=
  ss.sessions.find? fun s => !s.expired && s.isForRx rxPeer rxPlain

/-- The session and the slot that a received packet is dispatched to. -/
def dispatch (env : RxEnv) (peer : Address) (buf : List UInt8) (ss : KeyedSessions) :
    Option (KeyedSession × ℕ) :=
  match PlainHdr.new.decode ⟨[], buf⟩ with
  | .error _ => none
  | .ok (plain, pb) =>
    (ss.getForRx peer plain).bind fun s => (s.dispatch env plain pb).map fun i => (s, i)

variable {ss ss' : KeyedSessions} {s : KeyedSession}

/-- A packet that no exchange is for opens one, if it is taken at all. -/
theorem postRecv_ne_ok_false {rx : PacketHdr} {now : ℕ} (h : s.getExchForRx rx.proto = none) :
    (s.postRecv rx now).2 ≠ .ok false := by
  rw [KeyedSession.postRecv]
  dsimp only
  rw [Session.postRecv]
  dsimp only
  split
  · simp
  · have hnone : Session.getExchForRx { s.toSession with
        rxCtrState := (s.rxCtrState.postRecv rx.plain.ctr s.isEncrypted).2 } rx.proto = none := h
    rw [hnone]
    dsimp only
    split
    · simp
    · split
      · split
        · split <;> simp
        · simp
      · simp

theorem result_decodeForSession (ss : KeyedSessions) (env : RxEnv) (peer : Address)
    (rx : PacketHdr) (pb : ParseBuf) : (ss.decodeForSession env peer rx pb).map Prod.snd =
      (ss.getForRx peer rx.plain).map fun s =>
        match s.decodeRemaining env.aead rx pb with
        | .error code => .error code
        | .ok rx => (s.postRecv rx env.now).2 := by
  rw [decodeForSession, Option.map_map]
  have hsnd := withFirst_map_snd (fun s : KeyedSession => !s.expired && s.isForRx peer rx.plain)
    (fun s =>
      let s := s.updateLastUsed env.now
      match s.decodeRemaining env.aead rx pb with
      | .error code => (s, .error code)
      | .ok rx => s.postRecv rx env.now) ss.sessions
  refine hsnd.trans ?_
  rw [getForRx]
  congr 1
  funext s
  have hsame : (s.updateLastUsed env.now).decodeRemaining env.aead rx pb =
      s.decodeRemaining env.aead rx pb := rfl
  dsimp only
  rw [hsame]
  cases s.decodeRemaining env.aead rx pb <;> rfl

def Action.isPacket : Action → Bool
  | .decodePacket .. => true
  | _ => false

theorem expired_postRecv (s : KeyedSession) (rx : PacketHdr) (now : ℕ) :
    (s.postRecv rx now).1.expired = s.expired := by
  rw [KeyedSession.postRecv]
  dsimp only
  rw [Session.postRecv_frame]

/-- **Receiving a packet** leaves expired sessions as they are. -/
theorem mem_of_expired {env : RxEnv} {peer : Address} {buf : List UInt8}
    (hs : s ∈ (ss.decodePacket env peer buf).1.sessions) (hexpired : s.expired = true) :
    s ∈ ss.sessions := by
  -- the session that a packet changes is not expired before, and so it is not afterwards
  have hother : ∀ {a c : List KeyedSession} {t : KeyedSession}, s ∈ a ++ t :: c →
      t.expired = false → s ∈ a ∨ s ∈ c := by
    intro a c t hmem ht
    rcases List.mem_append.mp hmem with hmem | hmem
    · exact .inl hmem
    · rcases List.mem_cons.mp hmem with rfl | hmem
      · rw [ht] at hexpired
        cases hexpired
      · exact .inr hmem
  have hback : ∀ (a c : List KeyedSession) (t : KeyedSession), s ∈ a ∨ s ∈ c → s ∈ a ++ t :: c := by
    rintro a c t (hmem | hmem)
    · exact List.mem_append_left _ hmem
    · exact List.mem_append_right _ (List.mem_cons_of_mem _ hmem)
  cases received_decodePacket env peer buf ss with
  | refused hsub _ => exact hsub.subset hs
  | undecoded a t c code ht hold hnew _ =>
    rw [hnew] at hs
    rw [hold]
    exact hback a c t (hother hs ht)
  | taken a t c plain pb rx _ hfor _ hold hnew _ =>
    rw [hnew] at hs
    rw [hold]
    exact hback a c t (hother hs ((expired_postRecv _ _ _).trans hfor.1))
  | opened kept t rx hkept hblank _ _ hnew _ =>
    rw [hnew] at hs
    rcases hother hs ((expired_postRecv t rx env.now).trans hblank.expired) with hs | hs
    · exact hkept.subset hs
    · cases hs

theorem expired_of_dispatch {env : RxEnv} {peer : Address} {buf : List UInt8} {i : ℕ}
    (h : ss.dispatch env peer buf = some (s, i)) : s.expired = false := by
  rw [dispatch] at h
  split at h
  · cases h
  · obtain ⟨t, ht, hi⟩ := Option.bind_eq_some_iff.mp h
    obtain ⟨j, -, hj⟩ := Option.map_eq_some_iff.mp hi
    cases hj
    have hfound := List.find?_some ht
    rw [Bool.and_eq_true, Bool.not_eq_true'] at hfound
    exact hfound.1

/-- **Expired sessions.** Whatever packets arrive, an expired session is still as it was: none of
them opened an exchange on it or changed one of its exchanges, and no further packet, authentic as
it may be, is dispatched to an exchange of it. -/
theorem not_dispatched_of_expired {as : List Action} (hpackets : ∀ a ∈ as, a.isPacket = true)
    (hrun : machine.run ss as = some ss') (hs : s ∈ ss'.sessions) (hexpired : s.expired = true) :
    s ∈ ss.sessions ∧ ∀ i env peer buf, s.isAuthentic i env peer buf = true →
      ss'.dispatch env peer buf ≠ some (s, i) := by
  refine ⟨?_, ?_⟩
  · induction as generalizing ss with
    | nil =>
      cases hrun
      exact hs
    | cons a as ih =>
      obtain ⟨t, hstep, hrun⟩ := Machine.run_cons_eq_some.mp hrun
      have hmem := ih (fun b hb => hpackets b (List.mem_cons_of_mem _ hb)) hrun
      cases a with
      | decodePacket env peer buf =>
        cases hstep
        exact mem_of_expired hmem hexpired
      | _ => exact absurd (hpackets _ List.mem_cons_self) Bool.false_ne_true
  · intro i env peer buf _ hdispatch
    rw [expired_of_dispatch hdispatch] at hexpired
    cases hexpired

namespace Sample

/-- The plain header of a message on the session of the handshake. -/
def onSession (ctr : UInt8) : List UInt8 := [0x00, 0x04, 0x00, 0x00, ctr, 0, 0, 0]

/-- A reliable request of the peer on that session. -/
def command : List UInt8 :=
  onSession 1 ++ aead.encrypt groupKey [] (onSession 1) [0x05, 0x08, 0x07, 0x00, 0x01, 0x00]

def acknowledgement : List UInt8 :=
  onSession 2 ++ aead.encrypt groupKey [] (onSession 2)
    [0x03, 0x10, 0x07, 0x00, 0x00, 0x00, 0x01, 0x00, 0x00, 0x00]

/-- A command arrives that ends commissioning, and the response to it goes out. -/
def lastCommand : List Action :=
  handshake ++ [Action.decodePacket env peer command, .removePase (some 0),
    .preSend 0 (some 0) ⟨PacketHdr.reset.plain, PacketHdr.reset.proto⟩ none 5]

end Sample

/-- The acknowledgement of the response to the command that ended commissioning is not
dispatched to the exchange of the command: the session is not found. -/
theorem acknowledgement_refused : ∃ ss s, machine.run new Sample.lastCommand = some ss ∧
    s ∈ ss.sessions ∧ s.expired = true ∧
    s.isAuthentic 0 Sample.env Sample.peer Sample.acknowledgement = true ∧
    ss.dispatch Sample.env Sample.peer Sample.acknowledgement ≠ some (s, 0) ∧
    (ss.decodePacket Sample.env Sample.peer Sample.acknowledgement).2 = .error .noSession := by
  obtain ⟨ss, hrun, hne, hrefused⟩ : ∃ ss, machine.run new Sample.lastCommand = some ss ∧
      (ss.sessions.any fun s => s.expired &&
        s.isAuthentic 0 Sample.env Sample.peer Sample.acknowledgement) = true ∧
      (ss.decodePacket Sample.env Sample.peer Sample.acknowledgement).2 = .error .noSession := by
    refine ⟨(machine.run new Sample.lastCommand).getD new, ?_⟩
    decide +kernel
  obtain ⟨s, hs, hlive⟩ := List.any_eq_true.mp hne
  rw [Bool.and_eq_true] at hlive
  refine ⟨ss, s, hrun, hs, hlive.1, hlive.2, ?_, hrefused⟩
  intro hdispatch
  rw [expired_of_dispatch hdispatch] at hlive
  exact Bool.false_ne_true hlive.1

/-- There is such a session, exchange and packet. -/
theorem not_dispatched_lastCommand : ∃ ss s, machine.run new Sample.lastCommand = some ss ∧
    s ∈ ss.sessions ∧ s.expired = true ∧
    s.isAuthentic 0 Sample.env Sample.peer Sample.acknowledgement = true ∧
    ∀ i env peer buf, s.isAuthentic i env peer buf = true →
      ss.dispatch env peer buf ≠ some (s, i) := by
  obtain ⟨ss, hrun, hne⟩ : ∃ ss, machine.run new Sample.lastCommand = some ss ∧
      (ss.sessions.any fun s => s.expired &&
        s.isAuthentic 0 Sample.env Sample.peer Sample.acknowledgement) = true := by
    refine ⟨(machine.run new Sample.lastCommand).getD new, ?_⟩
    decide +kernel
  obtain ⟨s, hs, hlive⟩ := List.any_eq_true.mp hne
  rw [Bool.and_eq_true] at hlive
  have hpackets : ∀ a ∈ ([] : List Action), a.isPacket = true := fun _ ha => nomatch ha
  exact ⟨ss, s, hrun, hs, hlive.1, hlive.2,
    (not_dispatched_of_expired hpackets (Machine.run_nil (M := machine)) hs hlive.1).2⟩

end KeyedSessions

end RsMatter
