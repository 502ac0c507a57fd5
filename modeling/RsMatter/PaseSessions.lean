import RsMatter.Pase

/-!
# Sessions of a window that is still open (`sc/pase/responder.rs`)

A session is to be set up only while the window is open whose salt and verifier the handshake has
used. The handlers of the parameters and of Pake1 check the window, each at its own time. The
handler of Pake3 does not: what it has computed is used even if the window was closed, or replaced
by another one, since Pake1 was answered.

So it is up to whoever closes the window. All is well as long as a window lasts until the
handshakes that were given its parameters are through (`PaseRun.Lasts`).
-/

namespace RsMatter

/-- A session is set up with the salt and the verifier of the window that is open. -/
def PaseEvent.Rightful : PaseEvent → Prop
  | established saltFrom verifierFrom openWindow =>
    openWindow.isSome = true ∧ saltFrom = openWindow ∧ verifierFrom = openWindow
  | _ => True

/-- Has the handler given the parameters, and does it still wait for Pake1 or Pake3? -/
def PasePc.isUnderWay {γ σ : Type} : PasePc γ σ → Bool
  | sendingParams _ | waitingPake1 _ | sendingPake2 _ | waitingPake3 _ => true
  | _ => false

namespace Pase

def isExpired (p : Pase) (now : ℕ) : Bool := p.commWindow.any fun w => decide (w.windowExpiry < now)

/-- Is the window closed when another handshake fails? -/
def isExhausted (p : Pase) : Bool :=
  p.commWindow.any fun w => decide (maxPakeFailures ≤ w.pakeFailures + 1)

variable {p : Pase} {now : ℕ}

theorem checkCommWindowTimeout_of_expired (h : p.isExpired now = true) :
    p.checkCommWindowTimeout now = p.closeCommWindow := if_pos h

theorem checkCommWindowTimeout_of_not_expired (h : p.isExpired now = false) :
    p.checkCommWindowTimeout now = p := by
  refine if_neg fun hexp => ?_
  rw [isExpired, hexp] at h
  cases h

theorem commWindow_updateSessionTimeout {p' : Pase} {x : ExchangeId} {new : Bool}
    {status : Option SCStatusCodes} (h : p.updateSessionTimeout x new now = (p', status)) :
    p'.commWindow = p.commWindow := by
  rw [updateSessionTimeout] at h
  dsimp only at h
  split at h
  · split at h <;> cases h <;> rfl
  · split at h <;> cases h <;> rfl

theorem openNumber_recordPakeFailure (h : p.isExhausted = false) :
    p.recordPakeFailure.openNumber = p.openNumber := by
  rw [isExhausted] at h
  rw [recordPakeFailure, openNumber, openNumber]
  dsimp only
  cases hw : p.commWindow with
  | none => rfl
  | some w =>
    rw [hw, Option.any_some, decide_eq_false_iff_not] at h
    dsimp only
    rw [if_neg h]
    rfl

end Pase

namespace PaseRun

variable {γ σ : Type}

def QuietBut (r : PaseRun γ σ) (x : ExchangeId) : Prop :=
  ∀ y h, y ≠ x → r.handlers y = some h → h.pc.isUnderWay = false

def Quiet (r : PaseRun γ σ) : Prop := ∀ y h, r.handlers y = some h → h.pc.isUnderWay = false

/-- The condition on a step: the window is closed only while no exchange is under way. An exchange
may still find out that it has expired, if its own Pake1 was not answered yet. -/
def Lasts (r : PaseRun γ σ) : Action → Prop
  | .closeWindow => r.Quiet
  | .checkTimeout now => r.pase.isExpired now = true → r.Quiet
  | .reserved x _ now | .received x _ _ _ now =>
    (r.pase.isExhausted = true → r.QuietBut x) ∧
      (r.pase.isExpired now = true →
        r.QuietBut x ∧ ∀ h, r.handlers x = some h → h.verifierFrom = none)
  | .sent x _ | .recvFailed x => r.pase.isExhausted = true → r.QuietBut x
  | _ => True

end PaseRun

/-! ## The invariant -/

/-- What a handler has taken from a window, it has taken from this one. -/
def PaseHandler.Tied {γ σ : Type} (h : PaseHandler γ σ) (openNumber : Option ℕ) : Prop :=
  match h.pc with
  | .sendingParams _ | .waitingPake1 _ => openNumber.isSome = true ∧ h.saltFrom = openNumber
  | .sendingPake2 _ | .waitingPake3 _ =>
    openNumber.isSome = true ∧ h.saltFrom = openNumber ∧ h.verifierFrom = openNumber
  | _ => True

theorem PaseHandler.tied_of_not_underWay {γ σ : Type} {h : PaseHandler γ σ} (n : Option ℕ)
    (hpc : h.pc.isUnderWay = false) : h.Tied n := by
  unfold Tied
  split
  · next hp =>
    rw [hp] at hpc
    cases hpc
  · next hp =>
    rw [hp] at hpc
    cases hpc
  · next hp =>
    rw [hp] at hpc
    cases hpc
  · next hp =>
    rw [hp] at hpc
    cases hpc
  · trivial

theorem PaseHandler.Tied.isSome {γ σ : Type} {h : PaseHandler γ σ} {n : Option ℕ} (ht : h.Tied n)
    (hpc : h.pc.isUnderWay = true) : n.isSome = true := by
  unfold Tied at ht
  split at ht
  · exact ht.1
  · exact ht.1
  · exact ht.1
  · exact ht.1
  · unfold PasePc.isUnderWay at hpc
    split at hpc <;> simp_all

namespace PaseRun

variable {γ σ : Type}

structure Consistent (r : PaseRun γ σ) : Prop where
  /-- the handlers use the window that is open -/
  tied : ∀ x h, r.handlers x = some h → h.Tied r.pase.openNumber
  /-- so did those that have set up a session -/
  rightful : ∀ ev ∈ r.log, ev.Rightful

variable {r : PaseRun γ σ} {x : ExchangeId} {h : PaseHandler γ σ} {now : ℕ}

theorem consistent_new : Consistent (new : PaseRun γ σ) := by
  refine ⟨?_, ?_⟩
  · rintro x h ⟨⟩
  · intro ev hev
    cases hev

theorem Consistent.withPase (hC : r.Consistent) {p : Pase}
    (hp : p.openNumber = r.pase.openNumber) : (r.withPase p).Consistent := by
  refine ⟨fun x h hx => ?_, hC.rightful⟩
  have htied : h.Tied r.pase.openNumber := hC.tied x h hx
  rwa [← hp] at htied

theorem Consistent.withPase_of_quiet (hC : r.Consistent) (hq : r.Quiet) (p : Pase) :
    (r.withPase p).Consistent := by
  refine ⟨fun x h hx => ?_, hC.rightful⟩
  exact h.tied_of_not_underWay _ (hq x h hx)

theorem Consistent.setHandler (hC : r.Consistent) (ht : h.Tied r.pase.openNumber) :
    (r.setHandler x h).Consistent := by
  refine ⟨fun y k hy => ?_, hC.rightful⟩
  rcases handlers_setHandler_cases hy with ⟨-, rfl⟩ | ⟨-, hy⟩
  · exact ht
  · exact hC.tied y k hy

theorem Consistent.note (hC : r.Consistent) {ev : PaseEvent} (hev : ev.Rightful) :
    (r.note ev).Consistent := by
  refine ⟨hC.tied, fun ev' hev' => ?_⟩
  rcases List.mem_cons.mp hev' with rfl | hev'
  · exact hev
  · exact hC.rightful ev' hev'

/-- A window may close when a handler returns, if no other one is under way. -/
theorem Consistent.finish (hC : r.Consistent) (hq : r.pase.isExhausted = true → r.QuietBut x)
    (failed : Bool) : (r.finish x h failed).Consistent := by
  refine ⟨fun y k hy => ?_, ?_⟩
  · obtain ⟨hxy, hy⟩ := handlers_finish hy
    cases hex : r.pase.isExhausted with
    | true => exact k.tied_of_not_underWay _ (hq hex y k hxy hy)
    | false =>
      have hsame : (r.finish x h failed).pase.openNumber = r.pase.openNumber := by
        rw [PaseRun.finish]
        dsimp only
        split
        · exact Pase.openNumber_recordPakeFailure hex
        · rfl
      rw [hsame]
      exact hC.tied y k hy
  · intro ev hev
    rcases List.mem_cons.mp hev with rfl | hev
    · trivial
    · exact hC.rightful ev hev

/-- The window has expired, and the handler that has found out returns. -/
theorem Consistent.finish_quiet (hC : r.Consistent) (hq : r.QuietBut x) (p : Pase)
    (failed : Bool) : ((r.withPase p).finish x h failed).Consistent := by
  refine ⟨fun y k hy => ?_, ?_⟩
  · obtain ⟨hxy, hy⟩ := handlers_finish hy
    exact k.tied_of_not_underWay _ (hq y k hxy hy)
  · intro ev hev
    rcases List.mem_cons.mp hev with rfl | hev
    · trivial
    · exact hC.rightful ev hev

/-! ## Step by step -/

section Steps

variable (C : Spake2p γ σ)

/-- The window is checked, by an exchange whose Pake1 was not answered yet: either the window is
the same, or it is gone and no other exchange is under way. -/
theorem checkCommWindowTimeout_cases (hexp : r.pase.isExpired now = true → r.QuietBut x) :
    (r.pase.checkCommWindowTimeout now = r.pase) ∨
      ((r.pase.checkCommWindowTimeout now).commWindow = none ∧ r.QuietBut x) := by
  cases he : r.pase.isExpired now with
  | true =>
    rw [Pase.checkCommWindowTimeout_of_expired he]
    exact .inr ⟨rfl, hexp he⟩
  | false => exact .inl (Pase.checkCommWindowTimeout_of_not_expired he)

theorem Consistent.handlePbkdfParamRequest (hC : r.Consistent)
    (hex : r.pase.isExhausted = true → r.QuietBut x)
    (hexp : r.pase.isExpired now = true → r.QuietBut x) (request : PaseMessage) :
    (r.handlePbkdfParamRequest C x h request now).Consistent := by
  unfold PaseRun.handlePbkdfParamRequest
  split
  · rcases checkCommWindowTimeout_cases hexp with hsame | ⟨hnone, hq⟩
    · rw [hsame]
      dsimp only
      split
      · exact (hC.withPase (p := r.pase.clearSessionTimeout) rfl).finish hex false
      · next w hw =>
        split
        · exact hC.finish hex true
        · split
          · exact hC.finish hex true
          · refine hC.setHandler ?_
            rw [Pase.openNumber, show r.pase.commWindow = some w from hw]
            exact ⟨rfl, rfl⟩
    · dsimp only
      split
      · exact hC.finish_quiet hq _ false
      · next w hw => cases hnone.symm.trans hw
  · exact hC.finish hex true

theorem Consistent.handlePasePake1 (hC : r.Consistent)
    (hex : r.pase.isExhausted = true → r.QuietBut x)
    (hexp : r.pase.isExpired now = true → r.QuietBut x) (hsalt : h.saltFrom = r.pase.openNumber)
    (context : γ) (msg : PaseMessage) :
    (r.handlePasePake1 C x h context msg now).Consistent := by
  unfold PaseRun.handlePasePake1
  split
  · split
    · exact hC.finish hex true
    · rcases checkCommWindowTimeout_cases hexp with hsame | ⟨hnone, hq⟩
      · rw [hsame]
        dsimp only
        split
        · exact (hC.withPase (p := r.pase.clearSessionTimeout) rfl).finish hex false
        · next w hw =>
          split
          · exact hC.finish hex true
          · have hw : r.pase.openNumber = some w.number := by
              rw [Pase.openNumber, show r.pase.commWindow = some w from hw]
              rfl
            refine (hC.setHandler ?_).note trivial
            rw [hw]
            exact ⟨rfl, hsalt.trans hw, rfl⟩
      · dsimp only
        split
        · exact hC.finish_quiet hq _ false
        · next w hw => cases hnone.symm.trans hw
  · exact hC.finish hex true

/-- Pake3 is handled without a check, so the window must not have expired. -/
theorem Consistent.handlePasePake3 (hC : r.Consistent)
    (hex : r.pase.isExhausted = true → r.QuietBut x) (hlive : r.pase.isExpired now = false)
    (hsome : r.pase.openNumber.isSome = true) (hsalt : h.saltFrom = r.pase.openNumber)
    (hverifier : h.verifierFrom = r.pase.openNumber) (secrets : σ) (msg : PaseMessage)
    (hasReserved arms : Bool) :
    (r.handlePasePake3 C x h secrets msg hasReserved arms now).Consistent := by
  unfold PaseRun.handlePasePake3
  rw [Pase.checkCommWindowTimeout_of_not_expired hlive]
  split
  · split
    · exact hC.finish hex true
    · split
      · split
        · exact hC.finish hex true
        · have hC' : (r.note (.established h.saltFrom h.verifierFrom r.pase.openNumber)).Consistent :=
            hC.note ⟨hsome, hsalt, hverifier⟩
          dsimp only
          split
          · exact hC'.setHandler trivial
          · exact hC'.finish hex true
      · exact hC.setHandler trivial
  · exact hC.finish hex true

theorem Consistent.updateSessionTimeout (hC : r.Consistent) {new : Bool} {pase : Pase}
    {status : Option SCStatusCodes}
    (hup : r.pase.updateSessionTimeout x new now = (pase, status)) :
    (r.withPase pase).Consistent ∧ pase.isExhausted = r.pase.isExhausted ∧
      pase.isExpired now = r.pase.isExpired now ∧ pase.openNumber = r.pase.openNumber := by
  have hw := Pase.commWindow_updateSessionTimeout hup
  have hn : pase.openNumber = r.pase.openNumber := by rw [Pase.openNumber, Pase.openNumber, hw]
  refine ⟨hC.withPase hn, ?_, ?_, hn⟩
  · rw [Pase.isExhausted, Pase.isExhausted, hw]
  · rw [Pase.isExpired, Pase.isExpired, hw]

theorem Consistent.begin (hC : r.Consistent) (hex : r.pase.isExhausted = true → r.QuietBut x)
    (hexp : r.pase.isExpired now = true → r.QuietBut x) (request : PaseMessage) :
    (r.begin C x h request now).Consistent := by
  unfold PaseRun.begin
  split
  · exact hC.finish hex true
  split
  · next hup => exact (hC.updateSessionTimeout hup).1.setHandler trivial
  · next hup =>
    obtain ⟨hC', hex', hexp', -⟩ := hC.updateSessionTimeout hup
    refine hC'.handlePbkdfParamRequest C ?_ ?_ request
    · intro he
      exact hex (hex' ▸ he)
    · intro he
      exact hexp (hexp' ▸ he)

theorem Consistent.receive (hC : r.Consistent) (hex : r.pase.isExhausted = true → r.QuietBut x)
    {goOn : PaseRun γ σ → PaseRun γ σ}
    (hgo : ∀ p : Pase, (r.withPase p).Consistent → p.isExhausted = r.pase.isExhausted →
      p.isExpired now = r.pase.isExpired now → p.openNumber = r.pase.openNumber →
      (goOn (r.withPase p)).Consistent) :
    (r.receive x h now goOn).Consistent := by
  unfold PaseRun.receive
  split
  · exact hC.finish hex true
  split
  · next hup => exact (hC.updateSessionTimeout hup).1.setHandler trivial
  · next pase hup =>
    obtain ⟨hC', hex', hexp', hn⟩ := hC.updateSessionTimeout hup
    exact hgo pase hC' hex' hexp' hn

theorem Consistent.afterSend {r' : PaseRun γ σ} (hC : r.Consistent) (hx : r.handlers x = some h)
    (hex : r.pase.isExhausted = true → r.QuietBut x) (hstep : r.afterSend x h = some r') :
    r'.Consistent := by
  have htied := hC.tied x h hx
  unfold PaseRun.afterSend at hstep
  unfold PaseHandler.Tied at htied
  cases hpc : h.pc <;> rw [hpc] at hstep htied <;> dsimp only at hstep htied <;> cases hstep
  case rejecting => exact hC.finish hex false
  case sendingParams => exact hC.setHandler htied
  case sendingPake2 => exact hC.setHandler htied
  case completing => exact hC.setHandler trivial
  case acknowledging success =>
    split
    · exact hC.finish hex true
    · exact (hC.withPase (p := r.pase.clearSessionTimeout) rfl).finish hex _

/-- **Step.** -/
theorem Consistent.step {r' : PaseRun γ σ} {a : Action} (hC : r.Consistent) (hok : r.Lasts a)
    (hstep : r.step C a = some r') : r'.Consistent := by
  cases a with
  | start x request =>
    simp only [PaseRun.step] at hstep
    split at hstep
    · cases hstep
      exact hC.setHandler trivial
    · cases hstep
  | reserved x ok now =>
    obtain ⟨hex, hexp⟩ := hok
    simp only [PaseRun.step] at hstep
    split at hstep
    · split at hstep
      · cases hstep
        split
        · exact hC.begin C hex (fun he => (hexp he).1) _
        · exact hC.finish hex true
      · cases hstep
    · cases hstep
  | sent x ok =>
    simp only [PaseRun.step] at hstep
    split at hstep
    · next h hx =>
      split at hstep
      · split at hstep
        · exact hC.afterSend hx hok hstep
        · cases hstep
          exact hC.finish hok true
      · cases hstep
    · cases hstep
  | received x msg hasReserved arms now =>
    obtain ⟨hex, hexp⟩ := hok
    simp only [PaseRun.step] at hstep
    split at hstep
    · next h hx =>
      have htied := hC.tied x h hx
      unfold PaseHandler.Tied at htied
      split at hstep
      · next context hpc =>
        rw [hpc] at htied
        cases hstep
        refine hC.receive hex fun p hC' hex' hexp' hn => ?_
        refine hC'.handlePasePake1 C ?_ ?_ (htied.2.trans hn.symm) context msg
        · intro he
          exact hex (hex' ▸ he)
        · intro he
          exact (hexp (hexp' ▸ he)).1
      · next secrets hpc =>
        rw [hpc] at htied
        obtain ⟨hsome, hsalt, hverifier⟩ := htied
        cases hstep
        refine hC.receive hex fun p hC' hex' hexp' hn => ?_
        refine hC'.handlePasePake3 C ?_ ?_ (hn ▸ hsome) (hsalt.trans hn.symm)
          (hverifier.trans hn.symm) secrets msg hasReserved arms
        · intro he
          exact hex (hex' ▸ he)
        · -- Pake1 was answered, so the window must not have expired
          refine Bool.eq_false_of_not_eq_true fun he => ?_
          rw [← hverifier, (hexp (hexp' ▸ he)).2 h hx] at hsome
          cases hsome
      · cases hstep
    · cases hstep
  | recvFailed x =>
    simp only [PaseRun.step] at hstep
    split at hstep
    · split at hstep
      · cases hstep
        exact hC.finish hok true
      · cases hstep
        exact hC.finish hok true
      · cases hstep
    · cases hstep
  | removeSession x =>
    simp only [PaseRun.step] at hstep
    split at hstep
    · next h hx =>
      cases hstep
      exact hC.setHandler (hC.tied x h hx)
    · cases hstep
      exact hC
  | openWindow verifier timeoutSecs now =>
    simp only [PaseRun.step] at hstep
    split at hstep
    · next pase hopen =>
      cases hstep
      refine hC.withPase_of_quiet (fun y h hy => ?_) pase
      -- a handler under way would mean that a window is open already
      refine Bool.eq_false_of_not_eq_true fun hpc => ?_
      have hsome := (hC.tied y h hy).isSome hpc
      rw [Pase.openNumber, Option.isSome_map] at hsome
      rw [Pase.openCommWindow, if_pos hsome] at hopen
      cases hopen
    · cases hstep
      exact hC
  | closeWindow =>
    cases hstep
    exact hC.withPase_of_quiet hok _
  | checkTimeout now =>
    cases hstep
    cases he : r.pase.isExpired now with
    | true => exact hC.withPase_of_quiet (hok he) _
    | false =>
      rw [Pase.checkCommWindowTimeout_of_not_expired he]
      exact hC

/-- **Runs.** Sessions are set up for the window that is open, in every run in which a window
lasts until the handshakes that were given its parameters are through. -/
theorem rightful_of_lasts {as : List Action} (hok : (machine C).Meets Lasts new as)
    (hrun : (machine C).run new as = some r) : ∀ ev ∈ r.log, ev.Rightful := by
  have hstep : ∀ (r : PaseRun γ σ) (a : Action) (r' : PaseRun γ σ), r.Lasts a → r.Consistent →
      (machine C).step r a = some r' → r'.Consistent := by
    intro r a r' hok hC hstep
    exact hC.step C hok hstep
  exact (Machine.invariant_of_meets hstep consistent_new hok hrun).rightful

end Steps

/-! ## A session in time, and one that is late -/

/-- Pake3, with the right confirmation. -/
def confirm (x : ExchangeId) (now : ℕ) : Action :=
  .received x (.pake3 (List.replicate 32 7)) true true now

/-- Nobody else is there, and the window is neither exhausted nor expired. -/
theorem meets_confirm :
    (machine standIn).Meets Lasts new (openLong :: guess ⟨1⟩ 5 ++ [confirm ⟨1⟩ 9]) := by
  refine (Machine.meets_cons rfl).mpr ⟨trivial, ?_⟩
  refine (Machine.meets_cons rfl).mpr ⟨trivial, ?_⟩
  refine (Machine.meets_cons rfl).mpr ⟨⟨nofun, nofun⟩, ?_⟩
  refine (Machine.meets_cons rfl).mpr ⟨nofun, ?_⟩
  refine (Machine.meets_cons rfl).mpr ⟨⟨nofun, nofun⟩, ?_⟩
  refine (Machine.meets_cons rfl).mpr ⟨nofun, ?_⟩
  exact (Machine.meets_cons rfl).mpr ⟨⟨nofun, nofun⟩, trivial⟩

theorem rightful_confirm : ∃ r, (machine standIn).run new
      (openLong :: guess ⟨1⟩ 5 ++ [confirm ⟨1⟩ 9]) = some r ∧
    .established (some 0) (some 0) (some 0) ∈ r.log ∧ ∀ ev ∈ r.log, ev.Rightful := by
  obtain ⟨r, hr⟩ := Option.isSome_iff_exists.mp (by decide +kernel : ((machine standIn).run new
    (openLong :: guess ⟨1⟩ 5 ++ [confirm ⟨1⟩ 9])).isSome = true)
  have hlog : ((machine standIn).run new (openLong :: guess ⟨1⟩ 5 ++ [confirm ⟨1⟩ 9])).map
      (·.log) = some [.established (some 0) (some 0) (some 0), .answered 0] := by decide +kernel
  rw [hr, Option.map_some, Option.some_inj] at hlog
  refine ⟨r, hr, ?_, rightful_of_lasts standIn meets_confirm hr⟩
  rw [hlog]
  exact List.mem_cons_self

/-- The window is closed before Pake3 arrives. -/
def lateConfirm : List Action := openLong :: guess ⟨1⟩ 5 ++ [.closeWindow, confirm ⟨1⟩ 9]

/-- A session is set up although no window is open. -/
theorem established_without_window : ¬ ∀ (as : List Action) (r : PaseRun Unit (List UInt8)),
    (machine standIn).run new as = some r → ∀ ev ∈ r.log, ev.Rightful := by
  intro h
  obtain ⟨r, hr⟩ := Option.isSome_iff_exists.mp (by decide +kernel :
    ((machine standIn).run new lateConfirm).isSome = true)
  have hlog : ((machine standIn).run new lateConfirm).map (·.log) =
      some [.established (some 0) (some 0) none, .answered 0] := by decide +kernel
  rw [hr, Option.map_some, Option.some_inj] at hlog
  have hev := h lateConfirm r hr (.established (some 0) (some 0) none) (by
    rw [hlog]
    exact List.mem_cons_self)
  cases hev.1

end PaseRun

end RsMatter
