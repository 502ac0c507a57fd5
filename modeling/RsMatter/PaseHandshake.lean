import RsMatter.Spake2P

/-!
# A handshake from end to end (`sc/pase/responder.rs`, `sc/pase/initiator.rs`)

The handlers of the device compute what the verifier of SPAKE2+ computes. So whoever knows the
passcode gets a session if the window is open, no other handshake is under way, and its messages
come in time. And whatever arrives on all exchanges, a handler that accepts a confirmation agrees
with whoever made it.
-/

namespace RsMatter

namespace Pase

variable {p : Pase} {x : ExchangeId} {now : ℕ}

/-- The exchange has set or renewed the marker. -/
def marked (p : Pase) (x : ExchangeId) (now : ℕ) : Pase :=
  { p with sessionTimeout := some ⟨now + paseSessionEstTimeoutMs, x⟩ }

@[simp] theorem commWindow_marked : (p.marked x now).commWindow = p.commWindow := rfl

theorem updateSessionTimeout_of_free (h : p.liveTimeout now = none) :
    p.updateSessionTimeout x true now = (p.marked x now, none) := by
  simp [updateSessionTimeout, h, marked]

theorem updateSessionTimeout_of_own {t : ℕ} (hlive : now ≤ t + paseSessionEstTimeoutMs) :
    (p.marked x t).updateSessionTimeout x false now = (p.marked x now, none) := by
  have hexpired : (⟨t + paseSessionEstTimeoutMs, x⟩ : SessionEstTimeout).isSessExpired now = false :=
    decide_eq_false (Nat.not_lt.mpr hlive)
  simp [updateSessionTimeout, liveTimeout, marked, Option.filter, hexpired]

theorem checkCommWindowTimeout_of_open {w : CommWindow} (h : p.commWindow = some w)
    (hopen : now ≤ w.windowExpiry) : p.checkCommWindowTimeout now = p := by
  simp [checkCommWindowTimeout, h, hopen]

theorem openNumber_checkCommWindowTimeout_marked {t : ℕ} :
    ((p.marked x t).checkCommWindowTimeout now).openNumber =
      (p.checkCommWindowTimeout now).openNumber := by
  rw [checkCommWindowTimeout, checkCommWindowTimeout, commWindow_marked]
  split_ifs <;> rfl

end Pase

namespace Spake2P

open PaseRun

variable {F G : Type} [Field F] [AddCommGroup G] [Module F G] (c : PakeCrypto F G)

/-- What the handlers take from elsewhere. -/
structure ResponderEnv (F : Type) where
  /-- the number of the session that is reserved -/
  localSessid : PBKDFParamReq → BitVec 16
  /-- the bytes that are hashed -/
  request : PBKDFParamReq → List UInt8
  response : PBKDFParamReq → (salt : List UInt8) → (count : BitVec 32) → List UInt8
  /-- a random scalar -/
  xy : Spake2P → EcPointBytes → F

def context (e : ResponderEnv F) (req : PBKDFParamReq) (salt : List UInt8) (count : BitVec 32) : Spake2P :=
  begun c (e.localSessid req) req.initiatorSsid (e.request req) (e.response req salt count)

/-- What the handlers compute. -/
def responder (e : ResponderEnv F) : RsMatter.Spake2p Spake2P Spake2P where
  startContext req salt count := .ok (context c e req salt count)
  setupVerifier s verifier pa := do
    let aPt ← Canon.tryNew ecPointLen pa
    return (← s.setupVerifier c verifier (e.xy s aPt) aPt).1
  verify s ca := (Canon.tryNew hmacHashLen ca).toOption.any fun ca => (s.verify ca).toOption.isSome

/-- A handshake up to the status, with the times of its messages. -/
def handshake (x : ExchangeId) (req : PBKDFParamReq) (aPt : EcPointBytes) (ca : Canon hmacHashLen)
    (t₀ t₁ t₂ : ℕ) : List PaseRun.Action :=
  [.start x (.pbkdfParamRequest req), .reserved x true t₀, .sent x true,
    .received x (.pake1 aPt.1) true true t₁, .sent x true, .received x (.pake3 ca.1) true true t₂]

variable {c} {e : ResponderEnv F} {r : PaseRun Spake2P Spake2P} {x : ExchangeId} {w : CommWindow}
  {s v : Spake2P}

theorem step_reserved {req : PBKDFParamReq} {t₀ : ℕ}
    (hx : r.handlers x = some ⟨.reserving (.pbkdfParamRequest req), false, none, none, false⟩)
    (hwindow : r.pase.commWindow = some w) (hidle : r.pase.liveTimeout t₀ = none)
    (hopen : t₀ ≤ w.windowExpiry) (hpasscode : req.passcodeId = 0)
    (hrandom : req.initiatorRandom.length = spake2pRandomLen) :
    step (responder c e) r (.reserved x true t₀) =
      some ((r.withPase (r.pase.marked x t₀)).setHandler x ⟨.sendingParams
        (context c e req w.verifier.salt w.verifier.count), false, some w.number, none, false⟩) := by
  have hcheck := Pase.checkCommWindowTimeout_of_open (p := r.pase.marked x t₀) hwindow hopen
  simp [step, hx, begin, Pase.updateSessionTimeout_of_free hidle, handlePbkdfParamRequest, withPase,
    hcheck, hwindow, hpasscode, hrandom, responder]

theorem step_pake1 {p : Pase} {aPt bPt : EcPointBytes} {cb : Canon hmacHashLen} {salt : Option ℕ}
    {t t' : ℕ} (hx : r.handlers x = some ⟨.waitingPake1 s, false, salt, none, false⟩)
    (hmarker : r.pase = p.marked x t) (hwindow : p.commWindow = some w)
    (hlive : t' ≤ t + paseSessionEstTimeoutMs) (hopen : t' ≤ w.windowExpiry)
    (hsetup : setupVerifier c s w.verifier (e.xy s aPt) aPt = .ok (v, bPt, cb)) :
    step (responder c e) r (.received x (.pake1 aPt.1) true true t') =
      some (((r.withPase (p.marked x t')).setHandler x
        ⟨.sendingPake2 v, false, salt, some w.number, false⟩).note (.answered w.number)) := by
  have hcheck := Pase.checkCommWindowTimeout_of_open (p := p.marked x t') hwindow hopen
  have hverifier : (responder c e).setupVerifier s w.verifier aPt.1 = .ok v := by
    show (do let aPt ← Canon.tryNew ecPointLen aPt.1; _) = _
    rw [Canon.tryNew_val, ok_bind, hsetup]
    rfl
  simp [step, hx, receive, hmarker, Pase.updateSessionTimeout_of_own hlive, handlePasePake1, withPase,
    hcheck, hwindow, aPt.2, hverifier]

theorem step_pake3 {p : Pase} {ca : Canon hmacHashLen} {salt verifier : Option ℕ} {t t' : ℕ}
    {ids : BitVec 16 × BitVec 16 × Canon 16}
    (hx : r.handlers x = some ⟨.waitingPake3 v, false, salt, verifier, false⟩)
    (hmarker : r.pase = p.marked x t) (hlive : t' ≤ t + paseSessionEstTimeoutMs)
    (hverify : v.verify ca = .ok ids) :
    step (responder c e) r (.received x (.pake3 ca.1) true true t') =
      some (((r.withPase (p.marked x t')).note
        (.established salt verifier (p.checkCommWindowTimeout t').openNumber)).setHandler x
          ⟨.completing true, false, salt, verifier, true⟩) := by
  have hconfirmed : (responder c e).verify v ca.1 = true := by
    show (Canon.tryNew hmacHashLen ca.1).toOption.any _ = true
    rw [Canon.tryNew_val]
    simp [Except.toOption, hverify]
  simp [step, hx, receive, hmarker, Pase.updateSessionTimeout_of_own hlive, handlePasePake3, withPase,
    ca.2, hconfirmed, Pase.openNumber_checkCommWindowTimeout_marked]

theorem step_sent {γ σ : Type} {C : RsMatter.Spake2p γ σ} {r : PaseRun γ σ} {h : PaseHandler γ σ}
    (hx : r.handlers x = some h) (hsending : h.pc.isSending = true) :
    step C r (.sent x true) = r.afterSend x h := by
  simp [step, hx, hsending]

theorem handlers_answered {k : PaseHandler Spake2P Spake2P} {ev : PaseEvent} :
    ((r.setHandler x k).note ev).handlers x = some k := handlers_setHandler_self

/-- **A handshake** of someone who knows the passcode sets up a session, and both sides hold the same
keys. -/
theorem run_handshake (l' r' : BitVec 16) (req : PBKDFParamReq) (t₀ t₁ t₂ : ℕ) (hc : c.Lawful)
    {password : List UInt8} (hverifier : IsVerifier c password w.verifier) {xy : F} {aPt bPt : EcPointBytes}
    {ctx : ProverContext} {cb : Canon hmacHashLen} (hs : s = context c e req w.verifier.salt w.verifier.count)
    (hprover : setupProver c password w.verifier.salt w.verifier.count.toNat xy = .ok (aPt, ctx))
    (hsetup : setupVerifier c s w.verifier (e.xy s aPt) aPt = .ok (v, bPt, cb))
    (hpasscode : req.passcodeId = 0) (hrandom : req.initiatorRandom.length = spake2pRandomLen)
    (hfree : r.handlers x = none) (hwindow : r.pase.commWindow = some w)
    (hidle : r.pase.liveTimeout t₀ = none) (hopen₀ : t₀ ≤ w.windowExpiry) (hopen₁ : t₁ ≤ w.windowExpiry)
    (hlive₁ : t₁ ≤ t₀ + paseSessionEstTimeoutMs) (hlive₂ : t₂ ≤ t₁ + paseSessionEstTimeoutMs) :
    ∃ p ca done, completeProver c (begun c l' r' (e.request req)
        (e.response req w.verifier.salt w.verifier.count)) ctx aPt bPt cb = .ok (p, ca) ∧
      (machine (responder c e)).run r (handshake x req aPt ca t₀ t₁ t₂) = some done ∧
      done.log = .established (some w.number) (some w.number)
        (r.pase.checkCommWindowTimeout t₂).openNumber :: .answered w.number :: r.log ∧
      (initiatorKeys c p.ke).mirrored = responderKeys c v.ke := by
  subst hs
  obtain ⟨p, ca, hcomplete, hverify⟩ := agree l' r' hc hverifier hprover hsetup
  have hstart : step (responder c e) r (.start x (.pbkdfParamRequest req)) =
      some (r.setHandler x ⟨.reserving (.pbkdfParamRequest req), false, none, none, false⟩) := by
    simp [step, hfree]
  have hnext {t u : PaseRun Spake2P Spake2P} {a : PaseRun.Action} {as : List PaseRun.Action}
      (h : step (responder c e) t a = some u) :
      (machine (responder c e)).run t (a :: as) = (machine (responder c e)).run u as :=
    congrArg (Option.bind · _) h
  have hrun : ∃ done, (machine (responder c e)).run r (handshake x req aPt ca t₀ t₁ t₂) = some done ∧
      done.log = .established (some w.number) (some w.number)
        (r.pase.checkCommWindowTimeout t₂).openNumber :: .answered w.number :: r.log := by
    rw [handshake, hnext hstart,
      hnext (step_reserved handlers_setHandler_self hwindow hidle hopen₀ hpasscode hrandom),
      hnext (step_sent handlers_setHandler_self rfl),
      hnext (step_pake1 handlers_setHandler_self ?_ hwindow hlive₁ hopen₁ hsetup),
      hnext (step_sent handlers_answered rfl),
      hnext (step_pake3 handlers_setHandler_self ?_ hlive₂ hverify)]
    · exact ⟨_, rfl, rfl⟩
    · rfl
    · rfl
  obtain ⟨done, hrun, hlog⟩ := hrun
  exact ⟨p, ca, done, hcomplete, hrun, hlog, mirrored_of_verify hverify⟩

/-- What the device takes from elsewhere when the prover is the one of `setupProver_smallGroup`. -/
def smallEnv : ResponderEnv (ZMod 3) := ⟨fun _ => 1, fun _ => [1], fun _ _ _ => [2], fun _ _ => 2⟩

def smallReq : PBKDFParamReq := ⟨List.replicate 32 9, 7, 0, false⟩

def smallWindow : CommWindow := ⟨0, smallVerifier, maxCommWindowTimeoutSecs * 1000, 0⟩

theorem run_handshake_small : ∃ v p ca done, (machine (responder smallGroup smallEnv)).run
      (PaseRun.new.withPase ⟨some smallWindow, none, 1⟩)
      (handshake ⟨5⟩ smallReq smallPt ca 10 20 30) = some done ∧
    done.log = [.established (some 0) (some 0) (some 0), .answered 0] ∧
    (initiatorKeys smallGroup (Spake2P.ke p)).mirrored = responderKeys smallGroup (Spake2P.ke v) := by
  obtain ⟨v, bPt, cb, hsetup⟩ := setupVerifier_smallGroup [1] [2]
  obtain ⟨p, ca, done, -, hrun, hlog, hkeys⟩ := run_handshake 7 0 smallReq 10 20 30 (e := smallEnv)
    (r := PaseRun.new.withPase ⟨some smallWindow, none, 1⟩) (x := ⟨5⟩) (w := smallWindow) smallGroup_lawful
    (.inl rfl) rfl setupProver_smallGroup hsetup rfl rfl rfl rfl rfl (by decide) (by decide) (by decide)
    (by decide)
  exact ⟨v, p, ca, done, hrun, hlog, hkeys⟩

/-! ## What the handlers know -/

/-- What a handler knows comes from the messages of one handshake. -/
def Genuine (c : PakeCrypto F G) (e : ResponderEnv F) : PasePc Spake2P Spake2P → Prop
  | .sendingParams s | .waitingPake1 s => ∃ req salt count, s = context c e req salt count
  | .sendingPake2 v | .waitingPake3 v => ∃ req salt count verifier aPt bPt cb,
      setupVerifier c (context c e req salt count) verifier (e.xy (context c e req salt count) aPt) aPt =
        .ok (v, bPt, cb)
  | _ => True

def AllGenuine (c : PakeCrypto F G) (e : ResponderEnv F) (r : PaseRun Spake2P Spake2P) : Prop :=
  ∀ x h, r.handlers x = some h → Genuine c e h.pc

namespace AllGenuine

variable {h k : PaseHandler Spake2P Spake2P} {now : ℕ}

theorem setHandler (hr : AllGenuine c e r) (hk : Genuine c e k.pc) : AllGenuine c e (r.setHandler x k) := by
  intro y h hy
  rcases handlers_setHandler_cases hy with ⟨-, rfl⟩ | ⟨-, hy⟩
  · exact hk
  · exact hr y h hy

theorem finish (hr : AllGenuine c e r) {failed : Bool} : AllGenuine c e (r.finish x h failed) :=
  fun y k hy => hr y k (handlers_finish hy).2

theorem withPase (hr : AllGenuine c e r) (p : Pase) : AllGenuine c e (r.withPase p) := hr

theorem note (hr : AllGenuine c e r) (ev : PaseEvent) : AllGenuine c e (r.note ev) := hr

theorem handlePbkdfParamRequest (hr : AllGenuine c e r) (request : PaseMessage) :
    AllGenuine c e (r.handlePbkdfParamRequest (responder c e) x h request now) := by
  rw [PaseRun.handlePbkdfParamRequest.eq_def]
  split
  · dsimp only
    split
    · exact finish ((hr.withPase _).withPase _)
    · split_ifs
      · exact finish (hr.withPase _)
      · exact setHandler (hr.withPase _) ⟨_, _, _, rfl⟩
  · exact finish hr

theorem handlePasePake1 (hr : AllGenuine c e r) (hs : Genuine c e (.waitingPake1 s)) (msg : PaseMessage) :
    AllGenuine c e (r.handlePasePake1 (responder c e) x h s msg now) := by
  rw [PaseRun.handlePasePake1.eq_def]
  split
  · split_ifs
    · exact finish hr
    · dsimp only
      split
      · exact finish ((hr.withPase _).withPase _)
      · split
        · exact finish (hr.withPase _)
        · rename_i v hverifier
          obtain ⟨aPt, -, hverifier⟩ := Prog.except_bind_eq_ok.mp hverifier
          obtain ⟨⟨v', bPt, cb⟩, hsetup, hv⟩ := Prog.except_bind_eq_ok.mp hverifier
          obtain rfl := Except.ok.inj hv
          obtain ⟨req, salt, count, rfl⟩ := hs
          refine note (setHandler (hr.withPase _) ?_) _
          exact ⟨req, salt, count, _, aPt, bPt, cb, hsetup⟩
  · exact finish hr

theorem handlePasePake3 (hr : AllGenuine c e r) (msg : PaseMessage) {hasReserved arms : Bool} :
    AllGenuine c e (r.handlePasePake3 (responder c e) x h v msg hasReserved arms now) := by
  rw [PaseRun.handlePasePake3.eq_def]
  split
  · split_ifs
    · exact finish hr
    · exact finish hr
    · exact setHandler (hr.note _) trivial
    · exact finish (hr.note _)
    · exact setHandler hr trivial
  · exact finish hr

theorem begin (hr : AllGenuine c e r) (request : PaseMessage) :
    AllGenuine c e (r.begin (responder c e) x h request now) := by
  rw [PaseRun.begin]
  split_ifs
  · exact finish hr
  · split
    · exact setHandler (hr.withPase _) trivial
    · exact handlePbkdfParamRequest (hr.withPase _) request

theorem receive (hr : AllGenuine c e r) {goOn : PaseRun Spake2P Spake2P → PaseRun Spake2P Spake2P}
    (hgoOn : ∀ r, AllGenuine c e r → AllGenuine c e (goOn r)) : AllGenuine c e (r.receive x h now goOn) := by
  rw [PaseRun.receive]
  split_ifs
  · exact finish hr
  · split
    · exact setHandler (hr.withPase _) trivial
    · exact hgoOn _ (hr.withPase _)

theorem afterSend {r' : PaseRun Spake2P Spake2P} (hr : AllGenuine c e r) (hh : Genuine c e h.pc)
    (h' : r.afterSend x h = some r') : AllGenuine c e r' := by
  rw [PaseRun.afterSend] at h'
  cases hpc : h.pc <;> rw [hpc] at h' hh <;> cases h'
  · exact finish hr
  · exact setHandler hr hh
  · exact setHandler hr hh
  · exact setHandler hr trivial
  · split_ifs
    · exact finish hr
    · exact finish (hr.withPase _)

theorem step {r' : PaseRun Spake2P Spake2P} {a : PaseRun.Action} (hr : AllGenuine c e r)
    (h : PaseRun.step (responder c e) r a = some r') : AllGenuine c e r' := by
  cases a with
  | start x request =>
    rw [PaseRun.step] at h
    split at h <;> cases h
    exact setHandler hr trivial
  | reserved x ok now =>
    rw [PaseRun.step] at h
    split at h
    · split at h <;> cases h
      split_ifs
      · exact begin hr _
      · exact finish hr
    · cases h
  | sent x ok =>
    rw [PaseRun.step] at h
    split at h
    · rename_i k hk
      split_ifs at h
      · exact afterSend hr (hr x k hk) h
      · cases h
        exact finish hr
    · cases h
  | received x msg hasReserved arms now =>
    rw [PaseRun.step] at h
    split at h
    · rename_i k hk
      have hknown := hr x k hk
      split at h <;> cases h
      · rename_i s hpc
        rw [hpc] at hknown
        exact receive hr fun r hr => handlePasePake1 hr hknown msg
      · exact receive hr fun r hr => handlePasePake3 hr msg
    · cases h
  | recvFailed x =>
    rw [PaseRun.step] at h
    split at h
    · split at h <;> cases h
      · exact finish hr
      · exact finish hr
    · cases h
  | removeSession x =>
    rw [PaseRun.step] at h
    split at h <;> cases h
    · rename_i k hk
      exact setHandler hr (hr x k hk)
    · exact hr
  | openWindow verifier timeoutSecs now =>
    rw [PaseRun.step] at h
    split at h <;> cases h
    · exact hr.withPase _
    · exact hr
  | closeWindow =>
    cases h
    exact hr.withPase _
  | checkTimeout now =>
    cases h
    exact hr.withPase _

end AllGenuine

/-- A run in which the device waits for the confirmation of this prover. -/
theorem waits_small : ∃ r h v bPt cb, (machine (responder smallGroup smallEnv)).run PaseRun.new
      [.openWindow smallVerifier maxCommWindowTimeoutSecs 0, .start ⟨5⟩ (.pbkdfParamRequest smallReq),
        .reserved ⟨5⟩ true 10, .sent ⟨5⟩ true,
        .received ⟨5⟩ (.pake1 smallPt.1) true true 20, .sent ⟨5⟩ true] = some r ∧
    r.handlers ⟨5⟩ = some h ∧ h.pc = .waitingPake3 v ∧
    setupVerifier smallGroup (begun smallGroup 1 7 [1] [2]) smallVerifier 2 smallPt =
      .ok (v, bPt, cb) := ⟨_, _, _, _, _, rfl, rfl, rfl, rfl⟩

end Spake2P

end RsMatter
