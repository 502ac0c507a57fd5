import RsMatter.Pase

/-!
# How often a passcode can be guessed (`sc/pase/responder.rs`)

The answer to Pake1 depends on the passcode, so each one tells an attacker whether a guess was
right. A window is to be closed after twenty handshakes have failed. What is counted is what
`handle` returns: an error, or that Pake3 was wrong.

The count is right as long as an exchange whose Pake1 was answered keeps the marker and its
session until it ends (`PaseRun.Guarded`). It need not: an exchange that finds its marker expired,
or in the hands of another exchange, is rejected and returns `Ok(true)`, which is not counted; and
without its session a failure cannot be recorded at all.
-/

namespace RsMatter

/-! ## Counting -/

namespace PaseEvent

/-- Was Pake1 answered with the verifier of a window? -/
def isAnswered (n : ℕ) : PaseEvent → Bool
  | answered window => window == n
  | _ => false

/-- Was a session set up with the verifier of a window? -/
def isEstablished (n : ℕ) : PaseEvent → Bool
  | established _ verifierFrom _ => verifierFrom == some n
  | _ => false

def isCharged (n : ℕ) : PaseEvent → Bool
  | ended _ _ charged _ => charged == some n
  | _ => false

/-- A handler that has answered Pake1 with the verifier of the window that is still open has set
up a session, or its failure was charged to the window. -/
def Accounted : PaseEvent → Prop
  | ended (some n) est charged (some m) => m = n → est = true ∨ charged = some n
  | _ => True

end PaseEvent

/-- Has the handler answered Pake1, and not set up a session yet? -/
def PaseHandler.isOutstanding {γ σ : Type} (h : PaseHandler γ σ) : Bool :=
  h.verifierFrom.isSome && !h.established

namespace PaseRun

variable {γ σ : Type}

/-- How often Pake1 was answered with the verifier of a window. -/
def answers (r : PaseRun γ σ) (n : ℕ) : ℕ := r.log.countP (·.isAnswered n)

/-- How many sessions were set up with the verifier of a window. -/
def successes (r : PaseRun γ σ) (n : ℕ) : ℕ := r.log.countP (·.isEstablished n)

/-- How many failures were charged to a window. -/
def charges (r : PaseRun γ σ) (n : ℕ) : ℕ := r.log.countP (·.isCharged n)

structure Limited (r : PaseRun γ σ) : Prop where
  /-- every handshake that has got as far as Pake2 is accounted for -/
  accounted : ∀ ev ∈ r.log, ev.Accounted
  counter : ∀ w, r.pase.commWindow = some w → w.pakeFailures = r.charges w.number
  /-- the window is closed after so many of them -/
  closed : ∀ n, maxPakeFailures ≤ r.charges n → r.pase.openNumber ≠ some n
  /-- there are not more answers without success -/
  guesses : ∀ n, r.answers n ≤ r.successes n + maxPakeFailures

/-- The condition on a step: an exchange does not take the marker while another one whose Pake1
was answered is under way, and an exchange whose Pake1 was answered has the marker and its session
until it ends. -/
def Guarded (r : PaseRun γ σ) : Action → Prop
  | .reserved _ ok now => ok = true → r.pase.liveTimeout now = none →
      ∀ y h, r.handlers y = some h → h.isOutstanding = false
  | .received x _ _ _ now => ∀ h, r.handlers x = some h → h.isOutstanding = true →
      ∃ t, r.pase.liveTimeout now = some t ∧ t.exchId = x
  | .removeSession x => ∀ h, r.handlers x = some h → h.isOutstanding = false
  | _ => True

end PaseRun

/-! ## The invariant -/

/-- What is known of a handler from where it is. -/
def PaseHandler.Fits {γ σ : Type} (h : PaseHandler γ σ) : Prop :=
  match h.pc with
  | .reserving _ | .rejecting | .sendingParams _ | .waitingPake1 _ =>
    h.verifierFrom = none ∧ h.established = false
  | .sendingPake2 _ | .waitingPake3 _ => h.verifierFrom.isSome = true ∧ h.established = false
  | .completing success | .acknowledging success =>
    h.verifierFrom.isSome = true ∧ h.established = success

namespace PaseRun

variable {γ σ : Type}

/-- The handler of an exchange has answered Pake1, and not set up a session yet. -/
def Outstanding (r : PaseRun γ σ) (x : ExchangeId) (h : PaseHandler γ σ) : Prop :=
  r.handlers x = some h ∧ h.isOutstanding = true

structure Inv (r : PaseRun γ σ) : Prop where
  /-- handlers are where they are for a reason -/
  fits : ∀ x h, r.handlers x = some h → h.Fits
  /-- whoever is outstanding has its session -/
  present : ∀ x h, r.Outstanding x h → h.gone = false
  marked : ∀ t, r.pase.sessionTimeout = some t → ∀ x h, r.Outstanding x h → x = t.exchId
  alone : ∀ x h y k, r.Outstanding x h → r.Outstanding y k → x = y
  /-- the window has a number that was given -/
  number : ∀ n, r.pase.openNumber = some n → n < r.pase.opened
  /-- nothing is known of windows to come -/
  fresh : ∀ n, r.pase.opened ≤ n → r.answers n = 0 ∧ r.charges n = 0
  counter : ∀ w, r.pase.commWindow = some w →
    w.pakeFailures = r.charges w.number ∧ w.pakeFailures < maxPakeFailures
  /-- all answers of the open window are accounted for, but for one -/
  open_ : ∀ n, r.pase.openNumber = some n → r.answers n ≤ r.successes n + r.charges n + 1 ∧
    ((∀ x h, r.Outstanding x h → h.verifierFrom ≠ some n) →
      r.answers n ≤ r.successes n + r.charges n)
  /-- there were not too many of another one -/
  closed : ∀ n, r.pase.openNumber ≠ some n → r.answers n ≤ r.successes n + maxPakeFailures
  accounted : ∀ ev ∈ r.log, ev.Accounted

theorem inv_new : Inv (new : PaseRun γ σ) := by
  refine ⟨?_, ?_, ?_, ?_, ?_, ?_, ?_, ?_, ?_, ?_⟩
  · rintro x h ⟨⟩
  · rintro x h ⟨⟨⟩, -⟩
  · rintro t ⟨⟩
  · rintro x h y k ⟨⟨⟩, -⟩
  · rintro n ⟨⟩
  · exact fun n _ => ⟨rfl, rfl⟩
  · rintro w ⟨⟩
  · rintro n ⟨⟩
  · exact fun n _ => Nat.zero_le _
  · intro ev hev
    cases hev

variable {r : PaseRun γ σ}

theorem Inv.limited (hI : Inv r) : r.Limited := by
  refine ⟨hI.accounted, fun w hw => (hI.counter w hw).1, ?_, ?_⟩
  · intro n hn hopen
    obtain ⟨w, hw, rfl⟩ := Option.map_eq_some_iff.mp hopen
    obtain ⟨hcount, hlt⟩ := hI.counter w hw
    omega
  · intro n
    by_cases hopen : r.pase.openNumber = some n
    · obtain ⟨w, hw, rfl⟩ := Option.map_eq_some_iff.mp hopen
      obtain ⟨hcount, hlt⟩ := hI.counter w hw
      have := (hI.open_ w.number hopen).1
      omega
    · exact hI.closed n hopen

/-! ## The window and the marker -/

/-- The marker goes to an exchange that is the only one outstanding, if any is, or to nobody. -/
theorem Inv.setTimeout (hI : Inv r) {t : Option SessionEstTimeout}
    (ht : ∀ t' ∈ t, ∀ x h, r.Outstanding x h → x = t'.exchId) :
    Inv (r.withPase { r.pase with sessionTimeout := t }) :=
  ⟨hI.fits, hI.present, ht, hI.alone, hI.number, hI.fresh, hI.counter, hI.open_, hI.closed,
    hI.accounted⟩

theorem Inv.clearSessionTimeout (hI : Inv r) : Inv (r.withPase r.pase.clearSessionTimeout) :=
  hI.setTimeout fun _ ht => nomatch ht

theorem Inv.closeCommWindow (hI : Inv r) : Inv (r.withPase r.pase.closeCommWindow) := by
  refine ⟨hI.fits, hI.present, hI.marked, hI.alone, ?_, hI.fresh, ?_, ?_, ?_, hI.accounted⟩
  · rintro n ⟨⟩
  · rintro w ⟨⟩
  · rintro n ⟨⟩
  · intro n _
    exact hI.limited.guesses n

theorem Inv.checkCommWindowTimeout (hI : Inv r) (now : ℕ) :
    Inv (r.withPase (r.pase.checkCommWindowTimeout now)) := by
  rw [Pase.checkCommWindowTimeout]
  split
  · exact hI.closeCommWindow
  · exact hI

theorem Inv.openCommWindow (hI : Inv r) {verifier : Spake2pVerifierData} {timeoutSecs now : ℕ}
    {pase : Pase} (h : r.pase.openCommWindow verifier timeoutSecs now = .ok pase) :
    Inv (r.withPase pase) := by
  rw [Pase.openCommWindow] at h
  split at h
  · cases h
  split at h
  · cases h
  cases h
  -- nothing has happened in the new window yet
  obtain ⟨hanswers, hcharges⟩ := hI.fresh r.pase.opened (Nat.le_refl _)
  refine ⟨hI.fits, hI.present, hI.marked, hI.alone, ?_, ?_, ?_, ?_, ?_, hI.accounted⟩
  · rintro n ⟨⟩
    exact Nat.lt_succ_self _
  · intro n hn
    exact hI.fresh n (Nat.le_of_succ_le hn)
  · rintro w ⟨⟩
    exact ⟨hcharges.symm, Nat.zero_lt_succ _⟩
  · rintro n ⟨⟩
    have hzero : r.answers r.pase.opened ≤ r.successes r.pase.opened + r.charges r.pase.opened := by
      rw [hanswers]
      exact Nat.zero_le _
    exact ⟨Nat.le_succ_of_le hzero, fun _ => hzero⟩
  · intro n _
    exact hI.limited.guesses n

/-- **The marker** is renewed, or it is taken while nobody is outstanding. -/
theorem Inv.updateSessionTimeout (hI : Inv r) {x : ExchangeId} {new : Bool} {now : ℕ} {pase : Pase}
    {status : Option SCStatusCodes}
    (hfree : new = true → r.pase.liveTimeout now = none →
      ∀ y h, r.handlers y = some h → h.isOutstanding = false)
    (h : r.pase.updateSessionTimeout x new now = (pase, status)) : Inv (r.withPase pase) := by
  have hlive : ∀ t' ∈ r.pase.liveTimeout now, ∀ y h, r.Outstanding y h → y = t'.exchId := by
    intro t' ht'
    exact hI.marked t' (Option.mem_filter_iff.mp ht').1
  rw [Pase.updateSessionTimeout] at h
  dsimp only at h
  split at h
  · next t ht =>
    split at h
    · cases h
      exact hI.setTimeout hlive
    · next hx =>
      cases h
      refine hI.setTimeout ?_
      rintro t' ⟨⟩ y k hout
      exact (hlive t ht y k hout).trans (not_ne_iff.mp hx)
  · next hnone =>
    split at h
    · next hnew =>
      cases h
      refine hI.setTimeout ?_
      intro t' _ y k hout
      have := hfree hnew hnone y k hout.1
      rw [hout.2] at this
      cases this
    · cases h
      exact hI.setTimeout hlive

/-! ## The handlers -/

theorem Inv.withHandlers (hI : Inv r) {r' : PaseRun γ σ} (hpase : r'.pase = r.pase)
    (hlog : r'.log = r.log) (hfits : ∀ x h, r'.handlers x = some h → h.Fits)
    (hback : ∀ y k, r'.Outstanding y k →
      ∃ k', r.Outstanding y k' ∧ k.gone = k'.gone ∧ k.verifierFrom = k'.verifierFrom)
    (hforth : ∀ y k, r.Outstanding y k →
      ∃ k', r'.Outstanding y k' ∧ k'.verifierFrom = k.verifierFrom) : Inv r' := by
  obtain ⟨pase, handlers, log⟩ := r'
  dsimp only at hpase hlog
  subst hpase hlog
  refine ⟨hfits, ?_, ?_, ?_, hI.number, hI.fresh, hI.counter, ?_, hI.closed, hI.accounted⟩
  · intro y k hout
    obtain ⟨k', hout', hgone', -⟩ := hback y k hout
    exact hgone'.trans (hI.present y k' hout')
  · intro t ht y k hout
    obtain ⟨k', hout', -⟩ := hback y k hout
    exact hI.marked t ht y k' hout'
  · intro y k z l hy hz
    obtain ⟨k', hy', -⟩ := hback y k hy
    obtain ⟨l', hz', -⟩ := hback z l hz
    exact hI.alone y k' z l' hy' hz'
  · intro n hn
    refine ⟨(hI.open_ n hn).1, fun hnone => (hI.open_ n hn).2 ?_⟩
    intro y k hout hk
    obtain ⟨k', hout', hverifier'⟩ := hforth y k hout
    exact hnone y k' hout' (hverifier'.trans hk)

theorem Inv.fits_setHandler (hI : Inv r) {x : ExchangeId} {h' : PaseHandler γ σ}
    (hfits : h'.Fits) : ∀ y k, (r.setHandler x h').handlers y = some k → k.Fits := by
  intro y k hy
  rcases handlers_setHandler_cases hy with ⟨-, rfl⟩ | ⟨-, hy⟩
  · exact hfits
  · exact hI.fits y k hy

theorem Inv.setHandler (hI : Inv r) {x : ExchangeId} {h h' : PaseHandler γ σ}
    (hx : r.handlers x = some h) (hfits : h'.Fits) (hgone : h'.gone = h.gone)
    (hverifier : h'.verifierFrom = h.verifierFrom) (hestablished : h'.established = h.established) :
    Inv (r.setHandler x h') := by
  have hsame : h'.isOutstanding = h.isOutstanding := by
    rw [PaseHandler.isOutstanding, PaseHandler.isOutstanding, hverifier, hestablished]
  refine hI.withHandlers rfl rfl (hI.fits_setHandler hfits) ?_ ?_
  · rintro y k ⟨hy, hk⟩
    rcases handlers_setHandler_cases hy with ⟨rfl, rfl⟩ | ⟨-, hy⟩
    · exact ⟨h, ⟨hx, hsame ▸ hk⟩, hgone, hverifier⟩
    · exact ⟨k, ⟨hy, hk⟩, rfl, rfl⟩
  · rintro y k ⟨hy, hk⟩
    by_cases hxy : y = x
    · subst hxy
      rw [hx] at hy
      cases hy
      exact ⟨h', ⟨handlers_setHandler_self, hsame.trans hk⟩, hverifier⟩
    · exact ⟨k, ⟨(handlers_setHandler_ne hxy).trans hy, hk⟩, rfl⟩

/-- A handler that is not outstanding takes the place of one that is not either, if there is
one. -/
theorem Inv.setIdle (hI : Inv r) {x : ExchangeId} {h' : PaseHandler γ σ}
    (hx : ∀ h, r.handlers x = some h → h.isOutstanding = false) (hfits : h'.Fits)
    (hidle : h'.isOutstanding = false) : Inv (r.setHandler x h') := by
  refine hI.withHandlers rfl rfl (hI.fits_setHandler hfits) ?_ ?_
  · rintro y k ⟨hy, hk⟩
    rcases handlers_setHandler_cases hy with ⟨-, rfl⟩ | ⟨-, hy⟩
    · rw [hidle] at hk
      cases hk
    · exact ⟨k, ⟨hy, hk⟩, rfl, rfl⟩
  · rintro y k ⟨hy, hk⟩
    refine ⟨k, ⟨(handlers_setHandler_ne ?_).trans hy, hk⟩, rfl⟩
    rintro rfl
    rw [hx k hy] at hk
    cases hk

/-- **Pake1 is answered** by the exchange that has the marker. -/
theorem Inv.answer (hI : Inv r) {x : ExchangeId} {h h' : PaseHandler γ σ} {t : SessionEstTimeout}
    {w : CommWindow} (hx : r.handlers x = some h) (hidle : h.isOutstanding = false)
    (ht : r.pase.sessionTimeout = some t) (hmine : t.exchId = x)
    (hw : r.pase.commWindow = some w) (hfits : h'.Fits) (hgone : h'.gone = false)
    (hverifier : h'.verifierFrom = some w.number) (hout' : h'.isOutstanding = true) :
    Inv ((r.setHandler x h').note (.answered w.number)) := by
  -- nobody was outstanding
  have hnobody : ∀ y k, ¬ r.Outstanding y k := by
    intro y k hout
    have hy := (hI.marked t ht y k hout).trans hmine
    subst hy
    obtain ⟨hy, hk⟩ := hout
    rw [hx] at hy
    cases hy
    rw [hidle] at hk
    cases hk
  have honly : ∀ y k, ((r.setHandler x h').note (.answered w.number)).Outstanding y k →
      y = x ∧ k = h' := by
    rintro y k ⟨hy, hk⟩
    rcases handlers_setHandler_cases hy with hxy | ⟨-, hy⟩
    · exact hxy
    · exact absurd ⟨hy, hk⟩ (hnobody y k)
  have hopen : r.pase.openNumber = some w.number := by rw [Pase.openNumber, hw]; rfl
  have hcount : ∀ n, ((r.setHandler x h').note (.answered w.number)).answers n =
      r.answers n + if w.number = n then 1 else 0 := by
    intro n
    simp only [answers, note, PaseRun.setHandler, List.countP_cons, PaseEvent.isAnswered, beq_iff_eq]
  refine ⟨hI.fits_setHandler hfits, ?_, ?_, ?_, hI.number, ?_, hI.counter, ?_, ?_, ?_⟩
  · intro y k hout
    obtain ⟨-, rfl⟩ := honly y k hout
    exact hgone
  · intro t' ht' y k hout
    obtain ⟨rfl, -⟩ := honly y k hout
    rw [show r.pase.sessionTimeout = some t' from ht', Option.some_inj] at ht
    rw [ht, hmine]
  · intro y k z l hy hz
    rw [(honly y k hy).1, (honly z l hz).1]
  · intro n hn
    have hlt := hI.number w.number hopen
    have hn : r.pase.opened ≤ n := hn
    rw [hcount, if_neg (by omega)]
    exact hI.fresh n hn
  · intro n hn
    rw [show r.pase.openNumber = some n from hn, Option.some_inj] at hopen
    subst hopen
    constructor
    · rw [hcount, if_pos rfl]
      exact Nat.succ_le_succ ((hI.open_ w.number hn).2 fun y k hout => absurd hout (hnobody y k))
    · intro hnone
      exact absurd hverifier (hnone x h' ⟨handlers_setHandler_self, hout'⟩)
  · intro n hn
    have hne : w.number ≠ n := by
      rintro rfl
      exact hn hopen
    rw [hcount, if_neg hne]
    exact hI.closed n hn
  · intro ev hev
    rcases List.mem_cons.mp hev with rfl | hev
    · trivial
    · exact hI.accounted ev hev

/-- **A session is set up.** -/
theorem Inv.establish (hI : Inv r) {x : ExchangeId} {h h' : PaseHandler γ σ} {n : ℕ}
    {saltFrom openWindow : Option ℕ} (hx : r.handlers x = some h) (hfits : h'.Fits)
    (hverifier : h.verifierFrom = some n) (hidle : h'.isOutstanding = false) :
    Inv ((r.setHandler x h').note (.established saltFrom (some n) openWindow)) := by
  generalize hr' : (r.setHandler x h').note (.established saltFrom (some n) openWindow) = r'
  have hpase : r'.pase = r.pase := by rw [← hr']; rfl
  have hlog : r'.log = .established saltFrom (some n) openWindow :: r.log := by rw [← hr']; rfl
  have hhandlers : r'.handlers = (r.setHandler x h').handlers := by rw [← hr']; rfl
  have hback : ∀ y k, r'.Outstanding y k → y ≠ x ∧ r.Outstanding y k := by
    rintro y k ⟨hy, hk⟩
    rw [hhandlers] at hy
    rcases handlers_setHandler_cases hy with ⟨-, rfl⟩ | ⟨hxy, hy⟩
    · rw [hidle] at hk
      cases hk
    · exact ⟨hxy, hy, hk⟩
  have hanswers : ∀ m, r'.answers m = r.answers m := by
    intro m
    rw [answers, hlog, List.countP_cons]
    rfl
  have hcharges : ∀ m, r'.charges m = r.charges m := by
    intro m
    rw [charges, hlog, List.countP_cons]
    rfl
  have hsuccesses : ∀ m, r'.successes m = r.successes m + if n = m then 1 else 0 := by
    intro m
    rw [successes, hlog, List.countP_cons]
    simp only [PaseEvent.isEstablished, beq_iff_eq, Option.some_inj, successes]
  refine ⟨?_, ?_, ?_, ?_, ?_, ?_, ?_, ?_, ?_, ?_⟩
  · rw [hhandlers]
    exact hI.fits_setHandler hfits
  · intro y k hout
    exact hI.present y k (hback y k hout).2
  · intro t ht y k hout
    exact hI.marked t (hpase ▸ ht) y k (hback y k hout).2
  · intro y k z l hy hz
    exact hI.alone y k z l (hback y k hy).2 (hback z l hz).2
  · rw [hpase]
    exact hI.number
  · intro m hm
    rw [hanswers, hcharges]
    exact hI.fresh m (hpase ▸ hm)
  · intro w hw
    rw [hcharges]
    exact hI.counter w (hpase ▸ hw)
  · intro m hm
    rw [hanswers, hcharges, hsuccesses]
    obtain ⟨hone, hnone⟩ := hI.open_ m (hpase ▸ hm)
    refine ⟨by omega, fun hothers => ?_⟩
    by_cases hnm : n = m
    · rw [if_pos hnm]
      omega
    · rw [if_neg hnm]
      refine hnone ?_
      rintro y k ⟨hy, hk⟩
      by_cases hxy : y = x
      · subst hxy
        rw [hx] at hy
        cases hy
        rw [hverifier]
        simpa using hnm
      · refine hothers y k ⟨?_, hk⟩
        rw [hhandlers, handlers_setHandler_ne hxy, hy]
  · intro m hm
    rw [hanswers, hsuccesses]
    have := hI.closed m (hpase ▸ hm)
    omega
  · intro ev hev
    rw [hlog] at hev
    rcases List.mem_cons.mp hev with rfl | hev
    · trivial
    · exact hI.accounted ev hev

theorem recordPakeFailure_cases (p : Pase) :
    p.recordPakeFailure.sessionTimeout = none ∧ p.recordPakeFailure.opened = p.opened ∧
    ((p.commWindow = none ∧ p.recordPakeFailure.commWindow = none) ∨
      ∃ w, p.commWindow = some w ∧
        ((maxPakeFailures ≤ w.pakeFailures + 1 ∧ p.recordPakeFailure.commWindow = none) ∨
          (w.pakeFailures + 1 < maxPakeFailures ∧ p.recordPakeFailure.commWindow =
            some { w with pakeFailures := w.pakeFailures + 1 }))) := by
  rw [Pase.recordPakeFailure]
  dsimp only
  cases hw : p.commWindow with
  | none => exact ⟨rfl, rfl, .inl ⟨rfl, rfl⟩⟩
  | some w =>
    dsimp only
    split
    · next hmany => exact ⟨rfl, rfl, .inr ⟨w, rfl, .inl ⟨hmany, rfl⟩⟩⟩
    · next hfew => exact ⟨rfl, rfl, .inr ⟨w, rfl, .inr ⟨Nat.lt_of_not_le hfew, rfl⟩⟩⟩

/-! ### A handler returns -/

section Finish

variable {x : ExchangeId} {h : PaseHandler γ σ} {failed : Bool}

theorem charges_finish (n : ℕ) : (r.finish x h failed).charges n =
    r.charges n + if (failed && !h.gone) = true ∧ r.pase.openNumber = some n then 1 else 0 := by
  rw [charges, finish, List.countP_cons]
  congr 2
  cases failed && !h.gone <;> simp [PaseEvent.isCharged]

theorem answers_finish (n : ℕ) : (r.finish x h failed).answers n = r.answers n := by
  rw [answers, finish, List.countP_cons]
  rfl

theorem successes_finish (n : ℕ) : (r.finish x h failed).successes n = r.successes n := by
  rw [successes, finish, List.countP_cons]
  rfl

theorem Outstanding.of_finish {y : ExchangeId} {k : PaseHandler γ σ}
    (hout : (r.finish x h failed).Outstanding y k) : r.Outstanding y k :=
  ⟨(handlers_finish hout.1).2, hout.2⟩

/-- A handler is accounted for if its failure is charged, or if it is not outstanding. -/
theorem accounted_finish (hI : Inv r)
    (hcharge : (failed && !h.gone) = true ∨ h.isOutstanding = false) :
    ∀ ev ∈ (r.finish x h failed).log, ev.Accounted := by
  intro ev hev
  rcases List.mem_cons.mp hev with rfl | hev
  · cases hv : h.verifierFrom with
    | none => trivial
    | some n =>
      cases hopen : r.pase.openNumber with
      | none => trivial
      | some m =>
        rintro rfl
        rcases hcharge with hcharge | hidle
        · rw [if_pos hcharge]
          exact .inr rfl
        · rw [PaseHandler.isOutstanding, hv] at hidle
          exact .inl (by simpa using hidle)
  · exact hI.accounted ev hev

theorem Inv.leave (hI : Inv r) (hx : r.handlers x = some h) (hidle : h.isOutstanding = false)
    (hcharge : (failed && !h.gone) = false) : Inv (r.finish x h failed) := by
  have hpase : (r.finish x h failed).pase = r.pase := by
    simp only [PaseRun.finish, hcharge, Bool.false_eq_true, if_false]
  have hsame : ∀ n, (r.finish x h failed).charges n = r.charges n := by
    intro n
    rw [charges_finish, hcharge]
    simp
  refine ⟨?_, ?_, ?_, ?_, ?_, ?_, ?_, ?_, ?_, accounted_finish hI (.inr hidle)⟩
  · exact fun y k hy => hI.fits y k (handlers_finish hy).2
  · exact fun y k hout => hI.present y k hout.of_finish
  · exact fun t ht y k hout => hI.marked t (hpase ▸ ht) y k hout.of_finish
  · exact fun y k z l hy hz => hI.alone y k z l hy.of_finish hz.of_finish
  · rw [hpase]
    exact hI.number
  · intro n hn
    rw [answers_finish, hsame]
    exact hI.fresh n (hpase ▸ hn)
  · intro w hw
    rw [hsame]
    exact hI.counter w (hpase ▸ hw)
  · intro n hn
    rw [answers_finish, successes_finish, hsame]
    obtain ⟨hone, hnone⟩ := hI.open_ n (hpase ▸ hn)
    refine ⟨hone, fun hothers => hnone ?_⟩
    rintro y k ⟨hy, hk⟩
    refine hothers y k ⟨(Function.update_of_ne ?_ ..).trans hy, hk⟩
    rintro rfl
    rw [hx] at hy
    cases hy
    rw [hidle] at hk
    cases hk
  · intro n hn
    rw [answers_finish, successes_finish]
    exact hI.closed n (hpase ▸ hn)

theorem Inv.charge (hI : Inv r) (hcharge : (failed && !h.gone) = true) :
    Inv (r.finish x h failed) := by
  have hpase : (r.finish x h failed).pase = r.pase.recordPakeFailure := by
    simp only [PaseRun.finish, hcharge, if_true]
  obtain ⟨hmarker, hopened, hwindow⟩ := recordPakeFailure_cases r.pase
  have hcharges : ∀ n, (r.finish x h failed).charges n =
      r.charges n + if r.pase.openNumber = some n then 1 else 0 := by
    intro n
    simp only [charges_finish, hcharge, true_and]
  refine ⟨?_, ?_, ?_, ?_, ?_, ?_, ?_, ?_, ?_, accounted_finish hI (.inl hcharge)⟩
  · exact fun y k hy => hI.fits y k (handlers_finish hy).2
  · exact fun y k hout => hI.present y k hout.of_finish
  · intro t ht
    rw [hpase, hmarker] at ht
    cases ht
  · exact fun y k z l hy hz => hI.alone y k z l hy.of_finish hz.of_finish
  · intro n hn
    rw [hpase, hopened]
    refine hI.number n ?_
    rw [hpase, Pase.openNumber] at hn
    rcases hwindow with ⟨-, hnone⟩ | ⟨w, hw, ⟨-, hnone⟩ | ⟨-, hw'⟩⟩
    · rw [hnone] at hn
      cases hn
    · rw [hnone] at hn
      cases hn
    · rw [hw'] at hn
      rw [Pase.openNumber, hw]
      exact hn
  · intro n hn
    rw [hpase, hopened] at hn
    have hne : r.pase.openNumber ≠ some n := fun hopen => by
      have := hI.number n hopen
      omega
    rw [answers_finish, hcharges, if_neg hne]
    exact hI.fresh n hn
  · intro w' hw'
    rw [hpase] at hw'
    rcases hwindow with ⟨-, hnone⟩ | ⟨w, hw, ⟨-, hnone⟩ | ⟨hfew, hwin⟩⟩
    · rw [hnone] at hw'
      cases hw'
    · rw [hnone] at hw'
      cases hw'
    · rw [hwin] at hw'
      cases hw'
      have hopen : r.pase.openNumber = some w.number := by rw [Pase.openNumber, hw]; rfl
      rw [hcharges, if_pos hopen, (hI.counter w hw).1]
      exact ⟨rfl, (hI.counter w hw).1 ▸ hfew⟩
  · intro n hn
    rw [hpase, Pase.openNumber] at hn
    rcases hwindow with ⟨-, hnone⟩ | ⟨w, hw, ⟨-, hnone⟩ | ⟨-, hwin⟩⟩
    · rw [hnone] at hn
      cases hn
    · rw [hnone] at hn
      cases hn
    · rw [hwin, Option.map_some, Option.some_inj] at hn
      have hn : w.number = n := hn
      subst hn
      have hopen : r.pase.openNumber = some w.number := by rw [Pase.openNumber, hw]; rfl
      have hone := (hI.open_ w.number hopen).1
      rw [answers_finish, successes_finish, hcharges, if_pos hopen]
      exact ⟨by omega, fun _ => by omega⟩
  · intro n _
    rw [answers_finish, successes_finish]
    exact hI.limited.guesses n

/-- **A handler returns**, with a failure if it is outstanding. -/
theorem Inv.finish (hI : Inv r) (hx : r.handlers x = some h)
    (hfail : h.isOutstanding = true → failed = true) : Inv (r.finish x h failed) := by
  cases hcharge : (failed && !h.gone) with
  | true => exact hI.charge hcharge
  | false =>
    refine hI.leave hx ?_ hcharge
    by_contra hout
    have hout : h.isOutstanding = true := Bool.eq_true_of_not_eq_false hout
    rw [hfail hout, hI.present x h ⟨hx, hout⟩] at hcharge
    cases hcharge

end Finish

/-! ## Step by step -/

section Steps

variable (C : Spake2p γ σ) {x : ExchangeId} {h : PaseHandler γ σ} {now : ℕ}

theorem isOutstanding_of_none (hv : h.verifierFrom = none) : h.isOutstanding = false := by
  rw [PaseHandler.isOutstanding, hv]
  rfl

theorem Inv.finish_idle (hI : Inv r) (hx : r.handlers x = some h) (hv : h.verifierFrom = none)
    (failed : Bool) : Inv (r.finish x h failed) := by
  refine hI.finish hx ?_
  intro hout
  rw [isOutstanding_of_none hv] at hout
  cases hout

theorem marker_of_updateSessionTimeout {p p' : Pase} {new : Bool}
    (h : p.updateSessionTimeout x new now = (p', none)) :
    ∃ t, p'.sessionTimeout = some t ∧ t.exchId = x := by
  rw [Pase.updateSessionTimeout] at h
  dsimp only at h
  split at h
  · split at h
    · cases h
    · cases h
      exact ⟨_, rfl, rfl⟩
  · split at h
    · cases h
      exact ⟨_, rfl, rfl⟩
    · cases h

theorem updateSessionTimeout_of_marker {p p' : Pase} {new : Bool} {t : SessionEstTimeout}
    {status : Option SCStatusCodes} (ht : p.liveTimeout now = some t) (hmine : t.exchId = x)
    (h : p.updateSessionTimeout x new now = (p', status)) : status = none := by
  simp only [Pase.updateSessionTimeout, ht, hmine, ne_eq, not_true_eq_false, if_false] at h
  cases h
  rfl

theorem sessionTimeout_checkCommWindowTimeout (p : Pase) (now : ℕ) :
    (p.checkCommWindowTimeout now).sessionTimeout = p.sessionTimeout := by
  rw [Pase.checkCommWindowTimeout]
  split <;> rfl

theorem Inv.handlePbkdfParamRequest (hI : Inv r) (hx : r.handlers x = some h)
    (hv : h.verifierFrom = none) (hest : h.established = false) (request : PaseMessage) :
    Inv (r.handlePbkdfParamRequest C x h request now) := by
  unfold PaseRun.handlePbkdfParamRequest
  have hI' := hI.checkCommWindowTimeout now
  split
  · dsimp only
    split
    · exact hI'.clearSessionTimeout.finish_idle hx hv _
    · split
      · exact hI'.finish_idle hx hv _
      · split
        · exact hI'.finish_idle hx hv _
        · exact hI'.setHandler hx ⟨hv, hest⟩ rfl rfl rfl
  · exact hI.finish_idle hx hv _

theorem Inv.handlePasePake1 (hI : Inv r) (hx : r.handlers x = some h) {t : SessionEstTimeout}
    (ht : r.pase.sessionTimeout = some t) (hmine : t.exchId = x) (hgone : h.gone = false)
    (hv : h.verifierFrom = none) (hest : h.established = false) (context : γ) (msg : PaseMessage) :
    Inv (r.handlePasePake1 C x h context msg now) := by
  unfold PaseRun.handlePasePake1
  have hI' := hI.checkCommWindowTimeout now
  split
  · split
    · exact hI.finish_idle hx hv _
    · dsimp only
      split
      · exact hI'.clearSessionTimeout.finish_idle hx hv _
      · next w hw =>
        split
        · exact hI'.finish_idle hx hv _
        · have ht' : (r.pase.checkCommWindowTimeout now).sessionTimeout = some t :=
            (sessionTimeout_checkCommWindowTimeout _ _).trans ht
          refine hI'.answer hx (isOutstanding_of_none hv) ht' hmine hw ⟨rfl, hest⟩ hgone rfl ?_
          simp only [PaseHandler.isOutstanding, hest]
          rfl
  · exact hI.finish_idle hx hv _

theorem Inv.establish_completing (hI : Inv r) (hx : r.handlers x = some h)
    (hv : h.verifierFrom.isSome = true) (saltFrom openWindow : Option ℕ) :
    Inv ((r.setHandler x { h with pc := .completing true, established := true }).note
      (.established saltFrom h.verifierFrom openWindow)) := by
  obtain ⟨n, hn⟩ := Option.isSome_iff_exists.mp hv
  rw [show PaseEvent.established saltFrom h.verifierFrom openWindow =
    .established saltFrom (some n) openWindow by rw [hn]]
  refine hI.establish hx ⟨hv, rfl⟩ hn ?_
  simp only [PaseHandler.isOutstanding, Bool.not_true, Bool.and_false]

theorem Inv.handlePasePake3 (hI : Inv r) (hx : r.handlers x = some h)
    (hv : h.verifierFrom.isSome = true) (hest : h.established = false) (secrets : σ)
    (msg : PaseMessage) (hasReserved arms : Bool) :
    Inv (r.handlePasePake3 C x h secrets msg hasReserved arms now) := by
  unfold PaseRun.handlePasePake3
  split
  · split
    · exact hI.finish hx fun _ => rfl
    · split
      · split
        · exact hI.finish hx fun _ => rfl
        · dsimp only
          split
          · exact hI.establish_completing hx hv _ _
          · -- the session is set up, and the failure counts all the same
            have hI' := hI.establish_completing hx hv h.saltFrom
              (r.pase.checkCommWindowTimeout now).openNumber
            have hI' := hI'.finish handlers_setHandler_self fun _ => rfl
            simpa only [PaseRun.finish, note, PaseRun.setHandler, Function.update_idem] using hI'
      · exact hI.setHandler hx ⟨hv, hest⟩ rfl rfl rfl
  · exact hI.finish hx fun _ => rfl

theorem Inv.begin (hI : Inv r) (hx : r.handlers x = some h) (hv : h.verifierFrom = none)
    (hest : h.established = false) (request : PaseMessage)
    (hfree : r.pase.liveTimeout now = none →
      ∀ y k, r.handlers y = some k → k.isOutstanding = false) :
    Inv (r.begin C x h request now) := by
  unfold PaseRun.begin
  split
  · exact hI.finish_idle hx hv _
  split
  · next hup =>
    exact (hI.updateSessionTimeout (fun _ => hfree) hup).setHandler hx ⟨hv, hest⟩ rfl rfl rfl
  · next hup =>
    exact (hI.updateSessionTimeout (fun _ => hfree) hup).handlePbkdfParamRequest C hx hv hest _

/-- A message is received: what is known once the marker was renewed. -/
theorem Inv.receive (hI : Inv r) (hx : r.handlers x = some h) {goOn : PaseRun γ σ → PaseRun γ σ}
    (hguard : h.isOutstanding = true → ∃ t, r.pase.liveTimeout now = some t ∧ t.exchId = x)
    (hidle : h.isOutstanding = false → h.verifierFrom = none ∧ h.established = false)
    (hgo : h.gone = false → ∀ r' : PaseRun γ σ, Inv r' → r'.handlers x = some h →
      (∃ t, r'.pase.sessionTimeout = some t ∧ t.exchId = x) → Inv (goOn r')) :
    Inv (r.receive x h now goOn) := by
  unfold PaseRun.receive
  split
  · exact hI.finish hx fun _ => rfl
  · next hgone =>
    split
    · next hup =>
      have hI' := hI.updateSessionTimeout (fun hnew => by cases hnew) hup
      cases hout : h.isOutstanding with
      | false => exact hI'.setHandler hx (hidle hout) rfl rfl rfl
      | true =>
        -- whoever is outstanding has the marker
        obtain ⟨t, ht, hmine⟩ := hguard hout
        cases updateSessionTimeout_of_marker ht hmine hup
    · next hup =>
      have hI' := hI.updateSessionTimeout (fun hnew => by cases hnew) hup
      exact hgo (Bool.eq_false_of_not_eq_true hgone) _ hI' hx (marker_of_updateSessionTimeout hup)

theorem Inv.afterSend {r' : PaseRun γ σ} (hI : Inv r) (hx : r.handlers x = some h)
    (hstep : r.afterSend x h = some r') : Inv r' := by
  have hfits := hI.fits x h hx
  unfold PaseRun.afterSend at hstep
  unfold PaseHandler.Fits at hfits
  cases hpc : h.pc <;> rw [hpc] at hstep hfits <;> dsimp only at hstep hfits <;> cases hstep
  case rejecting => exact hI.finish_idle hx hfits.1 _
  case sendingParams => exact hI.setHandler hx hfits rfl rfl rfl
  case sendingPake2 => exact hI.setHandler hx hfits rfl rfl rfl
  case completing => exact hI.setHandler hx hfits rfl rfl rfl
  case acknowledging success =>
    split
    · exact hI.finish hx fun _ => rfl
    · refine hI.clearSessionTimeout.finish hx fun hout => ?_
      -- a handler that is not established has failed
      rw [PaseHandler.isOutstanding, Bool.and_eq_true, hfits.2] at hout
      exact hout.2

/-- **Step.** -/
theorem Inv.step {r' : PaseRun γ σ} {a : Action} (hI : Inv r) (hok : r.Guarded a)
    (hstep : r.step C a = some r') : Inv r' := by
  cases a with
  | start x request =>
    simp only [PaseRun.step] at hstep
    split at hstep
    · next hx =>
      cases hstep
      refine hI.setIdle (fun h hx' => ?_) ⟨rfl, rfl⟩ rfl
      rw [hx] at hx'
      cases hx'
    · cases hstep
  | reserved x ok now =>
    simp only [PaseRun.step] at hstep
    split at hstep
    · next h hx =>
      have hfits := hI.fits x h hx
      unfold PaseHandler.Fits at hfits
      split at hstep
      · next request hpc =>
        rw [hpc] at hfits
        cases hstep
        split
        · next hyes => exact hI.begin C hx hfits.1 hfits.2 request (hok hyes)
        · exact hI.finish_idle hx hfits.1 _
      · cases hstep
    · cases hstep
  | sent x ok =>
    simp only [PaseRun.step] at hstep
    split at hstep
    · next h hx =>
      split at hstep
      · split at hstep
        · exact hI.afterSend hx hstep
        · cases hstep
          exact hI.finish hx fun _ => rfl
      · cases hstep
    · cases hstep
  | received x msg hasReserved arms now =>
    simp only [PaseRun.step] at hstep
    split at hstep
    · next h hx =>
      have hfits := hI.fits x h hx
      unfold PaseHandler.Fits at hfits
      split at hstep
      · next context hpc =>
        rw [hpc] at hfits
        cases hstep
        refine hI.receive hx (hok h hx) (fun _ => hfits) ?_
        rintro hgone r' hI' hx' ⟨t, ht, hmine⟩
        exact hI'.handlePasePake1 C hx' ht hmine hgone hfits.1 hfits.2 context msg
      · next secrets hpc =>
        rw [hpc] at hfits
        cases hstep
        refine hI.receive hx (hok h hx) ?_ ?_
        · intro hidle
          rw [PaseHandler.isOutstanding, hfits.1, hfits.2] at hidle
          cases hidle
        · intro _ r' hI' hx' _
          exact hI'.handlePasePake3 C hx' hfits.1 hfits.2 secrets msg hasReserved arms
      · cases hstep
    · cases hstep
  | recvFailed x =>
    simp only [PaseRun.step] at hstep
    split at hstep
    · next h hx =>
      split at hstep
      · cases hstep
        exact hI.finish hx fun _ => rfl
      · cases hstep
        exact hI.finish hx fun _ => rfl
      · cases hstep
    · cases hstep
  | removeSession x =>
    simp only [PaseRun.step] at hstep
    split at hstep
    · next h hx =>
      cases hstep
      refine hI.setIdle (fun k hk => ?_) (hI.fits x h hx) (hok h hx)
      exact hok k hk
    · cases hstep
      exact hI
  | openWindow verifier timeoutSecs now =>
    simp only [PaseRun.step] at hstep
    split at hstep
    · next hopen =>
      cases hstep
      exact hI.openCommWindow hopen
    · cases hstep
      exact hI
  | closeWindow =>
    cases hstep
    exact hI.closeCommWindow
  | checkTimeout now =>
    cases hstep
    exact hI.checkCommWindowTimeout now

/-- **Runs.** The guesses are limited in every run in which an exchange whose Pake1 was answered
keeps the marker and its session until it ends. -/
theorem limited_of_guarded {as : List Action} (hok : (machine C).Meets Guarded new as)
    (hrun : (machine C).run new as = some r) : r.Limited := by
  have hstep : ∀ (r : PaseRun γ σ) (a : Action) (r' : PaseRun γ σ), r.Guarded a → Inv r →
      (machine C).step r a = some r' → Inv r' := by
    intro r a r' hok hI hstep
    exact hI.step C hok hstep
  exact (Machine.invariant_of_meets hstep inv_new hok hrun).limited

end Steps

/-! ## A guess that counts, and guesses that do not -/

/-- It then waits in vain for Pake3. -/
def abandon (x : ExchangeId) (now : ℕ) : List Action := guess x now ++ [.recvFailed x]

def vanish (x : ExchangeId) (now : ℕ) : List Action :=
  guess x now ++ [Action.removeSession x, .recvFailed x]

theorem meets_abandon : (machine standIn).Meets Guarded new (openLong :: abandon ⟨1⟩ 5) := by
  refine (Machine.meets_cons rfl).mpr ⟨trivial, ?_⟩
  refine (Machine.meets_cons rfl).mpr ⟨trivial, ?_⟩
  refine (Machine.meets_cons rfl).mpr ⟨?_, ?_⟩
  · intro _ _ y h hy
    rcases handlers_setHandler_cases hy with ⟨-, rfl⟩ | ⟨-, hy⟩
    · rfl
    · cases hy
  refine (Machine.meets_cons rfl).mpr ⟨trivial, ?_⟩
  refine (Machine.meets_cons rfl).mpr ⟨?_, ?_⟩
  · intro h hx hout
    cases hx
    cases hout
  refine (Machine.meets_cons rfl).mpr ⟨trivial, ?_⟩
  exact (Machine.meets_cons rfl).mpr ⟨trivial, trivial⟩

theorem limited_abandon : ∃ r, (machine standIn).run new (openLong :: abandon ⟨1⟩ 5) = some r ∧
    r.Limited ∧ r.answers 0 = 1 ∧ r.charges 0 = 1 := by
  obtain ⟨r, hr⟩ := Option.isSome_iff_exists.mp (by decide +kernel :
    ((machine standIn).run new (openLong :: abandon ⟨1⟩ 5)).isSome = true)
  have hcounts : ((machine standIn).run new (openLong :: abandon ⟨1⟩ 5)).map
      (fun r => (r.answers 0, r.charges 0)) = some (1, 1) := by decide +kernel
  rw [hr, Option.map_some, Option.some_inj, Prod.mk.injEq] at hcounts
  refine ⟨r, hr, limited_of_guarded standIn meets_abandon hr, hcounts⟩

/-- Fourteen exchanges that vanish, one after the other, and seven that are abandoned. -/
def manyGuesses : List Action :=
  openLong :: ((List.range 14).flatMap fun i => vanish ⟨BitVec.ofNat 32 i⟩ (60001 * i)) ++
    (List.range 7).flatMap fun i => abandon ⟨BitVec.ofNat 32 (14 + i)⟩ (60001 * 14)

theorem guesses_unlimited : ¬ ∀ (as : List Action) (r : PaseRun Unit (List UInt8)),
    (machine standIn).run new as = some r → r.Limited := by
  intro h
  obtain ⟨r, hr⟩ := Option.isSome_iff_exists.mp (by decide +kernel :
    ((machine standIn).run new manyGuesses).isSome = true)
  have hcounts : ((machine standIn).run new manyGuesses).map
      (fun r => (r.answers 0, r.successes 0)) = some (21, 0) := by decide +kernel
  rw [hr, Option.map_some, Option.some_inj, Prod.mk.injEq] at hcounts
  obtain ⟨hanswers, hsuccesses⟩ := hcounts
  have := (h manyGuesses r hr).guesses 0
  rw [hanswers, hsuccesses] at this
  exact absurd this (by decide)

end PaseRun

end RsMatter
