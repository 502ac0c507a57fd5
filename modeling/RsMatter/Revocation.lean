import RsMatter.Expiry
import RsMatter.Restart

/-!
# Revoking a commissioning window (`dm/clusters/adm_comm.rs`, `sc/pase.rs`)

`RevokeCommissioning` ends the fail-safe and then closes the window. Whether there is one comes out
at the end only, and as no error, so that what the handler makes of an error (`Device.mapRevokeErr`)
never shows: without a window the fail-safe ends all the same.
-/

namespace RsMatter

namespace Device

/-- What the sender of `RevokeCommissioning` gets to hear. -/
inductive RevokeReply where
  | success
  | windowNotOpen
  | failure (code : ErrorCode)
  deriving DecidableEq

def closeCommWindow : Prog ErrorCode Device Bool := do
  let d ← Prog.get
  if d.commWindow = true then
    Prog.modify ({ · with commWindow := false })
    return true
  else
    return false

/-- What an error in closing the window is answered with. -/
def mapRevokeErr (code : ErrorCode) : RevokeReply :=
  if code = .invalid then .windowNotOpen else .failure code

/-- `RevokeCommissioning`, and what it is answered with. -/
def revokeCommissioning (env : Env) (sess : StampedSession) (d : Device) : Device × RevokeReply :=
  match (expire env (paseSessId sess)).run d with
  | (d, .error code) => (d, .failure code)
  | (d, .ok _) =>
    match closeCommWindow.run d with
    | (d, .error code) => (d, mapRevokeErr code)
    | (d, .ok _) => (d, .success)

variable {d d' : Device} {env : Env} {sess : StampedSession}

theorem run_closeCommWindow (d : Device) :
    closeCommWindow.run d = ({ d with commWindow := false }, .ok d.commWindow) := by
  rw [closeCommWindow, Prog.run_bind_of_ok (Prog.run_get d)]
  cases hwindow : d.commWindow with
  | true => rfl
  | false =>
    rw [if_neg (by decide), Prog.run_pure, ← hwindow]

theorem run_handleRevokeCommissioning (env : Env) (sess : StampedSession) (d : Device) :
    ((handleRevokeCommissioning env sess).run d).1 = (revokeCommissioning env sess d).1 := by
  rw [handleRevokeCommissioning, revokeCommissioning, Prog.run_bind]
  rcases (expire env (paseSessId sess)).run d with ⟨d', code | ended⟩
  · rfl
  · dsimp only
    rw [run_closeCommWindow]
    rfl

theorem idle_of_run_expire {id : Option (BitVec 32)} {ended : Bool}
    (h : (expire env id).run d = (d', .ok ended)) : d'.failsafe.state = .idle := by
  rw [expire, Prog.run_bind_of_ok (Prog.run_get d)] at h
  cases hst : d.failsafe.state with
  | idle =>
    rw [hst] at h
    cases h
    exact hst
  | armed ctx =>
    rw [hst] at h
    dsimp only at h
    rcases hroll : (Prog.onlyIf (ctx.fabIdx ≠ 0) (rollBack env ctx.fabIdx)).run d with ⟨d₁, _ | _⟩
    · rw [Prog.run_bind_of_error hroll] at h
      cases h
    · rw [Prog.run_bind_of_ok hroll, run_expire_rest] at h
      split_ifs at h
      · cases h
        rfl
      · cases h

/-- What the command is to do: nothing without a window, and otherwise all or an error. -/
structure RevokesWindow (env : Env) (sess : StampedSession) (d : Device) : Prop where
  closed : d.commWindow = false → (revokeCommissioning env sess d).2 = .windowNotOpen ∧
    (revokeCommissioning env sess d).1.failsafe = d.failsafe ∧
    (revokeCommissioning env sess d).1.fabrics = d.fabrics ∧
    (revokeCommissioning env sess d).1.networks = d.networks ∧
    (revokeCommissioning env sess d).1.sessions = d.sessions
  opened : d.commWindow = true →
    ((revokeCommissioning env sess d).2 = .success ∧ (revokeCommissioning env sess d).1.commWindow = false ∧
      (revokeCommissioning env sess d).1.failsafe.state = .idle) ∨
    (∃ code, (revokeCommissioning env sess d).2 = .failure code) ∧
      (revokeCommissioning env sess d).1.commWindow = true

theorem revokeCommissioning_ne (env : Env) (sess : StampedSession) (d : Device) :
    (revokeCommissioning env sess d).2 ≠ .windowNotOpen := by
  rw [revokeCommissioning]
  rcases (expire env (paseSessId sess)).run d with ⟨d', code | ended⟩
  · rintro ⟨⟩
  · dsimp only
    rw [run_closeCommWindow]
    rintro ⟨⟩

/-- **When revoking does what it is to do.** If a window is open, and only then. -/
theorem revokesWindow_iff (env : Env) (sess : StampedSession) (d : Device) :
    RevokesWindow env sess d ↔ d.commWindow = true := by
  constructor
  · intro h
    cases hwindow : d.commWindow with
    | true => rfl
    | false => exact absurd (h.closed hwindow).1 (revokeCommissioning_ne env sess d)
  · intro hwindow
    refine ⟨fun hclosed => ?_, fun _ => ?_⟩
    · rw [hwindow] at hclosed
      cases hclosed
    have hkeeps : ((expire env (paseSessId sess)).run d).1.commWindow = d.commWindow :=
      congrArg Prod.snd (keeps_expire env (paseSessId sess) d)
    rw [revokeCommissioning]
    rcases hexpire : (expire env (paseSessId sess)).run d with ⟨d', code | ended⟩
    · rw [hexpire, hwindow] at hkeeps
      exact .inr ⟨⟨code, rfl⟩, hkeeps⟩
    · have hidle := idle_of_run_expire hexpire
      dsimp only
      rw [run_closeCommWindow]
      exact .inl ⟨rfl, rfl, hidle⟩

/-- The administrator of another fabric ends a commissioning whose window is closed. -/
theorem not_revokesWindow : ∃ d sess,
    (machine Sample.crypto).run factoryNew (Sample.twoAdmins ++ [.closeCommWindow]) = some d ∧
      d.sessions.get 1 = some sess ∧ sess.getLocalFabricIdx = 1 ∧ d.commWindow = false ∧
      d.failsafe.context = some (0, false) ∧
      (revokeCommissioning (Sample.envAt 0) sess d).2 = .success ∧
      (revokeCommissioning (Sample.envAt 0) sess d).1.failsafe.state = .idle ∧
      ¬ RevokesWindow (Sample.envAt 0) sess d := by
  obtain ⟨d, sess, hrun, hst, hget, hidx⟩ := Sample.run_twoAdmins
  have hst' : ({ d with commWindow := false } : Device).failsafe.state = .armed ⟨0, 60, 0, 0⟩ := hst
  have hexpire : (expire (Sample.envAt 0) (paseSessId sess)).run { d with commWindow := false } =
      (({ d with commWindow := false } : Device).disarmed (paseSessId sess), .ok true) := by
    rw [run_expire_of_zero hst' rfl, if_pos (Sample.works 0 _)]
  refine ⟨{ d with commWindow := false }, sess, ?_, hget, hidx, rfl, FailSafe.context_of_new hst, ?_, ?_, ?_⟩
  · rw [Machine.run_append, hrun]
    rfl
  · rw [revokeCommissioning, hexpire]
    dsimp only
    rw [run_closeCommWindow]
  · rw [revokeCommissioning, hexpire]
    dsimp only
    rw [run_closeCommWindow]
    rfl
  · intro h
    exact revokeCommissioning_ne _ _ _ (h.closed rfl).1

end Device

end RsMatter
