import RsMatter.BoundedVec
import RsMatter.FailSafe

/-!
# The table of sessions (`transport/session.rs`)

Sessions come and go with the handshakes of the peers; a session that secures the
traffic of a fabric carries the index of that fabric. Removing a fabric and ending
a commissioning attempt each clean up the table in their own way
(`Sessions.removeForFabric`, `Sessions.removePase`).
-/

namespace RsMatter

def maxSessions : ℕ := 16

/-- A session with a stamp that is not in the source: how often the fabric at its index had
been added, removed or rolled back when the session got the index. -/
structure StampedSession extends Session where
  stamp : ℕ
  deriving DecidableEq

namespace StampedSession

/-- The fabric index of a session, `0` for none. -/
def getLocalFabricIdx (x : StampedSession) : ℕ := x.mode.fabIdx

/-- The owner of the session gives up: it only finishes what is going on. -/
def expire (x : StampedSession) : StampedSession := { x with expired := true }

/-- A PASE session gets the fabric that has been added on it, once; `stamp` is the stamp
of that fabric. -/
def upgradeFabricIdx (x : StampedSession) (fabricIdx stamp : ℕ) : Except ErrorCode StampedSession :=
  match x.mode with
  | .pase 0 => .ok { x with mode := .pase fabricIdx, stamp }
  | _ => .error .invalid

theorem upgradeFabricIdx_ok {x y : StampedSession} {fabricIdx stamp : ℕ}
    (h : x.upgradeFabricIdx fabricIdx stamp = .ok y) :
    y.getLocalFabricIdx = fabricIdx ∧ y.stamp = stamp := by
  rw [upgradeFabricIdx] at h
  split at h
  · cases h
    exact ⟨rfl, rfl⟩
  · cases h

end StampedSession

structure Sessions where
  nextSessUniqueId : BitVec 32
  sessions : List StampedSession

namespace Sessions

def new : Sessions := ⟨0, []⟩

def get (ss : Sessions) (id : BitVec 32) : Option StampedSession := ss.sessions.find? (·.id == id)

/-- Add a session that is not secured yet: its internal id. Ids have 28 bits and start over. -/
def add (msgCtr : BitVec 32) (reserved : Bool) (peerAddr : Address) (peerNodeid : Option (BitVec 64)) :
    Prog ErrorCode Sessions (BitVec 32) := do
  let ss ← Prog.get
  let id := ss.nextSessUniqueId
  let next := if 0x0fffffff#32 < id + 1 then 0 else id + 1
  Prog.modify ({ · with nextSessUniqueId := next })
  Prog.ensure (ss.sessions.length < maxSessions) .noSpaceSessions
  let session : StampedSession := { Session.new id msgCtr reserved peerAddr peerNodeid with stamp := 0 }
  Prog.modify fun ss => { ss with sessions := ss.sessions ++ [session] }
  return id

def modifySession (p : StampedSession → Bool) (f : StampedSession → StampedSession) (ss : Sessions) :
    Sessions :=
  { ss with sessions := (modifyFirst p f ss.sessions).getD ss.sessions }

def modifyLast (f : StampedSession → StampedSession) (ss : Sessions) : Sessions :=
  match ss.sessions.getLast? with
  | some x => { ss with sessions := ss.sessions.dropLast ++ [f x] }
  | none => ss

def remove (id : BitVec 32) (ss : Sessions) : Sessions :=
  match ss.sessions.findIdx? (·.id == id) with
  | some index => { ss with sessions := swapRemove ss.sessions index }
  | none => ss

/-- Drop the sessions with a property, except for the one that is to finish what is going
on. -/
def dropExcept (p : StampedSession → Bool) (expireSessId : Option (BitVec 32)) (ss : Sessions) :
    Sessions :=
  { ss with
    sessions := swapRemoveWhere (fun x => p x && decide (some x.id ≠ expireSessId)) ss.sessions }

def removeForFabric (fabricIdx : ℕ) (expireSessId : Option (BitVec 32)) (ss : Sessions) : Sessions :=
  let ss := ss.dropExcept (fun x => x.getLocalFabricIdx == fabricIdx) expireSessId
  match expireSessId with
  | some id => ss.modifySession (fun x => x.id == id) .expire
  | none => ss

/-- Remove the PASE sessions, those that have got a fabric too. -/
def removePase (expireSessId : Option (BitVec 32)) (ss : Sessions) : Sessions :=
  let ss := ss.dropExcept (fun x => x.mode.isPase) expireSessId
  match expireSessId with
  | some id => ss.modifySession (fun x => x.id == id && x.mode.isPase) .expire
  | none => ss

/-! ## What is left after a clean-up -/

def IdUnique (ss : Sessions) (id : BitVec 32) : Prop := ss.sessions.countP (·.id == id) ≤ 1

variable {ss : Sessions} {p q : StampedSession → Bool} {x : StampedSession}

theorem mem_modifySession {f : StampedSession → StampedSession}
    (h : x ∈ (ss.modifySession p f).sessions) :
    x ∈ ss.sessions ∨ ∃ y ∈ ss.sessions, p y = true ∧ x = f y := by
  rw [modifySession] at h
  cases hm : modifyFirst p f ss.sessions with
  | none =>
    simp only [hm, Option.getD_none] at h
    exact .inl h
  | some l =>
    simp only [hm, Option.getD_some] at h
    obtain ⟨a, y, b, hl, hy, rfl⟩ := modifyFirst_eq_some hm
    rw [hl]
    rcases List.mem_append.mp h with h | h
    · exact .inl (List.mem_append_left _ h)
    · rcases List.mem_cons.mp h with rfl | h
      · exact .inr ⟨y, by simp, hy, rfl⟩
      · exact .inl (List.mem_append_right _ (List.mem_cons_of_mem _ h))

/-- A session that is not expired after one has been was there before. -/
theorem mem_of_mem_expire (h : x ∈ (ss.modifySession p .expire).sessions) (hx : x.expired = false) :
    x ∈ ss.sessions := by
  rcases mem_modifySession h with h | ⟨y, -, -, rfl⟩
  · exact h
  · cases hx

/-- Where a property singles out one session by its id, expiring the first session with the
property leaves none with it that is not expired. -/
theorem not_of_mem_expire {id : BitVec 32} (hid : ss.IdUnique id)
    (hp : ∀ y ∈ ss.sessions, p y = true → y.id = id)
    (h : x ∈ (ss.modifySession p .expire).sessions) (hx : x.expired = false) :
    x ∈ ss.sessions ∧ p x = false := by
  rw [modifySession] at h
  cases hm : modifyFirst p .expire ss.sessions with
  | none =>
    simp only [hm, Option.getD_none] at h
    exact ⟨h, modifyFirst_eq_none.mp hm x h⟩
  | some l =>
    simp only [hm, Option.getD_some] at h
    obtain ⟨a, y, b, hl, hy, rfl⟩ := modifyFirst_eq_some hm
    have hyid : y.id = id := hp y (by rw [hl]; simp) hy
    have hcount : a.countP (·.id == id) + b.countP (·.id == id) = 0 := by
      rw [IdUnique, hl, List.countP_append, List.countP_cons, hyid] at hid
      simp only [beq_self_eq_true, if_true] at hid
      omega
    have hother : x ∈ a ∨ x ∈ b := by
      rcases List.mem_append.mp h with h | h
      · exact .inl h
      · rcases List.mem_cons.mp h with rfl | h
        · cases hx
        · exact .inr h
    have hmem : x ∈ ss.sessions := by
      rw [hl]
      rcases hother with h | h
      · exact List.mem_append_left _ h
      · exact List.mem_append_right _ (List.mem_cons_of_mem _ h)
    refine ⟨hmem, Bool.eq_false_iff.mpr fun hpx => ?_⟩
    have hxid : (x.id == id) = true := by rw [hp x hmem hpx, beq_self_eq_true]
    rcases hother with h | h
    · exact absurd (List.countP_eq_zero.mp (Nat.eq_zero_of_add_eq_zero_right hcount) x h) (by simpa using hxid)
    · exact absurd (List.countP_eq_zero.mp (Nat.eq_zero_of_add_eq_zero_left hcount) x h) (by simpa using hxid)

variable {expireSessId : Option (BitVec 32)}

theorem mem_dropExcept :
    x ∈ (ss.dropExcept p expireSessId).sessions ↔
      x ∈ ss.sessions ∧ (p x = true → some x.id = expireSessId) := by
  rw [dropExcept, mem_swapRemoveWhere, Bool.and_eq_false_iff, decide_eq_false_iff_not, not_not]
  refine and_congr_right fun _ => ?_
  cases p x <;> simp

theorem IdUnique.dropExcept {id : BitVec 32} (h : ss.IdUnique id) (expireSessId : Option (BitVec 32)) :
    (ss.dropExcept p expireSessId).IdUnique id := by
  rw [IdUnique, Sessions.dropExcept, (swapRemoveWhere_perm _ _).countP_eq]
  exact (List.filter_sublist.countP_le).trans h

/-- **Cleaning up for a fabric** leaves no session on it that is not expired. -/
theorem mem_removeForFabric {fabricIdx : ℕ}
    (hid : expireSessId = some x.id → ss.IdUnique x.id)
    (h : x ∈ (ss.removeForFabric fabricIdx expireSessId).sessions) (hx : x.expired = false) :
    x.getLocalFabricIdx ≠ fabricIdx := by
  intro hf
  cases expireSessId with
  | none => exact nomatch (mem_dropExcept.mp h).2 (by simp [hf])
  | some id =>
    have hkept := (mem_dropExcept.mp (mem_of_mem_expire h hx)).2
    obtain rfl : x.id = id := Option.some_inj.mp (hkept (by simp [hf]))
    have hne := (not_of_mem_expire ((hid rfl).dropExcept _) (fun y _ hy => by simpa using hy) h hx).2
    simp at hne

/-- **Cleaning up after commissioning** leaves no PASE session that is not expired. -/
theorem mem_removePase
    (hid : expireSessId = some x.id → ss.IdUnique x.id)
    (h : x ∈ (ss.removePase expireSessId).sessions) (hx : x.expired = false) : x.mode.isPase = false := by
  refine Bool.eq_false_iff.mpr fun hf => ?_
  cases expireSessId with
  | none => exact nomatch (mem_dropExcept.mp h).2 hf
  | some id =>
    have hkept := (mem_dropExcept.mp (mem_of_mem_expire h hx)).2
    obtain rfl : x.id = id := Option.some_inj.mp (hkept hf)
    have hne := (not_of_mem_expire ((hid rfl).dropExcept _)
      (fun y _ hy => beq_iff_eq.mp (Bool.and_eq_true _ _ ▸ hy).1) h hx).2
    simp [hf] at hne

theorem mem_of_mem_removeForFabric {fabricIdx : ℕ}
    (h : x ∈ (ss.removeForFabric fabricIdx expireSessId).sessions) (hx : x.expired = false) :
    x ∈ ss.sessions := by
  cases expireSessId with
  | none => exact (mem_dropExcept.mp h).1
  | some id => exact (mem_dropExcept.mp (mem_of_mem_expire h hx)).1

theorem mem_of_mem_removePase
    (h : x ∈ (ss.removePase expireSessId).sessions) (hx : x.expired = false) : x ∈ ss.sessions := by
  cases expireSessId with
  | none => exact (mem_dropExcept.mp h).1
  | some id => exact (mem_dropExcept.mp (mem_of_mem_expire h hx)).1

theorem mem_modifyLast {f : StampedSession → StampedSession} (h : x ∈ (ss.modifyLast f).sessions) :
    x ∈ ss.sessions ∨ ∃ y, x = f y := by
  rw [modifyLast] at h
  cases hlast : ss.sessions.getLast? with
  | none => rw [hlast] at h; exact .inl h
  | some y =>
    rw [hlast] at h
    rcases List.mem_append.mp h with h | h
    · exact .inl (List.dropLast_subset _ h)
    · exact .inr ⟨y, List.mem_singleton.mp h⟩

theorem mem_or_plainText_of_mem_add {msgCtr : BitVec 32} {reserved : Bool} {peerAddr : Address}
    {peerNodeid : Option (BitVec 64)} {ss' : Sessions} {r : Except ErrorCode (BitVec 32)}
    (h : (add msgCtr reserved peerAddr peerNodeid).run ss = (ss', r)) (hx : x ∈ ss'.sessions) :
    x ∈ ss.sessions ∨ x.mode = .plainText := by
  rw [add, Prog.run_bind_of_ok (Prog.run_get ss), Prog.run_bind_of_ok (Prog.run_modify _ _)] at h
  by_cases hlen : ss.sessions.length < maxSessions
  · rw [Prog.run_bind_of_ok (Prog.run_ensure_of_pos hlen _ _),
      Prog.run_bind_of_ok (Prog.run_modify _ _), Prog.run_pure] at h
    obtain ⟨rfl, -⟩ := Prod.mk.inj h
    rcases List.mem_append.mp hx with hx | hx
    · exact .inl hx
    · rw [List.mem_singleton.mp hx]
      exact .inr rfl
  · rw [Prog.run_bind_of_error (Prog.run_ensure_of_neg hlen _ _)] at h
    obtain ⟨rfl, -⟩ := Prod.mk.inj h
    exact .inl hx

theorem mem_add {msgCtr : BitVec 32} {reserved : Bool} {peerAddr : Address}
    {peerNodeid : Option (BitVec 64)} {ss' : Sessions} {r : Except ErrorCode (BitVec 32)}
    (h : (add msgCtr reserved peerAddr peerNodeid).run ss = (ss', r)) (hx : x ∈ ss'.sessions) :
    x ∈ ss.sessions ∨ x.getLocalFabricIdx = 0 := by
  refine (mem_or_plainText_of_mem_add h hx).imp_right fun hmode => ?_
  rw [StampedSession.getLocalFabricIdx, hmode]
  rfl

theorem mem_of_mem_remove {id : BitVec 32} (h : x ∈ (ss.remove id).sessions) : x ∈ ss.sessions := by
  rw [remove] at h
  cases hidx : ss.sessions.findIdx? (·.id == id) with
  | none => rw [hidx] at h; exact h
  | some index =>
    rw [hidx] at h
    have hlt : index < ss.sessions.length := (List.findIdx?_eq_some_iff_getElem.mp hidx).1
    exact (swapRemove_perm hlt).mem_iff.mp (List.mem_cons_of_mem _ h)

end Sessions

end RsMatter
