import RsMatter.RxReplies

/-!
# Which session is evicted (`transport/session.rs`, `transport.rs`)

One pass looks for an expired session, and for the one that was used the longest ago. Sessions that
are reserved or have an exchange are passed over (`KeyedSession.IsIdle`), and so are those that were
used at this very instant, unless they are expired.
-/

namespace RsMatter

/-- A session that may be evicted: it is not reserved and has no exchange. -/
def KeyedSession.IsIdle (s : KeyedSession) : Prop :=
  s.reserved = false ∧ ∀ slot ∈ s.exchanges, slot = none

instance (s : KeyedSession) : Decidable s.IsIdle :=
  inferInstanceAs (Decidable (_ ∧ _))

theorem KeyedSession.isIdle_iff (s : KeyedSession) :
    s.IsIdle ↔ (!s.reserved && s.exchanges.all Option.isNone) = true := by
  simp [KeyedSession.IsIdle]

namespace KeyedSessions

variable {ss : KeyedSessions} {now : ℕ} {id : BitVec 32}

/-- What the loop can find in a list of sessions, if it looks for one that was used before some time. -/
inductive Found (l : List KeyedSession) (lruTs : ℕ) (lru : Option (BitVec 32)) :
    Option (BitVec 32) → Prop where
  | expired (s : KeyedSession) (hs : s ∈ l) (hidle : s.IsIdle) (hexpired : s.expired = true) :
    Found l lruTs lru (some s.id)
  | oldest (s : KeyedSession) (hs : s ∈ l) (hidle : s.IsIdle) (hold : s.lastUse < lruTs)
    (hfresh : ∀ t ∈ l, t.IsIdle → t.expired = false ∧ s.lastUse ≤ t.lastUse) : Found l lruTs lru (some s.id)
  | nothing (hfresh : ∀ t ∈ l, t.IsIdle → t.expired = false ∧ lruTs ≤ t.lastUse) : Found l lruTs lru lru

theorem evictionLoop_found (l : List KeyedSession) (lruTs : ℕ) (lru : Option (BitVec 32)) :
    Found l lruTs lru (evictionLoop l lruTs lru) := by
  induction l generalizing lruTs lru with
  | nil => exact .nothing fun t ht => absurd ht List.not_mem_nil
  | cons s l ih =>
    rw [evictionLoop]
    by_cases hpick : (s.expired || decide (s.lastUse < lruTs)) = true ∧ s.IsIdle
    · obtain ⟨hwhen, hidle⟩ := hpick
      rw [Bool.and_assoc, hwhen, Bool.true_and, if_pos (s.isIdle_iff.mp hidle)]
      cases hexpired : s.expired with
      | true => exact .expired s List.mem_cons_self hidle hexpired
      | false =>
        rw [hexpired, Bool.false_or, decide_eq_true_eq] at hwhen
        rw [if_neg (by decide)]
        -- the rest is searched for one that was used even before `s`
        have hrest := ih s.lastUse (some s.id)
        generalize evictionLoop l s.lastUse (some s.id) = r at hrest ⊢
        cases hrest with
        | expired t ht hidle' hexpired' => exact .expired t (List.mem_cons_of_mem s ht) hidle' hexpired'
        | oldest t ht hidle' hold hfresh =>
          refine .oldest t (List.mem_cons_of_mem s ht) hidle' (hold.trans hwhen) fun u hu huidle => ?_
          rcases List.mem_cons.mp hu with rfl | hu
          · exact ⟨hexpired, hold.le⟩
          · exact hfresh u hu huidle
        | nothing hfresh =>
          refine .oldest s List.mem_cons_self hidle hwhen fun u hu huidle => ?_
          rcases List.mem_cons.mp hu with rfl | hu
          · exact ⟨hexpired, le_rfl⟩
          · exact hfresh u hu huidle
    · have hskip : ((s.expired || decide (s.lastUse < lruTs)) && !s.reserved &&
          s.exchanges.all Option.isNone) = false := by
        rw [s.isIdle_iff, ← Bool.and_eq_true, ← Bool.and_assoc] at hpick
        exact Bool.not_eq_true _ ▸ hpick
      have hlate : s.IsIdle → s.expired = false ∧ lruTs ≤ s.lastUse := by
        intro hidle
        by_contra hearly
        apply hpick ⟨?_, hidle⟩
        rw [not_and_or, Bool.not_eq_false, not_le] at hearly
        rcases hearly with hexpired | hlt
        · rw [hexpired, Bool.true_or]
        · rw [decide_eq_true hlt, Bool.or_true]
      rw [hskip, if_neg (by decide)]
      have hrest := ih lruTs lru
      generalize evictionLoop l lruTs lru = r at hrest ⊢
      cases hrest with
      | expired t ht hidle hexpired => exact .expired t (List.mem_cons_of_mem s ht) hidle hexpired
      | oldest t ht hidle hold hfresh =>
        refine .oldest t (List.mem_cons_of_mem s ht) hidle hold fun u hu huidle => ?_
        rcases List.mem_cons.mp hu with rfl | hu
        · exact ⟨(hlate huidle).1, hold.le.trans (hlate huidle).2⟩
        · exact hfresh u hu huidle
      | nothing hfresh =>
        refine .nothing fun u hu huidle => ?_
        rcases List.mem_cons.mp hu with rfl | hu
        · exact hlate huidle
        · exact hfresh u hu huidle

theorem getSessionForEviction_some (h : ss.getSessionForEviction now = some id) :
    ∃ s ∈ ss.sessions, s.id = id ∧ s.IsIdle ∧ (s.expired = true ∨ s.lastUse < now ∧
      ∀ t ∈ ss.sessions, t.IsIdle → t.expired = false ∧ s.lastUse ≤ t.lastUse) := by
  have hfound := evictionLoop_found ss.sessions now none
  rw [show evictionLoop ss.sessions now none = some id from h] at hfound
  cases hfound with
  | expired s hs hidle hexpired => exact ⟨s, hs, rfl, hidle, .inl hexpired⟩
  | oldest s hs hidle hold hfresh => exact ⟨s, hs, rfl, hidle, .inr ⟨hold, hfresh⟩⟩

theorem getSessionForEviction_eq_none : ss.getSessionForEviction now = none ↔
    ∀ s ∈ ss.sessions, s.IsIdle → s.expired = false ∧ now ≤ s.lastUse := by
  constructor
  · intro h
    have hfound := evictionLoop_found ss.sessions now none
    rw [show evictionLoop ss.sessions now none = none from h] at hfound
    cases hfound with
    | nothing hfresh => exact hfresh
  · intro hfresh
    rw [Option.eq_none_iff_forall_ne_some]
    intro id h
    obtain ⟨s, hs, -, hidle, hexpired | ⟨hold, -⟩⟩ := getSessionForEviction_some h
    · rw [(hfresh s hs hidle).1] at hexpired
      cases hexpired
    · exact absurd (hfresh s hs hidle).2 hold.not_ge

theorem get_of_eviction (h : ss.getSessionForEviction now = some id) : ∃ s, ss.get id = some s := by
  obtain ⟨s, hs, hid, -⟩ := getSessionForEviction_some h
  rw [← Option.isSome_iff_exists, get, List.find?_isSome]
  exact ⟨s, hs, beq_iff_eq.mpr hid⟩

theorem mem_remove_of_ne {s : KeyedSession} (hs : s ∈ ss.sessions) (hne : s.id ≠ id) :
    s ∈ (ss.remove id).sessions := by
  rw [remove]
  split
  · next index hindex =>
    obtain ⟨hlt, hid, -⟩ := List.findIdx?_eq_some_iff_getElem.mp hindex
    rcases List.mem_cons.mp ((swapRemove_perm hlt).mem_iff.mpr hs) with rfl | hs
    · exact absurd (beq_iff_eq.mp hid) hne
    · exact hs
  · exact hs

theorem mem_remove_evicted (hids : (ss.sessions.map (·.id)).Nodup)
    (h : ss.getSessionForEviction now = some id) {s : KeyedSession} (hs : s ∈ ss.sessions) (hbusy : ¬ s.IsIdle) :
    s ∈ (ss.remove id).sessions := by
  obtain ⟨t, ht, rfl, hidle, -⟩ := getSessionForEviction_some h
  refine mem_remove_of_ne hs fun heq => hbusy ?_
  rw [List.inj_on_of_nodup_map hids hs ht heq]
  exact hidle

/-- Has a session been kept, and not as the one that was set up? -/
def Keeps (s : KeyedSession) (r : KeyedSessions × Except ErrorCode Unit) : Prop :=
  s ∈ r.1.sessions ∧ (r.2 = .ok () → ∃ kept t, r.1.sessions = kept ++ [t] ∧ s ∈ kept)

theorem keeps_add (now : ℕ) {s : KeyedSession} (hs : s ∈ ss.sessions) (msgCtr : BitVec 32) (peer : Address)
    (srcNodeid : BitVec 64) : Keeps s (ss.add msgCtr false peer (some srcNodeid) now) := by
  obtain ⟨ss', result, hadd, -, ⟨-, -, hsessions⟩ | ⟨⟨code, rfl⟩, -, hsessions⟩⟩ :=
    add_cases msgCtr false peer (some srcNodeid) now ss
  · rw [hadd]
    refine ⟨?_, fun _ => ⟨_, _, hsessions, hs⟩⟩
    rw [hsessions]
    exact List.mem_append_left _ hs
  · rw [hadd]
    exact ⟨hsessions ▸ hs, by rintro ⟨⟩⟩

theorem keeps_addEvicting (now : ℕ) (hids : (ss.sessions.map (·.id)).Nodup) (rand : BitVec 32 × BitVec 32) (peer : Address)
    (srcNodeid : BitVec 64) {s : KeyedSession} (hs : s ∈ ss.sessions) (hbusy : ¬ s.IsIdle) :
    Keeps s (ss.addEvicting rand peer srcNodeid now) := by
  have hfirst := keeps_add now hs rand.1 peer srcNodeid
  obtain ⟨ss', result, hadd, -, ⟨rfl, -, -⟩ | ⟨⟨code, rfl⟩, -, hsessions⟩⟩ :=
    add_cases rand.1 false peer (some srcNodeid) now ss
  · rw [hadd] at hfirst
    rw [addEvicting, hadd]
    exact hfirst
  · rw [addEvicting, hadd]
    dsimp only
    rw [← hsessions] at hs hids
    cases hlru : ss'.getSessionForEviction now with
    | none => exact ⟨hs, by rintro ⟨⟩⟩
    | some lruId => exact keeps_add now (mem_remove_evicted hids hlru hs hbusy) rand.2 peer srcNodeid

/-- A session that is not idle is not evicted for a group message. -/
theorem mem_getOrCreateForGroupRx (hids : (ss.sessions.map (·.id)).Nodup) (env : RxEnv) (peer : Address)
    (rx : PacketHdr) (pb : ParseBuf) {s : KeyedSession} (hs : s ∈ ss.sessions) (hbusy : ¬ s.IsIdle) :
    s ∈ (ss.getOrCreateForGroupRx env peer rx pb).1.sessions := by
  rw [getOrCreateForGroupRx]
  split
  · next srcNodeid groupId hsrc hgroup =>
    split
    · exact hs
    · cases findGroupKey env groupId srcNodeid peer rx pb with
      | none => exact hs
      | some found =>
        dsimp only
        split
        · exact hs
        · cases env.rand with
          | error code => exact hs
          | ok rand =>
            have hkeeps := keeps_addEvicting env.now
              (show (({ ss with groupCtrStore :=
                (ss.groupCtrStore.postRecv found.1 srcNodeid found.2.plain.ctr).2 } : KeyedSessions).sessions.map
                  (·.id)).Nodup from hids) rand peer srcNodeid hs hbusy
            rcases hadd : addEvicting rand peer srcNodeid env.now { ss with groupCtrStore :=
              (ss.groupCtrStore.postRecv found.1 srcNodeid found.2.plain.ctr).2 } with ⟨ss', code | u⟩
            · rw [hadd] at hkeeps
              simp only [hadd]
              exact hkeeps.1
            · rw [hadd] at hkeeps
              obtain ⟨kept, t, hsessions, hmem⟩ := hkeeps.2 rfl
              simp only [hadd]
              rw [sessions_modifyLast hsessions]
              exact List.mem_append_left _ hmem
  · exact hs

end KeyedSessions

theorem TransportRunner.mem_writeEvictSomeSessionPacket {t t' : TransportRunner} {now : ℕ} {proto : ProtoHdr}
    {sent : List Outgoing} (hids : (t.sessions.sessions.map (·.id)).Nodup)
    (h : t.writeEvictSomeSessionPacket now proto = some (t', sent)) {s : KeyedSession}
    (hs : s ∈ t.sessions.sessions) (hbusy : ¬ s.IsIdle) : s ∈ t'.sessions.sessions := by
  rw [writeEvictSomeSessionPacket] at h
  cases hlru : t.sessions.getSessionForEviction now with
  | none =>
    rw [hlru] at h
    cases h
    exact hs
  | some id =>
    rw [hlru] at h
    obtain ⟨⟨t'', q⟩, hwrite, h⟩ := Option.map_eq_some_iff.mp h
    cases h
    obtain ⟨_, -, hsessions, -⟩ := writeEvictSessionPacket_cases hwrite
    rw [hsessions]
    exact KeyedSessions.mem_remove_evicted hids hlru hs hbusy

namespace KeyedSessions

/-- **Which session is evicted.** None is exactly if every session that could be is neither expired
nor was used before now. Otherwise it is an expired one if there is one, and one that was used the
longest ago if not. As long as ids tell sessions apart, no session that is reserved or has an exchange
is evicted, neither for a group message nor to make room for a handshake. -/
theorem eviction_legal (ss : KeyedSessions) (now : ℕ) :
    (ss.getSessionForEviction now = none ↔
      ∀ s ∈ ss.sessions, s.IsIdle → s.expired = false ∧ now ≤ s.lastUse) ∧
    (∀ id, ss.getSessionForEviction now = some id → ∃ s ∈ ss.sessions, s.id = id ∧ s.IsIdle ∧
      ((∃ t ∈ ss.sessions, t.IsIdle ∧ t.expired = true) → s.expired = true) ∧
      ((∀ t ∈ ss.sessions, t.IsIdle → t.expired = false) →
        ∀ t ∈ ss.sessions, t.IsIdle → s.lastUse ≤ t.lastUse)) ∧
    ((ss.sessions.map (·.id)).Nodup → ∀ s ∈ ss.sessions, ¬ s.IsIdle →
      (∀ env peer rx pb, s ∈ (ss.getOrCreateForGroupRx env peer rx pb).1.sessions) ∧
      ∀ nextExchId proto t' sent,
        (⟨ss, nextExchId⟩ : TransportRunner).writeEvictSomeSessionPacket now proto = some (t', sent) →
        s ∈ t'.sessions.sessions) := by
  refine ⟨getSessionForEviction_eq_none, fun id hid => ?_, fun hids s hs hbusy => ?_⟩
  · obtain ⟨s, hs, hsid, hidle, hwhy⟩ := getSessionForEviction_some hid
    refine ⟨s, hs, hsid, hidle, ?_, ?_⟩
    · rintro ⟨t, ht, htidle, htexpired⟩
      rcases hwhy with hexpired | ⟨-, hfresh⟩
      · exact hexpired
      · rw [(hfresh t ht htidle).1] at htexpired
        cases htexpired
    · intro hnone t ht htidle
      rcases hwhy with hexpired | ⟨-, hfresh⟩
      · rw [hnone s hs hidle] at hexpired
        cases hexpired
      · exact (hfresh t ht htidle).2
  · exact ⟨fun env peer rx pb => mem_getOrCreateForGroupRx hids env peer rx pb hs hbusy,
      fun nextExchId proto t' sent h => TransportRunner.mem_writeEvictSomeSessionPacket hids h hs hbusy⟩

/-- An expired session is evicted at the very instant that it was used. -/
theorem eviction_now : ¬ ∀ (ss : KeyedSessions) (now : ℕ), ss.getSessionForEviction now = none ↔
    (∀ s ∈ ss.sessions, ¬ s.IsIdle) ∨ ∀ s ∈ ss.sessions, s.IsIdle → s.lastUse = now := by
  intro h
  have hnone := (h { new with
    sessions := [{ KeyedSession.new 1 0 false (.udp ⟨.v4 0, 0⟩) none 7 with expired := true }] } 7).mpr
      (.inr (by decide))
  revert hnone
  decide

end KeyedSessions

end RsMatter
