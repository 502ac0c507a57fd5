import Mathlib.Algebra.Order.BigOperators.Group.List
import Mathlib.Data.Finset.Card
import RsMatter.ExchangeIds
import RsMatter.Exchanges

/-!
# What holds of every session (`transport/session.rs`, `transport.rs`)

The peer names its session id when the two have agreed on keys: on a session that is not secured
it is still `0`, as the unsecured packets of the peer say. Sessions and their exchanges are few,
so that there is always an id left for an exchange of our own (`KeyedSessions.exists_nextExchId`).
-/

namespace RsMatter

namespace KeyedSession

structure Sound (s : KeyedSession) : Prop where
  /-- a session that is not secured has no session id -/
  peerSessId : s.isEncrypted = false → s.peerSessId = 0
  exchanges : s.exchanges.length ≤ maxExchanges

variable {s s' : KeyedSession}

theorem Sound.of_blank (hid : s.peerSessId = 0) (hexch : s.exchanges = []) : s.Sound :=
  ⟨fun _ => hid, by rw [hexch]; exact Nat.zero_le _⟩

theorem Sound.of_frame (h : s.Sound) (hmode : s'.mode = s.mode) (hid : s'.peerSessId = s.peerSessId)
    (hlen : s'.exchanges.length ≤ maxExchanges) : s'.Sound := by
  refine ⟨fun henc => ?_, hlen⟩
  rw [hid]
  apply h.peerSessId
  rw [Session.isEncrypted] at henc ⊢
  rwa [hmode] at henc

theorem Sound.postRecv (h : s.Sound) (rx : PacketHdr) (now : ℕ) : (s.postRecv rx now).1.Sound := by
  have hframe := Session.postRecv_frame s.toSession rx now
  refine h.of_frame ?_ ?_ (Session.length_postRecv rx now h.exchanges)
  · exact (congrArg Session.mode hframe :)
  · exact (congrArg Session.peerSessId hframe :)

end KeyedSession

namespace Session

variable {s s' : Session}

theorem length_removeExch {i : ℕ} {b : Bool} (h : s.removeExch i = some (b, s')) :
    s'.exchanges.length = s.exchanges.length := by
  rw [removeExch] at h
  split at h
  · cases h
  · split at h
    · cases h
      exact List.length_set
    · cases h
      exact List.length_set

theorem length_preSend {exchIndex : Option ℕ} {tx hdr : PacketHdr} {sai : Option (BitVec 32)}
    {addr : Address} {b : Bool} (h : s.preSend exchIndex tx sai = some (s', hdr, addr, b)) :
    s'.exchanges.length = s.exchanges.length := by
  cases exchIndex with
  | none =>
    cases h
    rfl
  | some i =>
    cases he : s.exch i with
    | none =>
      rw [preSend.eq_def] at h
      dsimp only at h
      rw [he] at h
      cases h
    | some e =>
      obtain ⟨s₁, hdr₁, re, e', hsend, -, hs₁⟩ := preSend_of_exch he tx sai
      rw [hsend] at h
      cases h
      rw [hs₁]
      exact List.length_set

end Session

namespace KeyedSessions

structure Sound (ss : KeyedSessions) : Prop where
  sessions : ∀ s ∈ ss.sessions, s.Sound
  few : ss.sessions.length ≤ maxSessions

variable {ss ss' : KeyedSessions} {s s' : KeyedSession}

theorem Sound.of_nil (h : ss.sessions = []) : ss.Sound := by
  constructor
  · rw [h]
    exact List.forall_mem_nil _
  · rw [h]
    exact Nat.zero_le _

theorem Sound.of_subperm (h : ss.Sound) (hsub : ss'.sessions.Subperm ss.sessions) : ss'.Sound :=
  ⟨fun s hs => h.sessions s (hsub.subset hs), hsub.length_le.trans h.few⟩

theorem Sound.of_middle (h : ss.Sound) {a c : List KeyedSession} (hold : ss.sessions = a ++ s :: c)
    (hnew : ss'.sessions = a ++ s' :: c) (hs : s.Sound → s'.Sound) : ss'.Sound := by
  obtain ⟨hall, hfew⟩ := h
  rw [hold] at hfew
  rw [hold, List.forall_mem_append, List.forall_mem_cons] at hall
  constructor
  · rw [hnew, List.forall_mem_append, List.forall_mem_cons]
    exact ⟨hall.1, hs hall.2.1, hall.2.2⟩
  · rw [hnew]
    simpa using hfew

theorem Sound.of_append (h : ss.Sound) (hnew : ss'.sessions = ss.sessions ++ [s])
    (hroom : ss.sessions.length < maxSessions) (hs : s.Sound) : ss'.Sound := by
  constructor
  · rw [hnew, List.forall_mem_append]
    refine ⟨h.sessions, fun t ht => ?_⟩
    rw [List.mem_singleton.mp ht]
    exact hs
  · rw [hnew, List.length_append]
    exact hroom

theorem Sound.onSession {β : Type} {id : BitVec 32} {now : ℕ} {f : KeyedSession → KeyedSession × β}
    {b : β} (h : ss.Sound) (heq : ss.onSession id now f = some (ss', b))
    (hf : ∀ t : KeyedSession, t.Sound → (f t).1.Sound) : ss'.Sound := by
  obtain ⟨a, t, c, hold, -, hnew, -, -⟩ := onSession_eq_some heq
  exact h.of_middle hold hnew fun ht => hf _ ⟨ht.peerSessId, ht.exchanges⟩

theorem Sound.onPlain {id : BitVec 32} {now : ℕ} {f : Session → Option Session} (h : ss.Sound)
    (heq : ss.onPlain id now f = some ss')
    (hf : ∀ t t' : Session, f t = some t' → t'.mode = t.mode ∧ t'.peerSessId = t.peerSessId ∧
      (t.exchanges.length ≤ maxExchanges → t'.exchanges.length ≤ maxExchanges)) : ss'.Sound := by
  rw [KeyedSessions.onPlain] at heq
  obtain ⟨⟨ss'', b⟩, hon, hr⟩ := Option.bind_eq_some_iff.mp heq
  dsimp only at hr
  split at hr
  · cases hr
    refine h.onSession hon fun t ht => ?_
    cases hft : f t.toSession with
    | none => exact ht
    | some t' =>
      obtain ⟨hmode, hid, hlen⟩ := hf _ _ hft
      exact ht.of_frame hmode hid (hlen ht.exchanges)
  · cases hr

theorem Sound.dropExcept (h : ss.Sound) (p q : KeyedSession → Bool)
    (expireSessId : Option (BitVec 32)) : (ss.dropExcept p q expireSessId).Sound := by
  have hdrop : (swapRemoveWhere (fun s => p s && decide (some s.id ≠ expireSessId))
      ss.sessions).Subperm ss.sessions :=
    (swapRemoveWhere_perm _ _).subperm.trans List.filter_sublist.subperm
  cases expireSessId with
  | none => exact h.of_subperm hdrop
  | some id =>
    have hkept : Sound { ss with
        sessions := swapRemoveWhere (fun s => p s && decide (some s.id ≠ some id)) ss.sessions } :=
      h.of_subperm hdrop
    rw [KeyedSessions.dropExcept]
    cases hmod : modifyFirst (fun s : KeyedSession => s.id == id && q s)
        (fun s => { s with expired := true })
        (swapRemoveWhere (fun s => p s && decide (some s.id ≠ some id)) ss.sessions) with
    | none => exact hkept
    | some l =>
      obtain ⟨a, x, c, hl, -, rfl⟩ := modifyFirst_eq_some hmod
      exact hkept.of_middle hl rfl fun hx => ⟨hx.peerSessId, hx.exchanges⟩

/-! ## Receiving -/

theorem few_add (h : ss.sessions.length ≤ maxSessions) (msgCtr : BitVec 32) (reserved : Bool)
    (peerAddr : Address) (peerNodeid : Option (BitVec 64)) (now : ℕ) :
    (ss.add msgCtr reserved peerAddr peerNodeid now).1.sessions.length ≤ maxSessions := by
  obtain ⟨ss₁, result, hadd, -, ⟨-, hroom, hsessions⟩ | ⟨-, -, hsessions⟩⟩ :=
    add_cases msgCtr reserved peerAddr peerNodeid now ss
  · rw [hadd, hsessions, List.length_append]
    exact hroom
  · rw [hadd, hsessions]
    exact h

theorem few_addEvicting (h : ss.sessions.length ≤ maxSessions) (rand : BitVec 32 × BitVec 32)
    (peer : Address) (srcNodeid : BitVec 64) (now : ℕ) :
    (ss.addEvicting rand peer srcNodeid now).1.sessions.length ≤ maxSessions := by
  have hfew := few_add h rand.1 false peer (some srcNodeid) now
  rw [addEvicting]
  split
  · next hadd =>
    rw [hadd] at hfew
    exact hfew
  · next hadd =>
    rw [hadd] at hfew
    split
    · exact hfew
    · exact few_add ((remove_subperm _ _).length_le.trans hfew) ..

theorem length_modifyLast (f : KeyedSession → KeyedSession) (ss : KeyedSessions) :
    (ss.modifyLast f).sessions.length = ss.sessions.length := by
  rw [modifyLast]
  split
  · next hlast =>
    have hne : ss.sessions ≠ [] := fun hnil => by simp [hnil] at hlast
    simp [Nat.sub_add_cancel (List.length_pos_of_ne_nil hne)]
  · rfl

theorem length_postRecvLast (rx : PacketHdr) (now : ℕ) (ss : KeyedSessions) :
    (ss.postRecvLast rx now).1.sessions.length = ss.sessions.length := by
  rw [postRecvLast]
  split
  · next hlast =>
    have hne : ss.sessions ≠ [] := fun hnil => by simp [hnil] at hlast
    simp [Nat.sub_add_cancel (List.length_pos_of_ne_nil hne)]
  · rfl

theorem few_getOrCreateForGroupRx (h : ss.sessions.length ≤ maxSessions) (env : RxEnv)
    (peer : Address) (rx : PacketHdr) (pb : ParseBuf) :
    (ss.getOrCreateForGroupRx env peer rx pb).1.sessions.length ≤ maxSessions := by
  rw [getOrCreateForGroupRx]
  split
  · next srcNodeid _ _ _ =>
    split
    · exact h
    · split
      · exact h
      · next fabIdx rx' _ =>
        have hfew : ({ ss with groupCtrStore := (ss.groupCtrStore.postRecv fabIdx
            srcNodeid rx'.plain.ctr).2 } : KeyedSessions).sessions.length ≤ maxSessions := h
        dsimp only
        split
        · exact h
        · split
          · exact h
          · next rand _ =>
            have hadded := few_addEvicting hfew rand peer srcNodeid env.now
            split
            · next hadd =>
              rw [hadd] at hadded
              exact hadded
            · next hadd =>
              rw [hadd] at hadded
              rw [length_modifyLast]
              exact hadded
  · exact h

theorem few_decodePacket (h : ss.sessions.length ≤ maxSessions) (env : RxEnv) (peer : Address)
    (buf : List UInt8) : (ss.decodePacket env peer buf).1.sessions.length ≤ maxSessions := by
  rw [KeyedSessions.decodePacket]
  split
  · exact h
  · next plain pb _ =>
    dsimp only
    cases hsession : ss.decodeForSession env peer { PacketHdr.reset with plain } pb with
    | some result =>
      rw [KeyedSessions.decodeForSession] at hsession
      obtain ⟨⟨l, result'⟩, hl, rfl⟩ := Option.map_eq_some_iff.mp hsession
      obtain ⟨a, s, c, hs, -, rfl, -⟩ := withFirst_eq_some hl
      rw [hs] at h
      simpa using h
    | none =>
      dsimp only
      split
      · split
        · exact h
        · split
          · split
            · exact h
            · next rand _ =>
              have hadded := few_add h rand.1 false peer plain.getSrcNodeid env.now
              split
              · next hadd =>
                rw [hadd] at hadded
                exact hadded
              · next hadd =>
                rw [hadd] at hadded
                rw [length_postRecvLast]
                exact hadded
          · exact h
      · split
        · have hcreated := few_getOrCreateForGroupRx h env peer { PacketHdr.reset with plain } pb
          split
          · next hcreate =>
            rw [hcreate] at hcreated
            exact hcreated
          · next hcreate =>
            rw [hcreate] at hcreated
            rw [length_postRecvLast]
            exact hcreated
        · exact h

/-- **Receiving a packet.** -/
theorem Sound.decodePacket (h : ss.Sound) (env : RxEnv) (peer : Address) (buf : List UInt8) :
    (ss.decodePacket env peer buf).1.Sound := by
  cases received_decodePacket env peer buf ss with
  | refused hsub _ => exact h.of_subperm hsub
  | undecoded a s c code _ hold hnew _ =>
    exact h.of_middle hold hnew fun hs => ⟨hs.peerSessId, hs.exchanges⟩
  | taken a s c plain pb rx _ _ _ hold hnew _ =>
    refine h.of_middle hold hnew fun hs => ?_
    have hused : (s.updateLastUsed env.now).Sound := ⟨hs.peerSessId, hs.exchanges⟩
    exact hused.postRecv rx env.now
  | opened kept s rx hkept hblank _ _ hnew _ =>
    refine ⟨?_, few_decodePacket h.few env peer buf⟩
    rw [hnew, List.forall_mem_append]
    refine ⟨fun t ht => h.sessions t (hkept.subset ht), fun t ht => ?_⟩
    rw [List.mem_singleton.mp ht]
    exact (KeyedSession.Sound.of_blank hblank.peerSessId hblank.exchanges).postRecv rx env.now

/-! ## Runs -/

/-- **One step.** -/
theorem Sound.step {a : Action} (h : ss.Sound) (hstep : ss.step a = some ss') : ss'.Sound := by
  cases a with
  | decodePacket env peer buf =>
    cases hstep
    exact h.decodePacket env peer buf
  | createUnsecured msgCtr peer ephemeralId now =>
    rw [KeyedSessions.step] at hstep
    obtain ⟨ss₁, result, hadd, -, ⟨rfl, hroom, hsessions⟩ | ⟨⟨code, rfl⟩, -, hsessions⟩⟩ :=
      add_cases msgCtr false peer none now ss
    · rw [hadd] at hstep
      cases hstep
      exact h.of_append (sessions_modifyLast hsessions _) hroom (.of_blank rfl rfl)
    · rw [hadd] at hstep
      cases hstep
      exact h.of_subperm (hsessions ▸ List.Subperm.refl _)
  | reserveNow msgCtr now =>
    obtain ⟨ss₁, result, hadd, -, ⟨rfl, hroom, hsessions⟩ | ⟨⟨code, rfl⟩, -, hsessions⟩⟩ :=
      add_cases msgCtr true (.udp ⟨.v4 0, 0⟩) none now ss
    · rw [KeyedSessions.step, hadd] at hstep
      cases hstep
      exact h.of_append hsessions hroom (.of_blank rfl rfl)
    · rw [KeyedSessions.step, hadd] at hstep
      cases hstep
      exact h.of_subperm (hsessions ▸ List.Subperm.refl _)
  | updatePase id params decKey encKey now =>
    obtain ⟨⟨ss₁, b⟩, hon, rfl⟩ := Option.map_eq_some_iff.mp hstep
    exact h.onSession hon fun t ht => ⟨by rintro ⟨⟩, ht.exchanges⟩
  | updateCase id fabIdx catIds params decKey encKey now =>
    obtain ⟨⟨ss₁, b⟩, hon, rfl⟩ := Option.map_eq_some_iff.mp hstep
    exact h.onSession hon fun t ht => ⟨by rintro ⟨⟩, ht.exchanges⟩
  | complete id now =>
    obtain ⟨⟨ss₁, b⟩, hon, rfl⟩ := Option.map_eq_some_iff.mp hstep
    exact h.onSession hon fun t ht => ⟨ht.peerSessId, ht.exchanges⟩
  | remove id =>
    cases hstep
    exact h.of_subperm (remove_subperm id ss)
  | removeForFabric fabricIdx expireSessId =>
    cases hstep
    exact h.dropExcept ..
  | removePase expireSessId =>
    cases hstep
    exact h.dropExcept ..
  | upgradeFabricIdx id fabricIdx now =>
    obtain ⟨⟨ss₁, b⟩, hon, rfl⟩ := Option.map_eq_some_iff.mp hstep
    refine h.onSession hon fun t ht => ?_
    rw [KeyedSession.upgradeFabricIdx]
    split
    · exact ⟨by rintro ⟨⟩, ht.exchanges⟩
    · exact ht
  | addExch id exchId role now =>
    rw [KeyedSessions.step] at hstep
    refine h.onPlain hstep fun t t' ht => ?_
    obtain ⟨⟨index, t''⟩, hadd, rfl⟩ := Option.map_eq_some_iff.mp ht
    have hframe := Session.addExch_frame hadd
    exact ⟨(congrArg Session.mode hframe :), (congrArg Session.peerSessId hframe :),
      fun hlen => (Session.length_addExch hlen hadd).1⟩
  | removeExch id index now =>
    rw [KeyedSessions.step] at hstep
    refine h.onPlain hstep fun t t' ht => ?_
    obtain ⟨⟨b, t''⟩, hremove, rfl⟩ := Option.map_eq_some_iff.mp ht
    have hframe := Session.removeExch_frame hremove
    exact ⟨(congrArg Session.mode hframe :), (congrArg Session.peerSessId hframe :),
      fun hlen => (Session.length_removeExch hremove).le.trans hlen⟩
  | preSend id exchIndex tx sai now =>
    rw [KeyedSessions.step] at hstep
    refine h.onPlain hstep fun t t' ht => ?_
    obtain ⟨⟨t'', hdr, addr, b⟩, hsend, rfl⟩ := Option.map_eq_some_iff.mp ht
    have hframe := Session.preSend_frame hsend
    exact ⟨(congrArg Session.mode hframe :), (congrArg Session.peerSessId hframe :),
      fun hlen => (Session.length_preSend hsend).le.trans hlen⟩
  | reset =>
    cases hstep
    exact .of_nil rfl

/-- **Every table** that the node can come to. -/
theorem sound_of_run {as : List Action} (hrun : machine.run new as = some ss) : ss.Sound := by
  refine Machine.invariant_of_meets (fun ss a ss' _ h hstep => h.step hstep) ?_
    (Machine.meets_of_forall fun _ _ _ => trivial) hrun
  exact .of_nil rfl

/-! ## There is always an exchange id left -/

def exchIds (ss : KeyedSessions) : List (BitVec 16) :=
  ss.sessions.flatMap fun s => s.exchanges.filterMap fun slot => slot.map (·.exchId)

theorem mem_exchIds_of_remoteHas {id : BitVec 16} (h : ss.remoteHas id = true) : id ∈ ss.exchIds := by
  obtain ⟨s, hs, hany⟩ := List.any_eq_true.mp h
  obtain ⟨slot, hslot, hany⟩ := List.any_eq_true.mp hany
  cases slot with
  | none => cases hany
  | some e =>
    have hid : e.exchId = id := beq_iff_eq.mp (Bool.and_eq_true_iff.mp hany).2
    refine List.mem_flatMap.mpr ⟨s, hs, List.mem_filterMap.mpr ⟨some e, hslot, ?_⟩⟩
    rw [Option.map_some, hid]

theorem length_exchIds (hfew : ss.sessions.length ≤ maxSessions)
    (hexchs : ∀ s ∈ ss.sessions, s.exchanges.length ≤ maxExchanges) :
    ss.exchIds.length ≤ maxSessions * maxExchanges := by
  have hsum : ss.exchIds.length ≤ ss.sessions.length * maxExchanges := by
    rw [exchIds, List.length_flatMap, ← List.length_map fun s : KeyedSession =>
      (s.exchanges.filterMap fun slot => slot.map (·.exchId)).length]
    apply List.sum_le_card_nsmul
    intro n hn
    obtain ⟨s, hs, rfl⟩ := List.mem_map.mp hn
    exact (List.length_filterMap_le _ _).trans (hexchs s hs)
  exact hsum.trans (Nat.mul_le_mul_right _ hfew)

end KeyedSessions

theorem taken_of_nextExchIdLoop {taken : BitVec 16 → Bool} {fuel : ℕ} {next : BitVec 16}
    (h : nextExchIdLoop taken fuel next = none) {n : ℕ} (hn : n < fuel) :
    taken (succExchId^[n] next) = true := by
  induction fuel generalizing next n with
  | zero => exact absurd hn (Nat.not_lt_zero n)
  | succ fuel ih =>
    rw [nextExchIdLoop] at h
    split at h
    · next htaken =>
      cases n with
      | zero => exact htaken
      | succ n => exact ih h (by omega)
    · cases h

theorem nodup_succExchId (next : BitVec 16) {n : ℕ} (hn : n ≤ 0xffff) :
    ((List.range n).map (succExchId^[·] next)).Nodup := by
  refine List.Nodup.map_on (fun m hm m' hm' heq => ?_) List.nodup_range
  exact succExchId_iterate_inj ((List.mem_range.mp hm).trans_le hn) ((List.mem_range.mp hm').trans_le hn) heq

theorem exists_nextExchIdLoop {taken : BitVec 16 → Bool} {ids : List (BitVec 16)}
    (hfew : ids.length < 0xffff) (htaken : ∀ id, taken id = true → id ∈ ids) (next : BitVec 16) :
    ∃ r, nextExchIdLoop taken 0xffff next = some r := by
  rw [← Option.ne_none_iff_exists']
  intro hnone
  have hsub : (List.range 0xffff).map (succExchId^[·] next) ⊆ ids := by
    intro id hid
    obtain ⟨n, hn, rfl⟩ := List.mem_map.mp hid
    exact htaken _ (taken_of_nextExchIdLoop hnone (List.mem_range.mp hn))
  have hlen := (List.subperm_of_subset (nodup_succExchId next le_rfl) hsub).length_le
  rw [List.length_map, List.length_range] at hlen
  exact absurd hfew hlen.not_gt

namespace KeyedSessions

variable {ss : KeyedSessions}

/-- **An exchange id.** The search for one ends. -/
theorem exists_nextExchId (hfew : ss.sessions.length ≤ maxSessions)
    (hexchs : ∀ s ∈ ss.sessions, s.exchanges.length ≤ maxExchanges) (next : BitVec 16) :
    ∃ r, nextExchIdLoop ss.remoteHas 0xffff next = some r := by
  have hlen : ss.exchIds.length < 0xffff := (length_exchIds hfew hexchs).trans_lt (by decide)
  exact exists_nextExchIdLoop hlen (fun _ => mem_exchIds_of_remoteHas) next

end KeyedSessions

end RsMatter
