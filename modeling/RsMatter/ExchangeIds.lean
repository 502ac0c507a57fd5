import RsMatter.ExchangeOwners

/-!
# Telling exchanges apart (`transport/session.rs`)

A received packet names its exchange by an id and by the side that initiated the exchange. The
peer chooses the ids of its exchanges, and opens one only where no exchange is for the packet.
We number ours from a 16-bit counter that starts over, and pass over the ids that are in use; but
only exchanges that a peer initiated are looked at for that. An exchange of ours that lives long
enough gets a double.
-/

namespace RsMatter

/-! ## One session -/

namespace ExchangeState

/-- Do both exchanges have the same id, initiated by the same side? -/
def SameName (e e' : ExchangeState) : Prop :=
  e.exchId = e'.exchId ∧ e.role.isInitiator = e'.role.isInitiator

theorem Continues.sameName {e e' : ExchangeState} (h : e.Continues e') : e.SameName e' :=
  ⟨h.exchId.symm, by rw [h.role]⟩

theorem sameName_of_isForRx {e e' : ExchangeState} {rxProto : ProtoHdr}
    (h : e.isForRx rxProto = true) (h' : e'.isForRx rxProto = true) : e.SameName e' := by
  rw [isForRx, Bool.and_eq_true, beq_iff_eq, beq_iff_eq] at h h'
  refine ⟨h.1.trans h'.1.symm, ?_⟩
  have hrole := h.2.symm.trans h'.2
  simpa using hrole

/-- A packet that is for one of two exchanges with the same name is for the other. -/
theorem isForRx_of_sameName {e e' : ExchangeState} {rxProto : ProtoHdr} (h : e.SameName e')
    (hfor : e'.isForRx rxProto = true) : e.isForRx rxProto = true := by
  rw [isForRx] at hfor ⊢
  rw [h.1, h.2]
  exact hfor

end ExchangeState

namespace Session

variable {s s' : Session} {i : ℕ} {e : ExchangeState} {o : Option ExchangeState}

/-- No two exchanges of the session have the same name. -/
def Unambiguous (s : Session) : Prop :=
  ∀ i j e e', s.exch i = some e → s.exch j = some e' → e.SameName e' → i = j

/-- A slot may get an exchange with a name that no other slot has. -/
theorem Unambiguous.put (h : s.Unambiguous) (hs' : s'.exch = Function.update s.exch i o)
    (ho : ∀ e', o = some e' → ∀ j e, j ≠ i → s.exch j = some e → ¬ e.SameName e') :
    s'.Unambiguous := by
  intro j k e e' hj hk hname
  rw [hs'] at hj hk
  by_cases hji : j = i
  · by_cases hki : k = i
    · exact hji.trans hki.symm
    · rw [hji, Function.update_self] at hj
      rw [Function.update_of_ne hki] at hk
      exact absurd ⟨hname.1.symm, hname.2.symm⟩ (ho e hj k e' hki hk)
  · rw [Function.update_of_ne hji] at hj
    by_cases hki : k = i
    · rw [hki, Function.update_self] at hk
      exact absurd hname (ho e' hk j e hji hj)
    · rw [Function.update_of_ne hki] at hk
      exact h j k e e' hj hk hname

theorem Unambiguous.put_same {e' : ExchangeState} (h : s.Unambiguous) (he : s.exch i = some e)
    (hs' : s'.exch = Function.update s.exch i (some e')) (hname : e.SameName e') :
    s'.Unambiguous := by
  refine h.put hs' ?_
  rintro _ ⟨⟩ j e₁ hji he₁ hname₁
  exact hji (h j i e₁ e he₁ he ⟨hname₁.1.trans hname.1.symm, hname₁.2.trans hname.2.symm⟩)

theorem Unambiguous.put_none (h : s.Unambiguous)
    (hs' : s'.exch = Function.update s.exch i none) : s'.Unambiguous :=
  h.put hs' fun _ hnone => nomatch hnone

/-- **The peer** cannot give two exchanges the same name. -/
theorem Unambiguous.hears (h : s.Unambiguous) (hears : s.Hears s') : s'.Unambiguous := by
  obtain ⟨rxProto, hslots⟩ := hears.slots
  cases hslots with
  | refused hexch =>
    intro j k e e' hj hk
    rw [hexch] at hj hk
    exact h j k e e' hj hk
  | taken i e e' he hc hexch => exact h.put_same he hexch hc.sameName
  | opened i e' hfree hnone hinit hc hexch =>
    refine h.put hexch ?_
    rintro _ ⟨⟩ j e hji he hname
    -- the exchange that is opened is for the packet that opened it
    have hfor : e'.isForRx rxProto = true := by
      rw [ExchangeState.isForRx, hc.exchId, hc.role, hinit]
      simp [Role.isInitiator]
    exact Bool.false_ne_true
      ((hnone j e he).symm.trans (ExchangeState.isForRx_of_sameName hname hfor))

theorem room_of_addExch {exchId : BitVec 16} {role : Role}
    (h : s.addExch exchId role = some (i, s')) :
    s.exchanges.length < maxExchanges ∨ none ∈ s.exchanges := by
  rw [addExch] at h
  split at h
  · next hroom => exact .inl hroom
  · split at h
    · next hfree =>
      obtain ⟨hlt, hnone, -⟩ := List.findIdx?_eq_some_iff_getElem.mp hfree
      exact .inr (Option.isNone_iff_eq_none.mp hnone ▸ List.getElem_mem hlt)
    · cases h

theorem unambiguous_of_exchanges (h : s.exchanges = []) : s.Unambiguous := by
  intro i _ e _ hi
  rw [exch, h] at hi
  cases hi

end Session

/-! ## The counter -/

/-- The first id from `next` on, in a round of the counter, that is not taken. -/
def NextFree (taken : BitVec 16 → Bool) (next id : BitVec 16) : Prop :=
  ∃ n < 0xffff, id = succExchId^[n] next ∧ taken id = false ∧
    ∀ m < n, taken (succExchId^[m] next) = true

theorem nextExchIdLoop_spec {taken : BitVec 16 → Bool} {fuel : ℕ} {next id id' : BitVec 16}
    (h : nextExchIdLoop taken fuel next = some (id, id')) :
    (∃ n < fuel, id = succExchId^[n] next ∧ taken id = false ∧
      ∀ m < n, taken (succExchId^[m] next) = true) ∧ id' = succExchId id := by
  induction fuel generalizing next with
  | zero => cases h
  | succ fuel ih =>
    rw [nextExchIdLoop] at h
    split at h
    · next htaken =>
      obtain ⟨⟨n, hn, hid, hfree, hbefore⟩, hid'⟩ := ih h
      refine ⟨⟨n + 1, by omega, hid, hfree, ?_⟩, hid'⟩
      intro m hm
      cases m with
      | zero => exact htaken
      | succ m => exact hbefore m (by omega)
    · next htaken =>
      cases h
      exact ⟨⟨0, by omega, rfl, Bool.eq_false_iff.mpr htaken, fun m hm => absurd hm (by omega)⟩, rfl⟩

theorem toNat_succExchId (id : BitVec 16) : (succExchId id).toNat = id.toNat % 0xffff + 1 := by
  have hlt := id.isLt
  have hadd : (id + 1).toNat = (id.toNat + 1) % 2 ^ 16 := BitVec.toNat_add id 1
  have hzero : id + 1 = 0 ↔ (id + 1).toNat = 0 := by
    rw [← BitVec.toNat_inj]
    rfl
  rw [succExchId]
  split
  · next h =>
    have hone : (1 : BitVec 16).toNat = 1 := rfl
    rw [hzero, hadd] at h
    omega
  · next h =>
    rw [hzero, hadd] at h
    rw [hadd]
    omega

theorem toNat_succExchId_iterate (n : ℕ) (id : BitVec 16) :
    (succExchId^[n + 1] id).toNat = (id.toNat + n) % 0xffff + 1 := by
  induction n with
  | zero => exact toNat_succExchId id
  | succ n ih =>
    rw [Function.iterate_succ_apply', toNat_succExchId, ih]
    omega

theorem succExchId_iterate_inj {n m : ℕ} {id : BitVec 16} (hn : n < 0xffff) (hm : m < 0xffff)
    (h : succExchId^[n] id = succExchId^[m] id) : n = m := by
  have hlt := id.isLt
  have hval := congrArg BitVec.toNat h
  cases n with
  | zero =>
    cases m with
    | zero => rfl
    | succ m =>
      rw [toNat_succExchId_iterate, Function.iterate_zero_apply] at hval
      omega
  | succ n =>
    cases m with
    | zero =>
      rw [toNat_succExchId_iterate, Function.iterate_zero_apply] at hval
      omega
    | succ m =>
      rw [toNat_succExchId_iterate, toNat_succExchId_iterate] at hval
      omega

theorem succExchId_wraps : succExchId^[65534] 2 = 1 := by
  apply BitVec.eq_of_toNat_eq
  rw [toNat_succExchId_iterate 65533]
  rfl

/-! ## The hub -/

namespace Hub

variable {h : Hub}

/-- No two exchanges of one session have the same name. -/
def Unambiguous (h : Hub) : Prop := ∀ s ∈ h.table.sessions, s.Unambiguous

/-- If a step initiates an exchange on a session that has room for it: is the next id that no
peer uses not the id of one of our exchanges on the session? -/
def Unused (h : Hub) : Action → Prop
  | .initiate sessionId _ => ∀ s id, h.table.get sessionId = some s → s.expired = false →
      (s.exchanges.length < maxExchanges ∨ none ∈ s.exchanges) →
      NextFree h.table.remoteHas h.nextExchId id →
      ∀ i e, s.exch i = some e → e.role.isInitiator = true → e.exchId ≠ id
  | _ => True

theorem unambiguous_new : new.Unambiguous := fun _ hs => nomatch hs

theorem Unambiguous.of_evolves (hu : h.Unambiguous) {table : KeyedSessions}
    {new : Option (BitVec 32)} (hev : h.table.Evolves new table) : (h.install table).Unambiguous := by
  intro s' hs'
  rcases hev.origin s' hs' with ⟨s, hs, hears⟩ | ⟨-, blank, hblank, hears⟩
  · exact (hu s hs).hears hears
  · exact (Session.unambiguous_of_exchanges hblank).hears hears

theorem Unambiguous.of_middle (hu : h.Unambiguous) {table : KeyedSessions}
    {a c : List KeyedSession} {s s' : KeyedSession} (hold : h.table.sessions = a ++ s :: c)
    (hnew : table.sessions = a ++ s' :: c) (hs' : s.Unambiguous → s'.Unambiguous) :
    (h.install table).Unambiguous := by
  intro t ht
  have ht' : t ∈ a ++ s' :: c := hnew ▸ ht
  have hu' : ∀ t ∈ a ++ s :: c, t.Unambiguous := fun t ht => hu t (hold ▸ ht)
  rcases List.mem_append.mp ht' with ht' | ht'
  · exact hu' t (List.mem_append_left _ ht')
  · rcases List.mem_cons.mp ht' with rfl | ht'
    · exact hs' (hu' s (by simp))
    · exact hu' t (List.mem_append_right _ (List.mem_cons_of_mem _ ht'))

section Steps

variable (hu : h.Unambiguous) {h' : Hub}

include hu

theorem Unambiguous.grant {id : BitVec 32} {i : ℕ} (hgrant : h.grant id i = some h') :
    h'.Unambiguous := by
  rw [Hub.grant] at hgrant
  split at hgrant
  · cases hgrant
    exact hu
  · cases hgrant

theorem Unambiguous.onTable (a : KeyedSessions.Action) : (h.onTable a).Unambiguous := by
  rw [Hub.onTable]
  by_cases htable : a.isTable = true
  · rw [if_pos htable]
    have hinstall : (h.install ((h.table.step a).getD h.table)).Unambiguous := by
      cases hstep : h.table.step a with
      | none => exact hu
      | some table => exact hu.of_evolves (KeyedSessions.evolves_step htable hstep)
    dsimp only
    split <;> exact hinstall
  · rw [if_neg htable]
    exact hu

theorem Unambiguous.accept {peer : Address} {rx : PacketHdr} {now : ℕ}
    (hstep : h.accept peer rx now = some h') : h'.Unambiguous := by
  rw [Hub.accept] at hstep
  cases hrx : h.table.onRx peer rx.plain now (KeyedSession.accept rx.proto) with
  | none =>
    rw [hrx] at hstep
    cases hstep
    exact hu
  | some r =>
    obtain ⟨table, granted⟩ := r
    rw [hrx] at hstep
    obtain ⟨a, s, c, hold, hnew, rfl, -⟩ := KeyedSessions.onRx_eq_some hrx
    rcases (s.updateLastUsed now).accept_cases rx.proto with hcase | ⟨i, e, he, hrole, hcase⟩
    · rw [hcase] at hnew hstep
      cases hstep
      exact hu.of_middle hold hnew fun hs => hs
    · rw [hcase] at hnew hstep
      refine Unambiguous.grant (hu.of_middle hold hnew fun hs => ?_) hstep
      refine hs.put_same he (Session.puts_setExch he _).exch ⟨rfl, ?_⟩
      rw [hrole]
      rfl

theorem Unambiguous.touch (sessionId : BitVec 32) (now : ℕ) :
    (h.touch sessionId now).Unambiguous := by
  rw [Hub.touch]
  split
  · next table hon =>
    obtain ⟨a, s, c, hold, -, hnew, -⟩ := KeyedSessions.onSession_eq_some hon
    exact hu.of_middle hold hnew fun hs => hs
  · exact hu

theorem Unambiguous.initiate {sessionId : BitVec 32} {now : ℕ}
    (hunused : h.Unused (.initiate sessionId now)) (hstep : h.initiate sessionId now = some h') :
    h'.Unambiguous := by
  rw [Hub.initiate] at hstep
  split at hstep
  · cases hstep
    exact hu
  · next s₀ hget =>
    split at hstep
    · cases hstep
      exact hu.touch sessionId now
    · next hexpired =>
      split at hstep
      · cases hstep
        exact hu
      · next exchId nextExchId hnext =>
        dsimp only at hstep
        cases hon : h.table.onSession sessionId now (KeyedSession.initiate exchId) with
        | none =>
          rw [hon] at hstep
          cases hstep
          exact hu
        | some r =>
          obtain ⟨table, granted⟩ := r
          rw [hon] at hstep
          obtain ⟨a, s, c, hold, hs, hnew, rfl, -⟩ := KeyedSessions.onSession_eq_some hon
          rcases (s.updateLastUsed now).initiate_cases exchId with hcase | ⟨i, session, hadd, hcase⟩
          · rw [hcase] at hnew hstep
            cases hstep
            exact hu.of_middle hold hnew fun hs => hs
          · rw [hcase] at hnew hstep
            obtain rfl : s₀ = s := Option.some_inj.mp (hget.symm.trans hs)
            have hown := hunused s₀ exchId hget (Bool.eq_false_iff.mpr hexpired)
              (Session.room_of_addExch hadd) (nextExchIdLoop_spec hnext).1
            have hu' : Unambiguous { h with nextExchId } := hu
            refine Unambiguous.grant (hu'.of_middle hold hnew fun hs => ?_) hstep
            refine hs.put (Session.puts_addExch hadd).exch ?_
            rintro _ ⟨⟩ j e - he hname
            exact hown j e he hname.2 hname.1

theorem Unambiguous.takeExchId : h.takeExchId.Unambiguous := by
  intro s hs
  rw [table_takeExchId] at hs
  exact hu s hs

theorem Unambiguous.send {handle : ℕ} {mm : MessageMeta} {payload : List UInt8}
    {sai : Option (BitVec 32)} {now : ℕ} (hstep : h.send handle mm payload sai now = some h') :
    h'.Unambiguous := by
  rw [Hub.send] at hstep
  split at hstep
  · cases hstep
    exact hu
  · next g _ =>
    split at hstep
    · cases hstep
      exact hu
    · next table hon =>
      cases hstep
      obtain ⟨a, s, c, hold, -, hnew, htrue, -⟩ := KeyedSessions.onSession_eq_some hon
      rcases (s.updateLastUsed now).send_cases g.id.exchangeIndex mm payload sai with hcase |
        ⟨-, hcase⟩ | ⟨e, e', session, he, hc, hputs, hcase⟩
      · rw [hcase] at hnew
        exact hu.of_middle hold hnew fun hs => hs
      · rw [hcase] at htrue
        cases htrue
      · rw [hcase] at hnew
        exact hu.of_middle hold hnew fun hs => hs.put_same he hputs.exch hc.sameName
    · cases hstep

theorem Unambiguous.look {handle now : ℕ} (hstep : h.look handle now = some h') :
    h'.Unambiguous := by
  rw [Hub.look] at hstep
  split at hstep
  · cases hstep
    exact hu
  · split at hstep
    · cases hstep
      exact hu
    · next table hon =>
      cases hstep
      obtain ⟨a, s, c, hold, -, hnew, -⟩ := KeyedSessions.onSession_eq_some hon
      exact hu.of_middle hold hnew fun hs => hs
    · cases hstep

theorem Unambiguous.of_remove (id : BitVec 32) : (h.install (h.table.remove id)).Unambiguous :=
  fun s hs => hu s ((KeyedSessions.remove_subperm id h.table).subset hs)

theorem Unambiguous.drop {handle now : ℕ} (hstep : h.drop handle now = some h') :
    h'.Unambiguous := by
  rw [Hub.drop] at hstep
  split at hstep
  · cases hstep
    exact hu
  · next g _ =>
    dsimp only at hstep
    split at hstep
    · cases hstep
      exact hu
    · cases hstep
    · next table ended hon =>
      cases hstep
      obtain ⟨a, s, c, hold, -, hnew, hover, -⟩ := KeyedSessions.onSession_eq_some hon
      have hdropped : (h.install table).Unambiguous := by
        rcases (s.updateLastUsed now).drop_cases g.id.exchangeIndex with ⟨-, hcase⟩ |
          ⟨e, o, session, ended, he, hputs, ho, hcase⟩
        · rw [hcase] at hover
          cases hover
        · rw [hcase] at hnew
          refine hu.of_middle hold hnew fun hs => ?_
          rcases ho with rfl | rfl
          · exact hs.put_none hputs.exch
          · exact hs.put_same he hputs.exch ⟨rfl, (Role.isInitiator_setDroppedState _).symm⟩
      intro s' hs'
      cases ended with
      | false => exact hdropped s' hs'
      | true => exact hdropped s' ((KeyedSessions.remove_subperm _ _).subset hs')

theorem Unambiguous.acceptTimeout (peer : Address) (rx : PacketHdr) (now : ℕ) :
    (h.acceptTimeout peer rx now).Unambiguous := by
  rw [Hub.acceptTimeout]
  split
  · exact hu
  · next table hrx =>
    obtain ⟨a, s, c, hold, hnew, -⟩ := KeyedSessions.onRx_eq_some hrx
    refine hu.of_middle hold hnew fun hs => ?_
    rcases (s.updateLastUsed now).acceptTimeout_cases rx.proto now with hcase |
      ⟨i, e, he, hrole, hcase⟩
    · rw [hcase]
      exact hs
    · rw [hcase]
      refine hs.put_same he (Session.puts_setExch he _).exch ⟨rfl, ?_⟩
      rw [hrole]
      rfl

theorem Unambiguous.closeDropped {proto : ProtoHdr} {sai : Option (BitVec 32)} {now : ℕ}
    (hstep : h.closeDropped proto sai now = some h') : h'.Unambiguous := by
  rw [Hub.closeDropped] at hstep
  split at hstep
  · next id _ _ =>
    cases hstep
    have hremove := hu.takeExchId.of_remove id
    rw [table_takeExchId] at hremove
    exact hremove
  · split at hstep
    · cases hstep
      exact hu
    · next id i _ =>
      split at hstep
      · cases hstep
        exact hu
      · next table hon =>
        cases hstep
        obtain ⟨a, s, c, hold, -, hnew, htrue, -⟩ := KeyedSessions.onSession_eq_some hon
        rcases (s.updateLastUsed now).closeDropped_cases i proto sai with ⟨-, hcase⟩ |
          ⟨e, session, he, hputs, hcase⟩
        · rw [hcase] at htrue
          cases htrue
        · rw [hcase] at hnew
          exact hu.of_middle hold hnew fun hs => hs.put_none hputs.exch
      · cases hstep

end Steps

/-- **One step** that initiates no exchange under the name of another keeps names apart. -/
theorem Unambiguous.step (hu : h.Unambiguous) {a : Action} {h' : Hub} (hunused : h.Unused a)
    (hstep : h.step a = some h') : h'.Unambiguous := by
  cases a with
  | table a =>
    cases hstep
    exact hu.onTable a
  | accept peer rx now => exact hu.accept hstep
  | initiate sessionId now => exact hu.initiate hunused hstep
  | takeExchId =>
    cases hstep
    exact hu.takeExchId
  | send handle mm payload sai now => exact hu.send hstep
  | look handle now => exact hu.look hstep
  | drop handle now => exact hu.drop hstep
  | acceptTimeout peer rx now =>
    cases hstep
    exact hu.acceptTimeout peer rx now
  | closeDropped proto sai now => exact hu.closeDropped hstep

namespace Sample

/-- A session with an exchange of ours in the first slot and free slots after it. -/
def session (free : ℕ) : KeyedSession :=
  { KeyedSession.new 0 1 false KeyedSessions.Sample.peer none 1 with
    localNodeid := 1
    exchanges := some ⟨1, .initiator .owned, .new⟩ :: List.replicate free none }

def table (free : ℕ) : KeyedSessions := ⟨1, [session free], .new⟩

/-- We initiate an exchange on the session and drop it. -/
def brief : List Action := [.initiate 0 1, .drop 0 1]

def briefs : ℕ → List Action
  | 0 => []
  | n + 1 => brief ++ briefs n

/-- An exchange lives through as many others as there are ids, and then we initiate another
one. -/
def reused : List Action := opening ++ briefs 65534 ++ [.initiate 0 1]

end Sample

theorem remoteHas_table (free : ℕ) (id : BitVec 16) : (Sample.table free).remoteHas id = false := by
  simp [KeyedSessions.remoteHas, Sample.table, Sample.session, Role.isInitiator]

theorem onSession_brief {free : ℕ} (hfree : free ≤ 4) (id : BitVec 16) : ∃ i ≤ 4, ∃ s,
    i ≠ 0 ∧ s.exch 0 = some ⟨1, .initiator .owned, .new⟩ ∧
    s.exch i = some ⟨id, .initiator .owned, .new⟩ ∧
    (Sample.table free).onSession 0 1 (KeyedSession.initiate id) =
      some (⟨1, [s], .new⟩, some i) ∧
    (KeyedSessions.mk 1 [s] .new).onSession 0 1 (KeyedSession.drop i) =
      some (Sample.table (min (free + 1) 4), some false) := by
  obtain rfl | rfl | rfl | rfl | rfl : free = 0 ∨ free = 1 ∨ free = 2 ∨ free = 3 ∨ free = 4 := by
    omega
  · exact ⟨1, by decide, _, by decide, rfl, rfl, rfl, rfl⟩
  · exact ⟨2, by decide, _, by decide, rfl, rfl, rfl, rfl⟩
  · exact ⟨3, by decide, _, by decide, rfl, rfl, rfl, rfl⟩
  · exact ⟨4, by decide, _, by decide, rfl, rfl, rfl, rfl⟩
  · exact ⟨1, by decide, _, by decide, rfl, rfl, rfl, rfl⟩

theorem initiate_eq {id : BitVec 32} {now i : ℕ} {s : KeyedSession} {table : KeyedSessions}
    {x : ExchangeId} (hget : h.table.get id = some s) (hexpired : s.expired = false)
    (hfree : h.table.remoteHas h.nextExchId = false)
    (hon : h.table.onSession id now (KeyedSession.initiate h.nextExchId) = some (table, some i))
    (hx : ExchangeId.new id i = some x) :
    ∃ h' b, h.initiate id now = some h' ∧ h'.table = table ∧
      h'.nextExchId = succExchId h.nextExchId ∧ h'.handles = ⟨x, b⟩ :: h.handles := by
  have hnext : h.getNextExchId = some (h.nextExchId, succExchId h.nextExchId) := by
    rw [getNextExchId, nextExchIdLoop, hfree]
    rfl
  simp only [initiate, hget, hexpired, hnext, hon, grant, hx]
  exact ⟨_, _, rfl, rfl, rfl, rfl⟩

theorem run_brief {free : ℕ} (hfree : free ≤ 4) (htable : h.table = Sample.table free) :
    ∃ h', machine.run h Sample.brief = some h' ∧ h'.table = Sample.table (min (free + 1) 4) ∧
      h'.nextExchId = succExchId h.nextExchId := by
  obtain ⟨i, hi, s, -, -, -, hinitiate, hdrop⟩ := onSession_brief hfree h.nextExchId
  obtain ⟨x, hx⟩ := ExchangeId.exists_new (by decide : (0 : BitVec 32) ≤ 0x0fffffff#32)
    (by omega : i < 16)
  obtain ⟨h₁, b, hstep, htable₁, hnext₁, hhandles₁⟩ := initiate_eq (s := Sample.session free)
    (by rw [htable]; rfl) rfl (by rw [htable]; exact remoteHas_table free _)
    (by rw [htable]; exact hinitiate) hx
  have hdropped : h₁.drop 0 1 = some { h₁.install (Sample.table (min (free + 1) 4)) with
      handles := h.handles } := by
    simp only [drop, hhandles₁, List.getElem?_cons_zero, List.eraseIdx_cons_zero]
    rw [ExchangeId.sessionId_new hx, ExchangeId.exchangeIndex_new hx, htable₁, hdrop]
    rfl
  refine ⟨{ h₁.install (Sample.table (min (free + 1) 4)) with handles := h.handles }, ?_, rfl,
    hnext₁⟩
  exact Machine.run_cons_eq_some.mpr ⟨h₁, hstep, Machine.run_cons_eq_some.mpr ⟨_, hdropped, rfl⟩⟩

theorem run_briefs (n : ℕ) {free : ℕ} (hfree : free ≤ 4) (htable : h.table = Sample.table free) :
    ∃ h' free', machine.run h (Sample.briefs n) = some h' ∧ free' ≤ 4 ∧
      h'.table = Sample.table free' ∧ h'.nextExchId = succExchId^[n] h.nextExchId := by
  induction n generalizing h free with
  | zero => exact ⟨h, free, rfl, hfree, htable, rfl⟩
  | succ n ih =>
    obtain ⟨h₁, hrun₁, htable₁, hnext₁⟩ := run_brief hfree htable
    obtain ⟨h', free', hrun', hfree', htable', hnext'⟩ := ih (Nat.min_le_right _ _) htable₁
    refine ⟨h', free', ?_, hfree', htable', ?_⟩
    · rw [Sample.briefs, Machine.run_append, hrun₁]
      exact hrun'
    · rw [hnext', hnext₁, Function.iterate_succ_apply]

end Hub

end RsMatter
