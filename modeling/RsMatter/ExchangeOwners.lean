import RsMatter.Exchanges

/-!
# Who owns an exchange

A handle is good as long as the slot it refers to holds the exchange it was made for. Slots are
filled, freed and filled again, but never under a live handle: dropping the handle is the only
step that lets go of the exchange of it.

All of that rests on the internal ids of sessions. They have 28 bits and start over, and nothing
looks whether a session, or a handle of a session that is gone, still has the next one. After
that a slot can have two owners.
-/

namespace RsMatter

theorem Role.not_isOwned_of_isDroppedState {r : Role} (h : r.isDroppedState = true) :
    ¬ r.isOwned = true := by
  cases r with
  | initiator state => cases state <;> simp_all [isDroppedState, isOwned]
  | responder state => cases state <;> simp_all [isDroppedState, isOwned]

namespace Hub

@[simp] theorem table_takeExchId (h : Hub) : h.takeExchId.table = h.table := by
  rw [takeExchId]
  split <;> rfl

/-- The slot of a handle holds the exchange that the handle was made for, in the hands of its
owner, wherever the session of the handle is still there. -/
def Owns (h : Hub) (g : Handle) : Prop :=
  ∀ s ∈ h.table.sessions, s.id = g.id.sessionId →
    ∃ e, s.exch g.id.exchangeIndex = some e ∧ e.role.isOwned = true ∧
      h.births s.id g.id.exchangeIndex = g.birth

structure Inv (h : Hub) : Prop where
  /-- the internal ids of the sessions are different -/
  ids : (h.table.sessions.map (·.id)).Nodup
  next : h.table.nextSessUniqueId ≤ 0x0fffffff#32
  /-- and so have the others, and there are few slots -/
  range : ∀ s ∈ h.table.sessions, s.id ≤ 0x0fffffff#32 ∧ s.exchanges.length ≤ maxExchanges
  distinct : (h.handles.map (·.id)).Nodup
  owned : ∀ g ∈ h.handles, h.Owns g

/-- Is the internal id of the session that a step sets up, if it sets up one, an unused one: is
there no session and no live handle with it? -/
def Fresh (h : Hub) : Action → Prop
  | .table a => h.table.setsUp a = true →
      (∀ s ∈ h.table.sessions, s.id ≠ h.table.newId) ∧
      ∀ g ∈ h.handles, g.id.sessionId ≠ h.table.newId
  | _ => True

variable {h : Hub}

theorem inv_new : new.Inv where
  ids := List.nodup_nil
  next := by decide
  range _ hs := nomatch hs
  distinct := List.nodup_nil
  owned _ hg := nomatch hg

variable {table : KeyedSessions} {id : BitVec 32}

theorem births_install {i : ℕ}
    (hfilled : ∀ s ∈ h.table.sessions, s.id = id → ∃ e, s.exch i = some e)
    (hthere : ∃ s ∈ h.table.sessions, s.id = id) : (h.install table).births id i = h.births id i := by
  have hsome : (h.table.slot id i).isNone = false := by
    obtain ⟨s, hs, hid⟩ := hthere
    cases hget : h.table.get id with
    | none =>
      have hno := List.find?_eq_none.mp hget s hs
      rw [hid, beq_self_eq_true] at hno
      exact absurd rfl hno
    | some t =>
      have hmem := List.mem_of_find?_eq_some hget
      have htid := List.find?_some hget
      obtain ⟨e, he⟩ := hfilled t hmem (beq_iff_eq.mp htid)
      rw [KeyedSessions.slot, hget, Option.bind_some, he]
      rfl
  rw [install]
  dsimp only
  rw [hsome, Bool.false_and, if_neg Bool.false_ne_true]

/-- In another table, what some handles refer to goes on. -/
structure Carries (h : Hub) (handles : List Handle) (table : KeyedSessions) : Prop where
  ids : (table.sessions.map (·.id)).Nodup
  next : table.nextSessUniqueId ≤ 0x0fffffff#32
  /-- and so have the others, and there are few slots -/
  range : ∀ s ∈ table.sessions, s.id ≤ 0x0fffffff#32 ∧ s.exchanges.length ≤ maxExchanges
  /-- sessions of the handles were there, and what their owners hold they still do -/
  slots : ∀ g ∈ handles, ∀ s' ∈ table.sessions, s'.id = g.id.sessionId →
    ∃ s ∈ h.table.sessions, s.id = g.id.sessionId ∧
      ∀ e, s.exch g.id.exchangeIndex = some e → e.role.isOwned = true →
        ∃ e', s'.exch g.id.exchangeIndex = some e' ∧ e'.role.isOwned = true

theorem Carries.of_subperm {handles : List Handle} {table table' : KeyedSessions}
    (hc : h.Carries handles table) (hsub : table'.sessions.Subperm table.sessions)
    (hnext : table'.nextSessUniqueId = table.nextSessUniqueId) : h.Carries handles table' where
  ids := by
    obtain ⟨l, hperm, hl⟩ := map_subperm (fun s : KeyedSession => s.id) hsub
    exact hperm.nodup_iff.mp (hl.nodup hc.ids)
  next := hnext ▸ hc.next
  range s hs := hc.range s (hsub.subset hs)
  slots g hg s hs := hc.slots g hg s (hsub.subset hs)

/-- **Another table** is fine if what the handles refer to goes on there. -/
theorem Inv.install (hinv : h.Inv) {handles : List Handle}
    (hsub : handles.Sublist h.handles) (hc : h.Carries handles table) :
    Inv { h.install table with handles } where
  ids := hc.ids
  next := hc.next
  range := hc.range
  distinct := (hsub.map _).nodup hinv.distinct
  owned g hg s' hs' hid' := by
    obtain ⟨s, hs, hid, hslot⟩ := hc.slots g hg s' hs' hid'
    have howns := hinv.owned g (hsub.subset hg)
    obtain ⟨e, he, hrole, hbirth⟩ := howns s hs hid
    obtain ⟨e', he', hrole'⟩ := hslot e he hrole
    refine ⟨e', he', hrole', ?_⟩
    have hfilled : ∀ t ∈ h.table.sessions, t.id = s'.id →
        ∃ e, t.exch g.id.exchangeIndex = some e := by
      intro t ht htid
      obtain ⟨e, he, -⟩ := howns t ht (htid.trans hid')
      exact ⟨e, he⟩
    have hsame : (h.install table).births s'.id g.id.exchangeIndex =
        h.births s'.id g.id.exchangeIndex :=
      births_install hfilled ⟨s, hs, hid.trans hid'.symm⟩
    rw [← hbirth, hid, ← hid']
    exact hsame

theorem Inv.of_evolves (hinv : h.Inv) {new : Option (BitVec 32)}
    (hev : h.table.Evolves new table)
    (hfresh : ∀ id, new = some id → id ≤ 0x0fffffff#32 ∧
      (∀ s ∈ h.table.sessions, s.id ≠ id) ∧ ∀ g ∈ h.handles, g.id.sessionId ≠ id) :
    (h.install table).Inv := by
  refine hinv.install (List.Sublist.refl _) ⟨?_, hev.next hinv.next, ?_, ?_⟩
  · have hnodup : (h.table.sessions.map (·.id) ++ new.toList).Nodup := by
      cases new with
      | none => simpa using hinv.ids
      | some id =>
        refine List.Nodup.append hinv.ids (List.nodup_singleton id) ?_
        rw [Option.toList_some, List.disjoint_singleton, List.mem_map]
        rintro ⟨s, hs, hid⟩
        exact (hfresh id rfl).2.1 s hs hid
    obtain ⟨l, hperm, hsub⟩ := hev.ids
    exact hperm.nodup_iff.mp (hsub.nodup hnodup)
  · intro s' hs'
    rcases hev.origin s' hs' with ⟨s, hs, hears⟩ | ⟨hnew, blank, hblank, hears⟩
    · obtain ⟨hid, hlen⟩ := hinv.range s hs
      exact ⟨hears.id ▸ hid, hears.room hlen⟩
    · exact ⟨(hfresh s'.id hnew).1, hears.room (by rw [hblank]; exact Nat.zero_le _)⟩
  · intro g hg s' hs' hid'
    rcases hev.origin s' hs' with ⟨s, hs, hears⟩ | ⟨hnew, -⟩
    · refine ⟨s, hs, hears.id.symm.trans hid', fun e he hrole => ?_⟩
      obtain ⟨e', he', hc⟩ := hears.continues he
      exact ⟨e', he', by rw [hc.role, hrole]⟩
    · exact absurd hid'.symm ((hfresh s'.id hnew).2.2 g hg)

variable {a c : List KeyedSession}

theorem Inv.carries_of_middle (hinv : h.Inv) (handles : List Handle)
    {s s' : KeyedSession} (hold : h.table.sessions = a ++ s :: c)
    (hnew : table.sessions = a ++ s' :: c) (hnext : table.nextSessUniqueId = h.table.nextSessUniqueId)
    (hid : s'.id = s.id)
    (hroom : s.exchanges.length ≤ maxExchanges → s'.exchanges.length ≤ maxExchanges)
    (hslots : ∀ g ∈ handles, g.id.sessionId = s.id → ∀ e, s.exch g.id.exchangeIndex = some e →
      e.role.isOwned = true → ∃ e', s'.exch g.id.exchangeIndex = some e' ∧ e'.role.isOwned = true) :
    h.Carries handles table := by
  have hs : s ∈ h.table.sessions := by
    rw [hold]
    simp
  -- the other sessions are the same
  have hmem : ∀ t ∈ table.sessions, t = s' ∨ t ∈ h.table.sessions := by
    intro t ht
    rw [hnew] at ht
    rw [hold]
    rcases List.mem_append.mp ht with ht | ht
    · exact .inr (List.mem_append_left _ ht)
    · rcases List.mem_cons.mp ht with rfl | ht
      · exact .inl rfl
      · exact .inr (List.mem_append_right _ (List.mem_cons_of_mem _ ht))
  refine ⟨?_, hnext ▸ hinv.next, ?_, ?_⟩
  · have hids : table.sessions.map (·.id) = h.table.sessions.map (·.id) := by
      rw [hold, hnew, List.map_append, List.map_append, List.map_cons, List.map_cons, hid]
    rw [hids]
    exact hinv.ids
  · intro t ht
    rcases hmem t ht with rfl | ht
    · exact ⟨hid ▸ (hinv.range s hs).1, hroom (hinv.range s hs).2⟩
    · exact hinv.range t ht
  · intro g hg t ht htid
    rcases hmem t ht with rfl | ht
    · exact ⟨s, hs, hid.symm.trans htid, hslots g hg (htid.symm.trans hid)⟩
    · exact ⟨t, ht, htid, fun e he hrole => ⟨e, he, hrole⟩⟩

/-- A slot that no handle refers to, or that goes on, is put something into. -/
theorem Inv.carries_of_puts (hinv : h.Inv) (handles : List Handle)
    {s : KeyedSession} {s' : Session} {now i : ℕ}
    {o : Option ExchangeState} (hold : h.table.sessions = a ++ s :: c)
    (hnew : table.sessions = a ++ { s.updateLastUsed now with toSession := s' } :: c)
    (hnext : table.nextSessUniqueId = h.table.nextSessUniqueId)
    (hputs : s.Puts i o s')
    (hslot : ∀ g ∈ handles, g.id.sessionId = s.id → g.id.exchangeIndex = i →
      ∀ e, s.exch i = some e → e.role.isOwned = true → ∃ e', o = some e' ∧ e'.role.isOwned = true) :
    h.Carries handles table := by
  refine hinv.carries_of_middle handles hold hnew hnext hputs.id hputs.room ?_
  intro g hg hid e he hrole
  show ∃ e', s'.exch g.id.exchangeIndex = some e' ∧ _
  rw [hputs.exch]
  by_cases hi : g.id.exchangeIndex = i
  · rw [hi] at he
    rw [hi, Function.update_self]
    exact hslot g hg hid hi e he hrole
  · rw [Function.update_of_ne hi]
    exact ⟨e, he, hrole⟩

theorem Inv.of_touch (hinv : h.Inv)
    {s : KeyedSession} {now : ℕ} (hold : h.table.sessions = a ++ s :: c)
    (hnew : table.sessions = a ++ s.updateLastUsed now :: c)
    (hnext : table.nextSessUniqueId = h.table.nextSessUniqueId) : (h.install table).Inv :=
  hinv.install (List.Sublist.refl _) (hinv.carries_of_middle h.handles hold hnew hnext rfl
    (fun hlen => hlen) fun _ _ _ e he hrole => ⟨e, he, hrole⟩)

/-- **Somebody gets a handle** of a slot that is in nobody's hands: it is a new one. -/
theorem Inv.grant (hinv : h.Inv) {i : ℕ} {e : ExchangeState} {s : KeyedSession}
    (hs : s ∈ h.table.sessions) (hid : s.id = id) (he : s.exch i = some e)
    (hrole : e.role.isOwned = true)
    (hfree : ∀ g ∈ h.handles, g.id.sessionId = id → g.id.exchangeIndex ≠ i) :
    ∃ h', h.grant id i = some h' ∧ h'.Inv := by
  obtain ⟨hle, hlen⟩ := hinv.range s hs
  have hi : i < 16 := by
    have hlt := Session.lt_length_of_exch he
    rw [maxExchanges] at hlen
    omega
  obtain ⟨x, hx⟩ := ExchangeId.exists_new (hid ▸ hle) hi
  refine ⟨{ h with handles := ⟨x, h.births id i⟩ :: h.handles }, by rw [Hub.grant, hx],
    hinv.ids, hinv.next, hinv.range, ?_, ?_⟩
  · rw [List.map_cons, List.nodup_cons]
    refine ⟨?_, hinv.distinct⟩
    rw [List.mem_map]
    rintro ⟨g, hg, hgx⟩
    refine hfree g hg ?_ ?_
    · rw [hgx, ExchangeId.sessionId_new hx]
    · rw [hgx, ExchangeId.exchangeIndex_new hx]
  · intro g hg
    rcases List.mem_cons.mp hg with rfl | hg
    · intro t ht htid
      rw [ExchangeId.sessionId_new hx] at htid
      have hts : t = s := List.inj_on_of_nodup_map hinv.ids ht hs (htid.trans hid.symm)
      subst hts
      rw [ExchangeId.exchangeIndex_new hx]
      exact ⟨e, he, hrole, by rw [hid]⟩
    · exact hinv.owned g hg

/-! ## Step by step -/

section Steps

variable (hinv : h.Inv)

include hinv

theorem Inv.onTable {a : KeyedSessions.Action} (hfresh : h.Fresh (.table a)) : (h.onTable a).Inv := by
  rw [Hub.onTable]
  by_cases htable : a.isTable = true
  · rw [if_pos htable]
    have hev : h.table.Evolves (h.table.freshId a) ((h.table.step a).getD h.table) := by
      cases hstep : h.table.step a with
      | none => exact .of_subperm (List.Subperm.refl _) fun hle => hle
      | some table => exact KeyedSessions.evolves_step htable hstep
    have hinstall : (h.install ((h.table.step a).getD h.table)).Inv := by
      refine hinv.of_evolves hev fun id hid => ?_
      rw [KeyedSessions.freshId] at hid
      split at hid
      · next hsets =>
        cases hid
        refine ⟨?_, (hfresh hsets).1, (hfresh hsets).2⟩
        rw [KeyedSessions.newId]
        split
        · exact hinv.next
        · exact KeyedSessions.succId_le _
      · cases hid
    dsimp only
    split
    · exact ⟨hinstall.ids, hinstall.next, hinstall.range, hinstall.distinct, hinstall.owned⟩
    · exact hinstall
  · rw [if_neg htable]
    exact hinv

/-- A slot that is in nobody's hands is filled, and somebody gets the handle. -/
theorem Inv.fill {table : KeyedSessions} {a c : List KeyedSession} {s : KeyedSession}
    {s' : Session} {now i : ℕ} {e : ExchangeState} (hold : h.table.sessions = a ++ s :: c)
    (hnew : table.sessions = a ++ { s.updateLastUsed now with toSession := s' } :: c)
    (hnext : table.nextSessUniqueId = h.table.nextSessUniqueId)
    (hputs : s.Puts i (some e) s') (hrole : e.role.isOwned = true)
    (hfree : ∀ e, s.exch i = some e → e.role.isOwned = false) :
    ∃ h', (h.install table).grant s.id i = some h' ∧ h'.Inv := by
  have hs : s ∈ h.table.sessions := by
    rw [hold]
    simp
  have hnobody : ∀ g ∈ h.handles, g.id.sessionId = s.id → g.id.exchangeIndex ≠ i := by
    rintro g hg hid rfl
    obtain ⟨e, he, howned, -⟩ := hinv.owned g hg s hs hid.symm
    rw [hfree e he] at howned
    cases howned
  have hinv' := hinv.install (List.Sublist.refl _) (hinv.carries_of_puts h.handles hold hnew hnext
    hputs fun g hg hid hi => absurd hi (hnobody g hg hid))
  refine hinv'.grant (s := { s.updateLastUsed now with toSession := s' }) ?_ hputs.id ?_ hrole
    hnobody
  · show _ ∈ table.sessions
    rw [hnew]
    simp
  · show s'.exch i = some e
    rw [hputs.exch, Function.update_self]

theorem Inv.accept (peer : Address) (rx : PacketHdr) (now : ℕ) :
    ∃ h', h.accept peer rx now = some h' ∧ h'.Inv := by
  rw [Hub.accept]
  cases hrx : h.table.onRx peer rx.plain now (KeyedSession.accept rx.proto) with
  | none => exact ⟨h, rfl, hinv⟩
  | some r =>
    obtain ⟨table, granted⟩ := r
    obtain ⟨a, s, c, hold, hnew, rfl, hnext⟩ := KeyedSessions.onRx_eq_some hrx
    rcases (s.updateLastUsed now).accept_cases rx.proto with hcase | ⟨i, e, he, hrole, hcase⟩
    · rw [hcase] at hnew ⊢
      exact ⟨_, rfl, hinv.of_touch hold hnew hnext⟩
    · rw [hcase] at hnew ⊢
      have hputs := Session.puts_setExch he (some { e with role := .responder .owned })
      refine hinv.fill (s := s) hold hnew hnext hputs rfl fun e' he' => ?_
      have heq : e' = e := Option.some_inj.mp (he'.symm.trans he)
      rw [heq, hrole]
      rfl

theorem Inv.setNextExchId (id : BitVec 16) : Inv { h with nextExchId := id } :=
  ⟨hinv.ids, hinv.next, hinv.range, hinv.distinct, hinv.owned⟩

theorem Inv.takeExchId : h.takeExchId.Inv := by
  rw [Hub.takeExchId]
  split
  · exact hinv.setNextExchId _
  · exact hinv

theorem Inv.touch (sessionId : BitVec 32) (now : ℕ) : (h.touch sessionId now).Inv := by
  rw [Hub.touch]
  split
  · next table hon =>
    obtain ⟨a, s, c, hold, -, hnew, -, hnext⟩ := KeyedSessions.onSession_eq_some hon
    exact hinv.of_touch hold hnew hnext
  · exact hinv

theorem Inv.initiate (sessionId : BitVec 32) (now : ℕ) :
    ∃ h', h.initiate sessionId now = some h' ∧ h'.Inv := by
  rw [Hub.initiate]
  split
  · exact ⟨h, rfl, hinv⟩
  · split
    · exact ⟨_, rfl, hinv.touch sessionId now⟩
    · split
      · exact ⟨h, rfl, hinv⟩
      · next exchId nextExchId _ =>
        have hinv' := hinv.setNextExchId nextExchId
        dsimp only
        cases hon : h.table.onSession sessionId now (KeyedSession.initiate exchId) with
        | none => exact ⟨_, rfl, hinv'⟩
        | some r =>
          obtain ⟨table, granted⟩ := r
          obtain ⟨a, s, c, hold, hget, hnew, rfl, hnext⟩ := KeyedSessions.onSession_eq_some hon
          rcases (s.updateLastUsed now).initiate_cases exchId with hcase | ⟨i, session, hadd, hcase⟩
          · rw [hcase] at hnew ⊢
            exact ⟨_, rfl, hinv'.of_touch hold hnew hnext⟩
          · rw [hcase] at hnew ⊢
            obtain rfl := KeyedSessions.id_of_get hget
            refine hinv'.fill hold hnew hnext (Session.puts_addExch hadd) rfl fun e he => ?_
            have hnone : s.exch i = none := (Session.exch_of_addExch hadd).1
            rw [hnone] at he
            cases he

/-- The owner of an exchange does something that the exchange goes on after. -/
theorem Inv.of_onSession {g : Handle} (hg : g ∈ h.handles) {now : ℕ} {table : KeyedSessions}
    {β : Type} {f : KeyedSession → KeyedSession × β} {b : β}
    (hon : h.table.onSession g.id.sessionId now f = some (table, b)) :
    ∃ a s c e, h.table.sessions = a ++ s :: c ∧ s.id = g.id.sessionId ∧
      table.sessions = a ++ (f (s.updateLastUsed now)).1 :: c ∧ b = (f (s.updateLastUsed now)).2 ∧
      table.nextSessUniqueId = h.table.nextSessUniqueId ∧
      s.exch g.id.exchangeIndex = some e ∧ e.role.isOwned = true := by
  obtain ⟨a, s, c, hold, hget, hnew, hb, hnext⟩ := KeyedSessions.onSession_eq_some hon
  have hid := KeyedSessions.id_of_get hget
  obtain ⟨e, he, hrole, -⟩ := hinv.owned g hg s (by rw [hold]; simp) hid
  exact ⟨a, s, c, e, hold, hid, hnew, hb, hnext, he, hrole⟩

theorem Inv.send (handle : ℕ) (mm : MessageMeta) (payload : List UInt8) (sai : Option (BitVec 32))
    (now : ℕ) : ∃ h', h.send handle mm payload sai now = some h' ∧ h'.Inv := by
  rw [Hub.send]
  cases hhandle : h.handles[handle]? with
  | none => exact ⟨h, rfl, hinv⟩
  | some g =>
    have hg := List.mem_of_getElem? hhandle
    dsimp only
    cases hon : h.table.onSession g.id.sessionId now
        (KeyedSession.send g.id.exchangeIndex mm payload sai) with
    | none => exact ⟨h, rfl, hinv⟩
    | some r =>
      obtain ⟨table, b⟩ := r
      obtain ⟨a, s, c, e, hold, -, hnew, rfl, hnext, he, -⟩ := hinv.of_onSession hg hon
      rcases (s.updateLastUsed now).send_cases g.id.exchangeIndex mm payload sai with hcase |
        ⟨hnone, -⟩ | ⟨e₀, e', session, he₀, hc, hputs, hcase⟩
      · rw [hcase] at hnew ⊢
        exact ⟨_, rfl, hinv.of_touch hold hnew hnext⟩
      · cases hnone.symm.trans he
      · rw [hcase] at hnew ⊢
        refine ⟨_, rfl, hinv.install (List.Sublist.refl _)
          (hinv.carries_of_puts h.handles hold hnew hnext hputs ?_)⟩
        intro _ _ _ _ e₁ he₁ hrole
        have heq : e₁ = e₀ := Option.some_inj.mp (he₁.symm.trans he₀)
        exact ⟨e', rfl, by rw [hc.role, ← heq, hrole]⟩

theorem Inv.look (handle now : ℕ) : ∃ h', h.look handle now = some h' ∧ h'.Inv := by
  rw [Hub.look]
  cases hhandle : h.handles[handle]? with
  | none => exact ⟨h, rfl, hinv⟩
  | some g =>
    have hg := List.mem_of_getElem? hhandle
    dsimp only
    cases hon : h.table.onSession g.id.sessionId now
        (fun s => (s, (s.exch g.id.exchangeIndex).isSome)) with
    | none => exact ⟨h, rfl, hinv⟩
    | some r =>
      obtain ⟨table, b⟩ := r
      obtain ⟨a, s, c, e, hold, -, hnew, rfl, hnext, he, -⟩ := hinv.of_onSession hg hon
      have hsome : ((s.updateLastUsed now).exch g.id.exchangeIndex).isSome = true := by
        show (s.exch g.id.exchangeIndex).isSome = true
        rw [he]
        rfl
      simp only [hsome]
      exact ⟨_, rfl, hinv.of_touch hold hnew hnext⟩

theorem Inv.of_remove (id : BitVec 32) : (h.install (h.table.remove id)).Inv := by
  have hsub := KeyedSessions.remove_subperm id h.table
  have hev : h.table.Evolves none (h.table.remove id) :=
    .of_subperm hsub fun hle => (KeyedSessions.nextSessUniqueId_remove id h.table).symm ▸ hle
  exact hinv.of_evolves hev fun _ hnone => nomatch hnone

theorem Inv.ne_of_mem_eraseIdx {handle : ℕ} {g g' : Handle}
    (hhandle : h.handles[handle]? = some g) (hg' : g' ∈ h.handles.eraseIdx handle)
    (hid : g'.id.sessionId = g.id.sessionId) : g'.id.exchangeIndex ≠ g.id.exchangeIndex := by
  intro hi
  obtain ⟨j, hj, hgj⟩ := List.mem_eraseIdx_iff_getElem?.mp hg'
  have hlt : j < (h.handles.map (·.id)).length := by
    rw [List.length_map]
    exact (List.getElem?_eq_some_iff.mp hgj).1
  refine hj ((List.getElem?_inj hlt hinv.distinct).mp ?_)
  rw [List.getElem?_map, List.getElem?_map, hgj, hhandle, Option.map_some, Option.map_some,
    ExchangeId.eq_of_parts hid hi]

theorem Inv.drop (handle now : ℕ) : ∃ h', h.drop handle now = some h' ∧ h'.Inv := by
  rw [Hub.drop]
  cases hhandle : h.handles[handle]? with
  | none => exact ⟨h, rfl, hinv⟩
  | some g =>
    have hg := List.mem_of_getElem? hhandle
    have hsub : (h.handles.eraseIdx handle).Sublist h.handles := List.eraseIdx_sublist ..
    dsimp only
    cases hon : h.table.onSession g.id.sessionId now (KeyedSession.drop g.id.exchangeIndex) with
    | none =>
      exact ⟨_, rfl, hinv.ids, hinv.next, hinv.range, (hsub.map _).nodup hinv.distinct,
        fun g' hg' => hinv.owned g' (hsub.subset hg')⟩
    | some r =>
      obtain ⟨table, b⟩ := r
      obtain ⟨a, s, c, e, hold, hid, hnew, rfl, hnext, he, -⟩ := hinv.of_onSession hg hon
      rcases (s.updateLastUsed now).drop_cases g.id.exchangeIndex with ⟨hnone, -⟩ |
        ⟨e₀, o, session, ended, -, hputs, -, hcase⟩
      · cases hnone.symm.trans he
      · rw [hcase] at hnew ⊢
        have hcarries := hinv.carries_of_puts (h.handles.eraseIdx handle) hold hnew hnext hputs
          fun g' hg' hid' hi => absurd hi (hinv.ne_of_mem_eraseIdx hhandle hg' (hid'.trans hid))
        refine ⟨_, rfl, hinv.install hsub ?_⟩
        cases ended with
        | false => exact hcarries
        | true =>
          exact hcarries.of_subperm (KeyedSessions.remove_subperm g.id.sessionId table)
            (KeyedSessions.nextSessUniqueId_remove g.id.sessionId table)

theorem Inv.acceptTimeout (peer : Address) (rx : PacketHdr) (now : ℕ) :
    (h.acceptTimeout peer rx now).Inv := by
  rw [Hub.acceptTimeout]
  split
  · exact hinv
  · next table hrx =>
    obtain ⟨a, s, c, hold, hnew, -, hnext⟩ := KeyedSessions.onRx_eq_some hrx
    rcases (s.updateLastUsed now).acceptTimeout_cases rx.proto now with hcase |
      ⟨i, e, he, hrole, hcase⟩
    · rw [hcase] at hnew
      exact hinv.of_touch hold hnew hnext
    · rw [hcase] at hnew
      refine hinv.install (List.Sublist.refl _) (hinv.carries_of_puts h.handles (s := s) hold hnew
        hnext (Session.puts_setExch he _) ?_)
      intro _ _ _ _ e' he' howned
      have heq : e' = e := Option.some_inj.mp (he'.symm.trans he)
      rw [heq, hrole] at howned
      cases howned

theorem Inv.closeDropped (proto : ProtoHdr) (sai : Option (BitVec 32)) (now : ℕ) :
    ∃ h', h.closeDropped proto sai now = some h' ∧ h'.Inv := by
  rw [Hub.closeDropped]
  split
  · next id _ _ =>
    have hremove := hinv.takeExchId.of_remove id
    rw [table_takeExchId] at hremove
    exact ⟨_, rfl, hremove⟩
  · split
    · exact ⟨h, rfl, hinv⟩
    · next id i hfound =>
      obtain ⟨t, ht, htid, e, he, hdropped⟩ := KeyedSessions.exch_of_getExch hfound
      cases hon : h.table.onSession id now (KeyedSession.closeDropped i proto sai) with
      | none => exact ⟨h, rfl, hinv⟩
      | some r =>
        obtain ⟨table, b⟩ := r
        obtain ⟨a, s, c, hold, hget, hnew, rfl, hnext⟩ := KeyedSessions.onSession_eq_some hon
        have hid := KeyedSessions.id_of_get hget
        have hs : s ∈ h.table.sessions := by
          rw [hold]
          simp
        have hts : t = s := List.inj_on_of_nodup_map hinv.ids ht hs (htid.trans hid.symm)
        subst hts
        rcases (t.updateLastUsed now).closeDropped_cases i proto sai with ⟨hnone, -⟩ |
          ⟨e₀, session, -, hputs, hcase⟩
        · cases hnone.symm.trans he
        · rw [hcase] at hnew ⊢
          refine ⟨_, rfl, hinv.install (List.Sublist.refl _)
            (hinv.carries_of_puts h.handles hold hnew hnext hputs ?_)⟩
          intro _ _ _ _ e' he' howned
          have heq : e' = e := Option.some_inj.mp (he'.symm.trans he)
          rw [heq] at howned
          exact absurd howned (Role.not_isOwned_of_isDroppedState (Bool.and_eq_true_iff.mp hdropped).1)

end Steps

/-- **One step** that sets up no session under a used id goes through, and leaves everybody what
they own. -/
theorem Inv.step (hinv : h.Inv) {a : Action} (hfresh : h.Fresh a) :
    ∃ h', h.step a = some h' ∧ h'.Inv := by
  cases a with
  | table a => exact ⟨_, rfl, hinv.onTable hfresh⟩
  | accept peer rx now => exact hinv.accept peer rx now
  | initiate sessionId now => exact hinv.initiate sessionId now
  | takeExchId => exact ⟨_, rfl, hinv.takeExchId⟩
  | send handle mm payload sai now => exact hinv.send handle mm payload sai now
  | look handle now => exact hinv.look handle now
  | drop handle now => exact hinv.drop handle now
  | acceptTimeout peer rx now => exact ⟨_, rfl, hinv.acceptTimeout peer rx now⟩
  | closeDropped proto sai now => exact hinv.closeDropped proto sai now

theorem Inv.run (hinv : h.Inv) {as : List Action} (hfresh : machine.Meets Fresh h as) :
    ∃ h', machine.run h as = some h' ∧ h'.Inv := by
  induction as generalizing h with
  | nil => exact ⟨h, rfl, hinv⟩
  | cons a as ih =>
    obtain ⟨h₁, hstep, hinv₁⟩ := hinv.step hfresh.1
    obtain ⟨h', hrun, hinv'⟩ := ih hinv₁ (hfresh.2 h₁ hstep)
    exact ⟨h', Machine.run_cons_eq_some.mpr ⟨h₁, hstep, hrun⟩, hinv'⟩

/-- **Exchanges have one owner.** In every run in which no session is set up under an internal id
that a session or a live handle has, no step fails; the live handles refer to different slots;
the slot of each, if its session is there, holds the exchange that was made for the handle, in
the hands of its owner; and the slot of every packet holds an exchange. -/
theorem owns_of_fresh {as : List Action} (hfresh : machine.Meets Fresh new as) :
    ∃ h, machine.run new as = some h ∧ (h.handles.map (·.id)).Nodup ∧
      (∀ g ∈ h.handles, h.Owns g) ∧
      ∀ s ∈ h.table.sessions, ∀ rxProto i, s.getExchForRx rxProto = some i →
        (s.exch i).isSome = true := by
  obtain ⟨h, hrun, hinv⟩ := inv_new.run hfresh
  refine ⟨h, hrun, hinv.distinct, hinv.owned, fun s _ rxProto i hi => ?_⟩
  obtain ⟨e, he, -⟩ := Session.exch_of_getExchForRx hi
  rw [he]
  rfl

/-! ## After all internal ids have been used -/

open KeyedSessions (succId)

namespace Sample

/-- Somebody opens a session and initiates an exchange on it. -/
def opening : List Action :=
  [.table (.createUnsecured 1 KeyedSessions.Sample.peer 1 1), .initiate 0 1]

def failure (id : BitVec 32) : List Action := [.table (.reserveNow 1 1), .table (.remove id)]

/-- A number of handshakes in a row, from an internal id on. -/
def failures : ℕ → BitVec 32 → List Action
  | 0, _ => []
  | n + 1, id => failure id ++ failures n (succId id)

/-- The session is removed while its exchange has an owner. -/
def orphaned : List Action := opening ++ [.table (.remove 0)]

def orphanedHub : Hub := (machine.run new orphaned).getD new

/-- What is left when all other internal ids have been used up. -/
def lateHub : Hub :=
  { orphanedHub with table := ⟨0, [], .new⟩, clock := orphanedHub.clock + 2 * (2 ^ 28 - 1) }

/-- All other internal ids are used up, and another exchange is initiated. -/
def wrapped : List Action := orphaned ++ failures (2 ^ 28 - 1) 1 ++ opening

end Sample

theorem install_of_no_exchanges (hnone : ∀ s ∈ table.sessions, s.exchanges = []) :
    h.install table = { h with table, clock := h.clock + 1 } := by
  have hslot : ∀ id i, table.slot id i = none := by
    intro id i
    rw [KeyedSessions.slot]
    cases hget : table.get id with
    | none => rfl
    | some s =>
      rw [Option.bind_some, Session.exch, hnone s (List.mem_of_find?_eq_some hget)]
      rfl
  rw [install]
  congr 1
  funext id i
  rw [hslot, Option.isSome_none, Bool.and_false, if_neg Bool.false_ne_true]

theorem run_failure (h : Hub) (id : BitVec 32) :
    machine.run { h with table := ⟨id, [], .new⟩ } (Sample.failure id) =
      some { h with table := ⟨succId id, [], .new⟩, clock := h.clock + 2 } := by
  have hreserve : Hub.step { h with table := ⟨id, [], .new⟩ } (.table (.reserveNow 1 1)) =
      some (Hub.install { h with table := ⟨id, [], .new⟩ }
        ⟨succId id, [.new id 1 true (.udp ⟨.v4 0, 0⟩) none 1], .new⟩) := rfl
  have hremove : ∀ clock, Hub.step { h with
        table := ⟨succId id, [.new id 1 true (.udp ⟨.v4 0, 0⟩) none 1], .new⟩
        clock } (.table (.remove id)) =
      some (Hub.install { h with
        table := ⟨succId id, [.new id 1 true (.udp ⟨.v4 0, 0⟩) none 1], .new⟩
        clock } ⟨succId id, [], .new⟩) := by
    intro clock
    have hgone : KeyedSessions.remove id
        ⟨succId id, [.new id 1 true (.udp ⟨.v4 0, 0⟩) none 1], .new⟩ = ⟨succId id, [], .new⟩ := by
      simp [KeyedSessions.remove, KeyedSession.new, Session.new, swapRemove]
    simp only [Hub.step, Hub.onTable, KeyedSessions.Action.isTable, KeyedSessions.step,
      Option.getD_some, hgone, if_true]
  rw [install_of_no_exchanges (by simp [KeyedSession.new, Session.new])] at hreserve
  rw [Sample.failure, Machine.run_cons_eq_some]
  refine ⟨_, hreserve, Machine.run_cons_eq_some.mpr ⟨_, hremove _, ?_⟩⟩
  rw [install_of_no_exchanges (by simp)]
  rfl

theorem run_failures (h : Hub) (n : ℕ) (id : BitVec 32) :
    machine.run { h with table := ⟨id, [], .new⟩ } (Sample.failures n id) =
      some { h with table := ⟨succId^[n] id, [], .new⟩, clock := h.clock + 2 * n } := by
  induction n generalizing h id with
  | zero => rfl
  | succ n ih =>
    have hrest := ih { h with clock := h.clock + 2 } (succId id)
    rw [Sample.failures, Machine.run_append, run_failure, Option.bind_some]
    refine hrest.trans ?_
    rw [Function.iterate_succ_apply, Nat.mul_succ, Nat.add_assoc, Nat.add_comm 2]

theorem toNat_succId (hlt : id.toNat + 1 < 2 ^ 28) :
    (succId id).toNat = id.toNat + 1 := by
  have hadd : (id + 1).toNat = id.toNat + 1 := by
    rw [BitVec.toNat_add]
    exact Nat.mod_eq_of_lt (by simp; omega)
  have hle : ¬ 0x0fffffff#32 < id + 1 := by
    rw [BitVec.lt_def, hadd]
    simp
    omega
  rw [succId, if_neg hle, hadd]

theorem toNat_succId_iterate {n : ℕ} (hlt : id.toNat + n < 2 ^ 28) :
    (succId^[n] id).toNat = id.toNat + n := by
  induction n with
  | zero => rfl
  | succ n ih =>
    have hn := ih (by omega)
    rw [Function.iterate_succ_apply', toNat_succId (by omega), hn]
    rfl

theorem succId_wraps {n : ℕ} (hid : id.toNat < 2 ^ 28) (hn : id.toNat + n = 2 ^ 28) :
    succId^[n] id = 0 := by
  obtain ⟨m, rfl⟩ : ∃ m, n = m + 1 := ⟨n - 1, by omega⟩
  have hlast : succId^[m] id = 0x0fffffff#32 := by
    apply BitVec.eq_of_toNat_eq
    rw [toNat_succId_iterate (by omega)]
    simp only [BitVec.toNat_ofNat]
    omega
  rw [Function.iterate_succ_apply', hlast]
  decide

/-- **A slot with two owners.** After all internal ids have been used, a second exchange gets the
handle that the owner of an exchange on a session that is gone still has. When that owner drops
it, the other one loses the exchange, and fails at the next use. -/
theorem two_owners : ∃ h, machine.run new Sample.wrapped = some h ∧
    ¬ (h.handles.map (·.id)).Nodup ∧
    machine.run h [.drop 1 2, .send 0 .standaloneAck [] none 3] = none := by
  have horphaned : machine.run new Sample.orphaned =
      some { Sample.orphanedHub with table := ⟨1, [], .new⟩ } := rfl
  have hfailures := run_failures Sample.orphanedHub (2 ^ 28 - 1) 1
  rw [succId_wraps (by decide) (by decide)] at hfailures
  have hrun : machine.run new Sample.wrapped = machine.run Sample.lateHub Sample.opening := by
    rw [Sample.wrapped, Machine.run_append, Machine.run_append, horphaned, Option.bind_some,
      hfailures, Option.bind_some]
    rfl
  have hsame : ((machine.run Sample.lateHub Sample.opening).map fun h => h.handles.map (·.id)) =
      some [⟨0⟩, ⟨0⟩] := by
    decide +kernel
  have hfails : (machine.run Sample.lateHub (Sample.opening ++
      [.drop 1 2, .send 0 .standaloneAck [] none 3])).isNone = true := by
    decide +kernel
  obtain ⟨h, hh, hids⟩ := Option.map_eq_some_iff.mp hsame
  refine ⟨h, hrun.trans hh, ?_, ?_⟩
  · rw [hids]
    decide
  · rw [Option.isNone_iff_eq_none, Machine.run_append, hh, Option.bind_some] at hfails
    exact hfails

/-- One exchange after the other on a session, and none of them has two owners. -/
theorem owns_opening : ∃ h, machine.run new Sample.opening = some h ∧
    (h.handles.map (·.id)).Nodup ∧ (∀ g ∈ h.handles, h.Owns g) ∧ h.handles ≠ [] := by
  have hfresh : machine.Meets Fresh new Sample.opening := by
    refine ⟨fun _ => ⟨?_, ?_⟩, fun h₁ hstep => ⟨trivial, fun _ _ => trivial⟩⟩
    · exact fun s hs => nomatch hs
    · exact fun g hg => nomatch hg
  obtain ⟨h, hrun, hnodup, howns, -⟩ := owns_of_fresh hfresh
  refine ⟨h, hrun, hnodup, howns, ?_⟩
  have hlen : ((machine.run new Sample.opening).map fun h => h.handles.isEmpty) = some false := by
    decide +kernel
  rw [hrun, Option.map_some, Option.some_inj, List.isEmpty_eq_false_iff] at hlen
  exact hlen

end Hub

end RsMatter
