import RsMatter.WirelessStore

/-!
# Wireless networks over a run (`dm/networks/wireless.rs`, `dm/networks/wireless/mgr.rs`)

A list that was stored is loaded as it was, the manager comes to every network of it in turn,
and neither the manager nor `ConnectNetwork` fails over a sound list. The run theorem puts this
together: it needs that no dataset with a long id gets into the list.
-/

namespace RsMatter

open Prog

namespace Wireless

open Stop Panicking Wireless.Networks

section Lists

variable {T : Type} {N : ℕ} {kind : Kind T}

/-! ## Storing and loading -/

theorem initFromTlv_treeOf {α : Type} {c : Codec α} (hc : c.WellFormed) {v : α} (hv : Faithful c v)
    {tag : TLVTag} {t : TLVTree LeafCall} (ht : treeOf c v tag = some t) (rest : List UInt8) :
    initFromTlv c (t.bytes ++ rest) = .ok v := by
  have hread : fromTlv c (t.bytes ++ rest) = .ok v := (fromTlv_treeOf c hc v tag t ht rest).mpr hv
  have hno : NoPanic (fromTlv c (t.bytes ++ rest)) := by
    rw [hread]
    exact noPanic_ok v
  exact ((follows_initFromTlv c _ hno).eq_ok_iff v).mp hread

def Kind.trees (kind : Kind T) (networks : List T) : Option (List (TLVTree LeafCall)) :=
  (networks.map kind.fields).mapM fun fields => treeOf kind.codec fields .anonymous

theorem Kind.trees_cons {network : T} {networks : List T} {trees : List (TLVTree LeafCall)} :
    kind.trees (network :: networks) = some trees ↔
      ∃ t ts, treeOf kind.codec (kind.fields network) .anonymous = some t ∧
        kind.trees networks = some ts ∧ trees = t :: ts := by
  rw [Kind.trees, List.map_cons, List.mapM_cons, Option.bind_eq_bind, Option.bind_eq_some_iff]
  refine exists_congr fun t => ?_
  rw [Option.bind_eq_bind]
  simp only [Option.bind_eq_some_iff, Option.pure_def, Option.some.injEq]
  constructor
  · rintro ⟨ht, ts, hts, htrees⟩
    exact ⟨ts, ht, hts, htrees.symm⟩
  · rintro ⟨ts, ht, hts, htrees⟩
    exact ⟨ht, ts, hts, htrees.symm⟩

theorem Kind.exists_trees (hkind : kind.Lawful) (networks : List T) :
    ∃ ts, kind.trees networks = some ts := by
  induction networks with
  | nil => exact ⟨[], rfl⟩
  | cons network networks ih =>
    obtain ⟨t, ht⟩ := hkind.written (kind.fields network) .anonymous
    obtain ⟨ts, hts⟩ := ih
    exact ⟨t :: ts, Kind.trees_cons.mpr ⟨t, ts, ht, hts, rfl⟩⟩

/-- The tree of a list of networks and the flag. -/
def storedTree (ts : List (TLVTree LeafCall)) (commissioned : Bool) : TLVTree LeafCall :=
  .node .anonymous .struct
    [.node (.context 0) .array ts, .leaf (.context 1) (.bool commissioned)]

/-- **Storing** writes the tree. -/
theorem emits_store {s : Networks T N} {ts : List (TLVTree LeafCall)}
    (hts : kind.trees s.networks.1 = some ts) :
    Emits (store kind s) (some (storedTree ts s.commissioned).bytes) := by
  have hvec := emits_toTlv (.vec kind.codec N)
    ⟨s.networks.1.map kind.fields, by rw [List.length_map]; exact s.networks.2⟩ (.context 0)
  have hbool := emits_toTlv .bool s.commissioned (.context 1)
  have htree : treeOf (.vec kind.codec N)
      ⟨s.networks.1.map kind.fields, by rw [List.length_map]; exact s.networks.2⟩ (.context 0) =
      some (.node (.context 0) .array ts) := by
    rw [treeOf]
    exact congrArg (Option.map _) hts
  rw [htree] at hvec
  rw [treeOf] at hbool
  have hall := (Emits.append (elemBytes .anonymous ContainerType.struct.value)).bind
    (hvec.bind (hbool.bind (Emits.append (elemBytes .anonymous .endCnt))))
  have hbytes : (storedTree ts s.commissioned).bytes =
      elemBytes .anonymous ContainerType.struct.value ++
        ((TLVTree.node (.context 0) .array ts).bytes ++
          ((TLVTree.leaf (.context 1) (.bool s.commissioned)).bytes ++
            elemBytes .anonymous .endCnt)) := by
    simp [storedTree, TLVTree.bytes, bytesMembers]
  rw [hbytes]
  exact hall

/-- The loop of `load` reads the networks back. -/
theorem run_loadItems (hkind : kind.Lawful) {networks : List T} {ts : List (TLVTree LeafCall)}
    (hts : kind.trees networks = some ts) {fuel : ℕ} (hfuel : ts.length < fuel) (rest : List UInt8)
    {s s' : Networks T N} (hs' : s'.networks.1 = s.networks.1 ++ networks)
    (hflag : s'.commissioned = s.commissioned) :
    (loadItems kind fuel (bytesMembers ts ++ (elemBytes .anonymous .endCnt ++ rest))).run s =
      (s', .ok ()) := by
  induction networks generalizing ts fuel s with
  | nil =>
    obtain rfl := Option.some.inj hts
    obtain ⟨fuel, rfl⟩ := Nat.exists_eq_add_of_le' (Nat.one_le_of_lt hfuel)
    have hsame : s' = s := by
      obtain ⟨networks', commissioned'⟩ := s'
      obtain ⟨networks, commissioned⟩ := s
      obtain rfl : commissioned' = commissioned := hflag
      rw [List.append_nil] at hs'
      exact congrArg (Networks.mk · _) (Subtype.ext hs')
    change (loadItems kind (fuel + 1) (elemBytes .anonymous .endCnt ++ rest)).run s = _
    rw [hsame, loadItems, iterNext_eq, TLVSequence.iterNext_end]
    rfl
  | cons network networks ih =>
    obtain ⟨t, ts, ht, hrest, rfl⟩ := Kind.trees_cons.mp hts
    obtain ⟨fuel, rfl⟩ := Nat.exists_eq_add_of_le' (Nat.one_le_of_lt hfuel)
    rw [List.length_cons] at hfuel
    have hroom : s.networks.1.length < N := by
      have hlen := s'.networks.2
      rw [hs', List.length_append, List.length_cons] at hlen
      omega
    have hread := initFromTlv_treeOf hkind.wellFormed (hkind.faithful _) ht
      (bytesMembers ts ++ (elemBytes .anonymous .endCnt ++ rest))
    have hpush : s.networks.push (kind.ofFields (kind.fields network)) .resourceExhausted =
        .ok ⟨s.networks.1 ++ [kind.ofFields (kind.fields network)], by
          rw [List.length_append, List.length_singleton]; exact hroom⟩ := dif_pos hroom
    rw [bytesMembers, List.append_assoc, loadItems, iterNext_eq, TLVSequence.iterNext_tree, lift_ok,
      run_bind_of_ok (run_ofExcept ..)]
    change (Prog.get >>= _ : Prog _ _ Unit).run s = _
    rw [run_bind_of_ok (run_get s), if_pos hroom, hread,
      run_bind_of_ok (run_ofExcept ..), hpush, run_bind_of_ok (run_ofExcept ..),
      run_bind_of_ok (run_modify ..)]
    refine ih hrest (by omega) ?_ hflag
    rw [hs', hkind.ofFields_fields, List.append_assoc, List.singleton_append]

theorem membersOf_node (tag : TLVTag) (kind : ContainerType) (members : List (TLVTree LeafCall))
    (code : ErrorCode) (rest : List UInt8) :
    Panicking.membersOf kind.value.valueType code ((TLVTree.node tag kind members).bytes ++ rest) =
      .ok (bytesMembers members ++ (elemBytes .anonymous .endCnt ++ rest)) := by
  rw [membersOf_eq, TLVElement.membersOf_node, lift_ok]

theorem ctx_members {t : TLVTree LeafCall} {tag : BitVec 8} (rest : List UInt8)
    (before after : List (TLVTree LeafCall)) (hbefore : ∀ u ∈ before, u.tag.ctx? ≠ some tag)
    (heq : t.tag.ctx? = some tag) :
    ctx tag (bytesMembers (before ++ t :: after) ++ rest) =
      .ok (t.bytes ++ (bytesMembers after ++ rest)) := by
  rw [ctx, findCtx_eq, TLVSequence.findCtx_members rest before after hbefore heq, lift_ok, ok_bind,
    TLVSequence.isEmpty_tree]
  rfl

/-- What `load` reads of the tree. -/
theorem read_storedTree (ts : List (TLVTree LeafCall)) (commissioned : Bool) :
    ∃ members networks flag rest,
      Panicking.structure (storedTree ts commissioned).bytes = .ok members ∧
      ctx 0 members = .ok networks ∧
      Panicking.array networks = .ok (bytesMembers ts ++ (elemBytes .anonymous .endCnt ++ rest)) ∧
      ctx 1 members = .ok flag ∧ Panicking.bool flag = .ok commissioned := by
  have hroot := membersOf_node .anonymous .struct [.node (.context 0) .array ts,
    .leaf (.context 1) (.bool commissioned)] .tlvTypeMismatch []
  rw [List.append_nil] at hroot
  have hnetworks := ctx_members (elemBytes .anonymous .endCnt ++ []) []
    [.leaf (.context 1) (.bool commissioned)] (List.forall_mem_nil _)
    (t := .node (.context 0) .array ts) rfl
  have hflag := ctx_members (elemBytes .anonymous .endCnt ++ []) [.node (.context 0) .array ts] []
    (by simp [TLVTree.tag, TLVTag.ctx?]) (t := .leaf (.context 1) (.bool commissioned)) rfl
  exact ⟨_, _, _, _, hroot, hnetworks, membersOf_node .., hflag, bool_elem ..⟩

/-- **A stored list is loaded** as it was, whatever was in memory. -/
theorem run_loadPersist_store (hkind : kind.Lawful) {s : Networks T N} {room : ℕ} {wb : WriteBuf}
    (h : (store kind s).run ⟨[], room⟩ = (wb, .ok ())) (s₀ : Networks T N) :
    (loadPersist kind (some wb.data)).run s₀ = (s, .ok ()) := by
  obtain ⟨ts, hts⟩ := Kind.exists_trees hkind s.networks.1
  obtain ⟨bytes, hbytes, _, rfl⟩ := ((emits_store hts).ok ⟨[], room⟩ wb).mp h
  obtain rfl := Option.some.inj hbytes
  obtain ⟨members, networks, flag, rest, hroot, hnetworks, harray, hflag, hbool⟩ :=
    read_storedTree ts s.commissioned
  have hfuel := length_le_bytesMembers ts
  have hitems : (loadItems kind ((bytesMembers ts ++
      (elemBytes .anonymous .endCnt ++ rest)).length + 1)
      (bytesMembers ts ++ (elemBytes .anonymous .endCnt ++ rest))).run new =
      ((⟨s.networks, false⟩ : Networks T N), .ok ()) :=
    run_loadItems hkind hts (by rw [List.length_append]; omega) rest (List.nil_append _).symm rfl
  change (load kind (storedTree ts s.commissioned).bytes).run (new : Networks T N) = _
  rw [load, run_bind_of_ok (run_modify ..), hroot, attempt,
    run_bind_of_ok (run_ofExcept ..)]
  change (Prog.ofExcept (ctx 0 members) >>= _ : Prog _ _ Unit).run (new : Networks T N) = _
  rw [hnetworks, run_bind_of_ok (run_ofExcept ..), harray,
    run_bind_of_ok (run_ofExcept ..), run_bind_of_ok hitems, hflag,
    run_bind_of_ok (run_ofExcept ..), hbool, run_bind_of_ok (run_ofExcept ..)]
  rfl

/-! ## Going round the list -/

variable {s : Networks T N}

theorem skipPast_append {before after : List T} {network : T}
    (h : Sound kind (before ++ network :: after)) :
    skipPast kind (kind.idOf network) (before ++ network :: after) = .ok after := by
  induction before with
  | nil =>
    rw [List.nil_append, skipPast, h.extract network (by simp), ok_bind, if_pos rfl]
    rfl
  | cons first before ih =>
    have hne : kind.idOf first ≠ kind.idOf network := by
      have hdistinct := h.distinct
      rw [List.cons_append, List.map_cons, List.nodup_cons] at hdistinct
      intro heq
      exact hdistinct.1 (heq ▸ List.mem_map_of_mem (by simp))
    rw [List.cons_append, skipPast, h.extract first (by simp), ok_bind, if_neg hne]
    exact ih (h.sublist (List.sublist_cons_self ..))

theorem nextCreds_of_fits (hkind : kind.Lawful) {last : Option (List UInt8)} {next : Option T}
    (h : nextNetwork kind last s = .ok next) :
    WirelessMgr.nextCreds kind s last = .ok (next.map kind.creds) := by
  rw [WirelessMgr.nextCreds, h, ok_bind]
  cases next with
  | none => rfl
  | some network =>
    have hfits := hkind.fits_creds network
    simp only [Option.map_some]
    cases hcreds : kind.creds network with
    | wifi ssid pass | thread datasetTlv =>
      rw [hcreds] at hfits
      simp only
      rw [if_neg (Nat.not_lt.mpr hfits)]
      rfl

theorem exists_nextNetwork (hs : Sound kind s.networks.1) (last : Option (List UInt8)) :
    ∃ next, nextNetwork kind last s = .ok next ∧ ∀ network ∈ next, network ∈ s.networks.1 := by
  have hfirst : ∀ network ∈ s.networks.1.head?, network ∈ s.networks.1 :=
    fun network h => List.mem_of_head? h
  cases last with
  | none => exact ⟨_, rfl, hfirst⟩
  | some last =>
    have hskip : ∃ after, skipPast kind last s.networks.1 = .ok after ∧
        after.Sublist s.networks.1 := by
      generalize s.networks.1 = networks at hs
      induction networks with
      | nil => exact ⟨[], rfl, List.Sublist.refl _⟩
      | cons network networks ih =>
        rw [skipPast, hs.extract network List.mem_cons_self, ok_bind]
        split
        · exact ⟨networks, rfl, List.sublist_cons_self ..⟩
        · obtain ⟨after, hafter, hsub⟩ := ih (hs.sublist (List.sublist_cons_self ..))
          exact ⟨after, hafter, hsub.trans (List.sublist_cons_self ..)⟩
    obtain ⟨after, hafter, hsub⟩ := hskip
    rw [nextNetwork, hafter, ok_bind]
    cases after with
    | nil => exact ⟨_, rfl, hfirst⟩
    | cons network after =>
      refine ⟨some network, rfl, fun network' h => ?_⟩
      obtain rfl := Option.mem_some_iff.mp h
      exact hsub.subset List.mem_cons_self

theorem visits_behind (hkind : kind.Lawful) {after before : List T} {network : T}
    (hs : Sound kind s.networks.1) (h : s.networks.1 = before ++ network :: after) :
    WirelessMgr.visits kind s after.length (some (kind.idOf network)) =
      .ok (after.map kind.creds) := by
  induction after generalizing before network with
  | nil => rfl
  | cons next after ih =>
    have hskip : skipPast kind (kind.idOf network) s.networks.1 = .ok (next :: after) := by
      rw [h]
      exact skipPast_append (h ▸ hs)
    have hnext : nextNetwork kind (some (kind.idOf network)) s = .ok (some next) := by
      rw [nextNetwork, hskip, ok_bind]
      rfl
    have hid : (kind.creds next).id = .ok (kind.idOf next) :=
      hkind.id_creds (hs.extract next (by rw [h]; simp))
    rw [List.length_cons, WirelessMgr.visits, nextCreds_of_fits hkind hnext, ok_bind]
    change (lift (kind.creds next).id >>= _) = _
    have hbehind : s.networks.1 = (before ++ [network]) ++ next :: after := by
      rw [h]
      simp
    rw [hid, lift_ok, ok_bind, ih hbehind, ok_bind]
    rfl

/-- **Every network gets its turn**, once and in order. -/
theorem visits_length (hkind : kind.Lawful) (hs : Sound kind s.networks.1) :
    WirelessMgr.visits kind s s.networks.1.length none = .ok (s.networks.1.map kind.creds) := by
  cases h : s.networks.1 with
  | nil => rfl
  | cons network after =>
    have hnext : nextNetwork kind none s = .ok (some network) := by
      rw [nextNetwork, h]
      rfl
    have hid : (kind.creds network).id = .ok (kind.idOf network) :=
      hkind.id_creds (hs.extract network (by rw [h]; simp))
    rw [List.length_cons, WirelessMgr.visits, nextCreds_of_fits hkind hnext, ok_bind]
    change (lift (kind.creds network).id >>= _) = _
    have hbehind : s.networks.1 = [] ++ network :: after := h
    rw [hid, lift_ok, ok_bind, visits_behind hkind hs hbehind, ok_bind]
    rfl

/-! ## Connecting -/

/-- The credentials have an id, which is not too long. -/
def WirelessCreds.Identified (creds : WirelessCreds) : Prop :=
  ∃ id, creds.id = .ok id ∧ id.length ≤ 32

theorem identified_creds (hkind : kind.Lawful) (hs : Sound kind s.networks.1) {network : T}
    (h : network ∈ s.networks.1) : (kind.creds network).Identified :=
  ⟨_, hkind.id_creds (hs.extract network h), hs.short network h⟩

/-- **An attempt** is remembered, and its result is handed on. -/
theorem run_connect {creds : WirelessCreds} (h : creds.Identified)
    (result : Except NetCtlError Unit) (state : NetCtlState) :
    ∃ state', (NetCtlState.connect creds result).run state = (state', .ok result) := by
  obtain ⟨id, hid, hshort⟩ := h
  have hextend := new_extendUnwrap (n := 32) hshort
  rw [NetCtlState.connect, hid]
  simp only
  rw [NetCtlState.update, run_bind_of_ok (run_modify ..)]
  have hcopy : (Prog.whenSome (some id) fun networkId => do
      let s ← Prog.get
      let networkId ← Prog.ofExcept (s.networkId.extendUnwrap networkId)
      Prog.modify fun s => { s with networkId } :
      Prog (Stop ErrorCode) NetCtlState Unit).run { state with networkId := .new } =
      ({ state with networkId := ⟨id, hshort⟩ }, .ok ()) := by
    rw [Prog.whenSome, run_bind_of_ok (run_get _), hextend,
      run_bind_of_ok (run_ofExcept ..)]
    rfl
  rw [run_bind_of_ok hcopy]
  exact ⟨_, rfl⟩

variable (ctl : ℕ → Except NetCtlError Unit)

theorem run_attempt {creds : WirelessCreds} (h : creds.Identified) (mgr : WirelessMgr) :
    ∃ mgr' result, (WirelessMgr.attempt ctl creds).run mgr = (mgr', .ok result) := by
  obtain ⟨state', hrun⟩ := run_connect h (ctl mgr.attempts) mgr.state
  rw [WirelessMgr.attempt, run_bind_of_ok (run_get mgr),
    run_bind_of_ok (run_modify ..)]
  exact ⟨⟨state', mgr.attempts + 1⟩, _, run_zoom (fun mgr state => { mgr with state })
    { mgr with attempts := mgr.attempts + 1 } hrun⟩

theorem run_connectMgr {creds : WirelessCreds} (h : creds.Identified) (n : ℕ) (mgr : WirelessMgr) :
    ∃ mgr' connected, (WirelessMgr.connect ctl creds n).run mgr = (mgr', .ok connected) := by
  induction n generalizing mgr with
  | zero => exact ⟨mgr, false, rfl⟩
  | succ n ih =>
    obtain ⟨mgr', result, hrun⟩ := run_attempt ctl h mgr
    rw [WirelessMgr.connect, run_bind_of_ok hrun]
    cases result with
    | ok _ => exact ⟨mgr', true, rfl⟩
    | error e => exact ih mgr'

/-- **The manager runs on** without an error, over sound lists. -/
theorem run_runConnect (hkind : kind.Lawful) (lists : ℕ → Networks T N)
    (hlists : ∀ n, Sound kind (lists n).networks.1) (rounds : ℕ) (current : Option WirelessCreds)
    (hcurrent : ∀ creds ∈ current, creds.Identified) (networkId : HVec UInt8 32)
    (mgr : WirelessMgr) :
    ∃ mgr', (WirelessMgr.runConnect kind ctl lists rounds current networkId).run mgr =
      (mgr', .ok ()) := by
  induction rounds generalizing current networkId mgr with
  | zero => exact ⟨mgr, rfl⟩
  | succ rounds ih =>
    cases current with
    | none =>
      obtain ⟨next, hnext, hmem⟩ := exists_nextNetwork (hlists rounds)
        (if networkId.1.isEmpty then none else some networkId.1)
      rw [WirelessMgr.runConnect, nextCreds_of_fits hkind hnext,
        run_bind_of_ok (run_ofExcept ..)]
      cases next with
      | none => exact ⟨mgr, rfl⟩
      | some network =>
        have hcreds := identified_creds hkind (hlists rounds) (hmem network rfl)
        obtain ⟨id, hid, hshort⟩ := id hcreds
        change ∃ mgr', (Prog.ofExcept (lift (kind.creds network).id) >>= _ :
          Prog _ _ Unit).run mgr = _
        rw [hid, lift_ok, run_bind_of_ok (run_ofExcept ..), new_extendFromSlice,
          dif_pos hshort, run_bind_of_ok (run_ofExcept ..)]
        refine ih _ (fun creds h => ?_) _ mgr
        obtain rfl := Option.mem_some_iff.mp h
        exact hcreds
    | some creds =>
      obtain ⟨mgr', connected, hrun⟩ := run_connectMgr ctl (hcurrent creds rfl) 3 mgr
      rw [WirelessMgr.runConnect, run_bind_of_ok hrun]
      refine ih _ (fun creds' h => ?_) networkId mgr'
      cases connected with
      | false => cases h
      | true => exact hcurrent creds' h

theorem exists_other_of_mapCtlStatus {result : Except NetCtlError Unit}
    (h : NetworkingStatus.mapCtlStatus result = none) : ∃ e, result = .error (.other e) := by
  cases result with
  | ok _ => cases h
  | error e =>
    cases e with
    | other e => exact ⟨e, rfl⟩
    | _ => cases h

/-- The credentials that are copied are those of a network of the list. -/
theorem copyCreds_cases (hs : Sound kind s.networks.1) (netType : NetworkType) (space : ℕ)
    (networkId : List UInt8) :
    (∃ network ∈ s.networks.1, copyCreds kind netType space networkId s =
      .ok (kind.creds network)) ∨
    ∃ e, copyCreds kind netType space networkId s = .error (.error e) := by
  rw [copyCreds]
  obtain ⟨i, network, hfind, hi, _⟩ | ⟨hfind, _⟩ := find_cases hs networkId
  · rw [hfind, other, ok_bind]
    simp only
    split
    · next datasetTlv hcreds =>
      split
      · exact .inr ⟨_, rfl⟩
      · exact .inl ⟨network, List.mem_of_getElem? hi, congrArg Except.ok hcreds.symm⟩
    · next ssid pass hcreds =>
      split
      · exact .inr ⟨_, rfl⟩
      · split
        · exact .inr ⟨_, rfl⟩
        · exact .inl ⟨network, List.mem_of_getElem? hi, congrArg Except.ok hcreds.symm⟩
    · exact .inr ⟨_, rfl⟩
  · rw [hfind, other, ok_bind]
    exact .inr ⟨_, rfl⟩

/-- **`ConnectNetwork`** does not panic over a sound list. -/
theorem handleConnectNetwork_ne_panic (hkind : kind.Lawful) (hs : Sound kind s.networks.1)
    (netType : NetworkType) (armed : Except ErrorCode Unit) (space : ℕ) (networkId : List UInt8)
    (result : Except NetCtlError Unit) (state : NetCtlState) :
    NoPanic ((handleConnectNetwork kind netType armed space s networkId result).run state).2 := by
  rw [handleConnectNetwork]
  by_cases hlen : networkId.length ≤ 32
  case neg =>
    rw [run_bind_of_error (run_ensure_of_neg hlen _ _)]
    exact noPanic_error _
  rw [run_bind_of_ok (run_ensure_of_pos hlen _ _)]
  by_cases hnet : netType ≠ .ethernet
  case neg =>
    rw [run_bind_of_error (run_ensure_of_neg hnet _ _)]
    exact noPanic_error _
  rw [run_bind_of_ok (run_ensure_of_pos hnet _ _)]
  cases armed with
  | error e =>
    exact noPanic_error _
  | ok u =>
    rw [lift_ok, other, ok_bind]
    obtain ⟨network, hmem, hcopy⟩ | ⟨e, hcopy⟩ := copyCreds_cases hs netType space networkId
    · rw [hcopy, NetworkingStatus.map, run_bind_of_ok (run_ofExcept ..)]
      obtain ⟨state', hrun⟩ := run_connect (identified_creds hkind hs hmem) result state
      simp only
      rw [run_bind_of_ok hrun]
      cases hstatus : NetworkingStatus.mapCtlStatus result with
      | some status => exact noPanic_ok status
      | none =>
        obtain ⟨e, rfl⟩ := exists_other_of_mapCtlStatus hstatus
        exact noPanic_error e
    · rw [hcopy]
      cases e with
      | other e => exact noPanic_error e
      | _ => exact noPanic_ok _

end Lists

/-! ## The store over a run -/

namespace Store

variable {t : WirelessType} {N : ℕ}

/-- The list in memory is sound, and so is the one that the blob was stored from. -/
structure Kept (t : WirelessType) (s : Store t.Network N) : Prop where
  mem : Wireless.Sound t.kind s.mem.networks.1
  blob (data : List UInt8) (h : s.blob = some data) : ∃ saved : Networks t.Network N, ∃ room wb,
    Wireless.Sound t.kind saved.networks.1 ∧
    (Networks.store t.kind saved).run ⟨[], room⟩ = (wb, .ok ()) ∧ wb.data = data

/-- The call does not bring a dataset whose id is too long into the list. -/
def Short (t : WirelessType) (s : Store t.Network N) : Action → Prop
  | .addOrUpdate (.thread datasetTlv) => t = .thread → datasetTlv.length ≤ 256 →
    s.mem.networks.1.length < N → ∀ id, ThreadTLV.extPanId datasetTlv = .ok id → id.length ≤ 32
  | _ => True

theorem length_id_le {s : Store t.Network N} {creds : WirelessCreds}
    (h : Short t s (.addOrUpdate creds)) (hroom : s.mem.networks.1.length < N)
    (network : t.Network) (id : List UInt8) (hnew : t.kind.initFrom creds = .ok network)
    (hid : creds.id = .ok id) : id.length ≤ 32 := by
  cases t with
  | wifi =>
    cases creds with
    | thread datasetTlv => cases hnew
    | wifi ssid pass =>
      obtain rfl := Except.ok.inj hid
      change Wifi.initFrom (.wifi ssid pass) = _ at hnew
      rw [Wifi.initFrom, new_extendFromSlice] at hnew
      by_contra hlong
      rw [dif_neg hlong] at hnew
      cases hnew
  | thread =>
    cases creds with
    | wifi ssid pass => cases hnew
    | thread datasetTlv =>
      refine h rfl ?_ hroom id hid
      change Thread.initFrom (.thread datasetTlv) = _ at hnew
      rw [Thread.initFrom, new_extendFromSlice] at hnew
      by_contra hlong
      rw [dif_neg hlong] at hnew
      cases hnew

theorem kept_new : Kept t (new : Store t.Network N) :=
  ⟨.nil, fun _ h => nomatch h⟩

theorem call_ends {α : Type} {s : Store t.Network N}
    {m : Prog (Stop NetworksError) (Networks t.Network N) α} {Q : Networks t.Network N → α → Prop}
    (h : Ends m s.mem Q) :
    s.call m = (s, .failed) ∨ ∃ mem a, s.call m = ({ s with mem }, .done) ∧ Q mem a := by
  obtain ⟨e, hrun⟩ | ⟨mem, a, hrun, hq⟩ := h
  · refine .inl ?_
    rw [call, hrun]
    rfl
  · refine .inr ⟨mem, a, ?_, hq⟩
    rw [call, hrun]
    rfl

/-- What an action does to the list when it is done. -/
def Effect (t : WirelessType) (s : Store t.Network N) : Action → Store t.Network N → Prop
  | .remove networkId, s' => ∃ i network, s.mem.networks.1[i]? = some network ∧
    t.kind.idOf network = networkId ∧ s'.mem.networks.1 = s.mem.networks.1.eraseIdx i
  | .reorder index networkId, s' =>
    Moved t.kind s.mem.networks.1 s'.mem.networks.1 networkId index.toNat
  | .store _, s' => s'.mem = s.mem ∧
    ∀ other : Store t.Network N, other.blob = s'.blob →
      other.perform t.kind .load = ({ other with mem := s.mem }, .done)
  | _, _ => True

/-- **One call**: it fails and changes nothing, or it does what it should, and the store stays
as it has to be. -/
theorem perform_cases {s : Store t.Network N} (hs : Kept t s) {a : Action} (h : Short t s a) :
    s.perform t.kind a = (s, .failed) ∨
      ∃ s', s.perform t.kind a = (s', .done) ∧ Kept t s' ∧ Effect t s a s' := by
  have hkind := t.lawful
  cases a with
  | addOrUpdate creds =>
    obtain hfail | ⟨mem, _, hdone, hmem⟩ := call_ends (addOrUpdate_ends hkind hs.mem
      (length_id_le h))
    · exact .inl hfail
    · exact .inr ⟨_, hdone, ⟨hmem, hs.blob⟩, trivial⟩
  | remove networkId =>
    obtain hfail | ⟨mem, _, hdone, i, network, hi, hid, hmem⟩ := call_ends (remove_ends hs.mem
      networkId)
    · exact .inl hfail
    · refine .inr ⟨_, hdone, ⟨?_, hs.blob⟩, i, network, hi, hid, hmem⟩
      exact hs.mem.sublist (hmem ▸ List.eraseIdx_sublist ..)
  | reorder index networkId =>
    obtain hfail | ⟨mem, _, hdone, _, hmoved, hperm⟩ := call_ends (reorder_ends hs.mem index
      networkId)
    · exact .inl hfail
    · exact .inr ⟨_, hdone, ⟨hs.mem.perm hperm, hs.blob⟩, hmoved⟩
  | setCommissioned commissioned =>
    exact .inr ⟨_, rfl, ⟨hs.mem, hs.blob⟩, trivial⟩
  | store room =>
    cases hrun : (Networks.store t.kind s.mem).run ⟨[], room⟩ with
    | mk wb r =>
      cases r with
      | error e =>
        refine .inl ?_
        rw [perform, hrun]
      | ok _ =>
        refine .inr ⟨{ s with blob := some wb.data }, ?_, ⟨hs.mem, ?_⟩, rfl, ?_⟩
        · rw [perform, hrun]
        · intro data hdata
          obtain rfl := Option.some.inj hdata
          exact ⟨s.mem, room, wb, hs.mem, hrun, rfl⟩
        · intro other hother
          rw [perform, call, hother, run_loadPersist_store hkind hrun]
          rfl
  | load =>
    cases hblob : s.blob with
    | none =>
      refine .inr ⟨{ s with mem := Networks.new }, ?_, ⟨.nil, hs.blob⟩, trivial⟩
      rw [perform, call, hblob]
      rfl
    | some data =>
      obtain ⟨saved, room, wb, hsaved, hrun, rfl⟩ := hs.blob data hblob
      refine .inr ⟨{ s with mem := saved }, ?_, ⟨hsaved, hs.blob⟩, trivial⟩
      rw [perform, call, hblob, run_loadPersist_store hkind hrun]
      rfl
  | reset => exact .inr ⟨_, rfl, ⟨.nil, hs.blob⟩, trivial⟩
  | resetPersist => exact .inr ⟨_, rfl, ⟨.nil, fun _ h => nomatch h⟩, trivial⟩

/-- **Over a run** whose calls bring no long id into the list, the store stays as it has to be. -/
theorem kept_of_run {as : List Action} {s : Store t.Network N}
    (hok : (machine t.kind).Meets (Short t) (new : Store t.Network N) as)
    (hrun : (machine t.kind).run new as = some s) :
    Kept t s := by
  refine Machine.invariant_of_meets (I := Kept t) ?_ kept_new hok hrun
  intro s a s' hshort hs hstep
  obtain rfl := Option.some.inj hstep
  obtain hfail | ⟨s', hdone, hs', _⟩ := perform_cases hs hshort
  · rw [hfail]
    exact hs
  · rw [hdone]
    exact hs'

structure Correct (t : WirelessType) (s : Store t.Network N) : Prop where
  /-- the ids can be asked for, fit into 32 bytes and are distinct -/
  sound : Wireless.Sound t.kind s.mem.networks.1
  /-- there are at most `N` networks -/
  size : s.mem.networks.1.length ≤ N
  /-- the next call fails and changes nothing, or it does what it should -/
  calls (a : Action) (h : Short t s a) : s.perform t.kind a = (s, .failed) ∨
    ∃ s', s.perform t.kind a = (s', .done) ∧ Effect t s a s'
  /-- every network gets its turn, once and in order -/
  visits : WirelessMgr.visits t.kind s.mem s.mem.networks.1.length none =
    .ok (s.mem.networks.1.map t.kind.creds)
  /-- `ConnectNetwork` does not panic -/
  connect (netType : NetworkType) (armed : Except ErrorCode Unit) (space : ℕ)
    (networkId : List UInt8) (result : Except NetCtlError Unit) (state : NetCtlState) :
    NoPanic ((handleConnectNetwork t.kind netType armed space s.mem networkId result).run state).2

theorem Kept.correct {s : Store t.Network N} (hs : Kept t s) : Correct t s where
  sound := hs.mem
  size := s.mem.networks.2
  calls a h := by
    obtain hfail | ⟨s', hdone, _, heffect⟩ := perform_cases hs h
    · exact .inl hfail
    · exact .inr ⟨s', hdone, heffect⟩
  visits := visits_length t.lawful hs.mem
  connect := handleConnectNetwork_ne_panic t.lawful hs.mem

/-- The list was reached by calls that bring no long id into it. -/
def Reached (t : WirelessType) (mem : Networks t.Network N) : Prop :=
  ∃ as s, (machine t.kind).Meets (Short t) (new : Store t.Network N) as ∧
    (machine t.kind).run new as = some s ∧ s.mem = mem

/-- **The store of networks** is correct after every run that brings no long id into the
list, and the manager goes on without an error over all lists so reached. -/
theorem networks_correct (t : WirelessType) (N : ℕ) :
    (∀ as (s : Store t.Network N), (machine t.kind).Meets (Short t) (new : Store t.Network N) as →
      (machine t.kind).run new as = some s → Correct t s) ∧
    ∀ lists : ℕ → Networks t.Network N, (∀ n, Reached t (lists n)) →
      ∀ ctl rounds mgr, ∃ mgr',
        (WirelessMgr.runConnect t.kind ctl lists rounds none .new).run mgr = (mgr', .ok ()) := by
  refine ⟨fun as s hok hrun => (kept_of_run hok hrun).correct, ?_⟩
  intro lists hlists ctl rounds mgr
  refine run_runConnect ctl t.lawful lists (fun n => ?_) rounds none (fun _ h => nomatch h) .new mgr
  obtain ⟨as, s, hok, hrun, hmem⟩ := hlists n
  rw [← hmem]
  exact (kept_of_run hok hrun).mem

/-- A dataset whose only TLV is an extended PAN id of one byte. -/
def shortDataset (id : UInt8) : List UInt8 := [2, 1, id]

/-- Two networks are added, and the second is moved to the front. -/
def twoNetworks : List Action :=
  [.addOrUpdate (.thread (shortDataset 7)), .addOrUpdate (.thread (shortDataset 8)), .reorder 0 [8]]

theorem networks_correct_twoNetworks :
    ∃ s : Store (WirelessType.Network .thread) 2,
      (machine thread).run new twoNetworks = some s ∧ Correct .thread s ∧
      s.mem.networks.1.map thread.idOf = [[8], [7]] ∧
      ∃ mgr', (WirelessMgr.runConnect (WirelessType.kind .thread) (fun _ => .error .networkNotFound)
        (fun _ => s.mem) 9 none .new).run ⟨.new, 0⟩ = (mgr', .ok ()) := by
  have hshort : (machine thread).Meets (Short .thread) (new : Store (WirelessType.Network .thread) 2)
      twoNetworks := by
    have hid : ∀ n id, ThreadTLV.extPanId (shortDataset n) = .ok id → id.length ≤ 32 := by
      intro n id h
      obtain rfl : [n] = id := Except.ok.inj h
      simp
    refine ⟨fun _ _ _ => hid 7, fun _ _ => ⟨fun _ _ _ => hid 8, fun _ _ => ?_⟩⟩
    exact ⟨trivial, fun _ _ => trivial⟩
  refine ⟨_, rfl, (networks_correct .thread 2).1 twoNetworks _ hshort rfl, rfl, ?_⟩
  exact (networks_correct .thread 2).2 _ (fun _ => ⟨twoNetworks, _, hshort, rfl, rfl⟩) _ 9 ⟨.new, 0⟩

/-- A dataset whose only TLV is an extended PAN id of 33 bytes. -/
def longDataset : List UInt8 := 2 :: 33 :: List.replicate 33 0

/-- **A long id** gets into the list, and the manager fails over it. -/
theorem longDataset_ends_run :
    let s : Store Thread 1 :=
      ⟨⟨⟨[⟨⟨longDataset, by decide⟩⟩], by decide⟩, false⟩, none⟩
    (machine thread).run new [.addOrUpdate (.thread longDataset)] = some s ∧
    ¬Wireless.Sound thread s.mem.networks.1 ∧
    ((WirelessMgr.runConnect thread (fun _ => .error .networkNotFound) (fun _ => s.mem) 1 none
      .new).run ⟨.new, 0⟩).2 = .error (.error .invalidData) := by
  refine ⟨rfl, fun h => ?_, rfl⟩
  exact absurd (h.short _ List.mem_cons_self) (by decide +kernel)

end Store

end Wireless

end RsMatter
