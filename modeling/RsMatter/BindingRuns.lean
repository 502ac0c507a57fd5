import RsMatter.Bindings
import RsMatter.Expiry
import RsMatter.TlvCodecRoundTrip

/-!
# Bindings over a run (`dm/clusters/binding.rs`, `dm/clusters/noc.rs`)

A write of a fabric changes what this fabric has on that endpoint and nothing else, and what is
stored is what is in memory, as long as the new entries find room in the table and in the buffer
of the storage. Nobody removes the entries of a fabric that goes: they are gone with the fabric
only if there were none.
-/

namespace RsMatter

open Prog

open Stop Panicking

/-! ## What is stored -/

namespace Bindings

variable {N : ℕ}

theorem StoredBinding.wellFormed_codec : StoredBinding.codec.WellFormed := by
  simp only [StoredBinding.codec, Codec.WellFormed, Fields.WellFormed, Fields.tags, Codec.naked]
  simp [TagOrder]

theorem StoredBinding.faithful (stored : StoredBinding.Stored) : Faithful StoredBinding.codec stored := by
  obtain ⟨endpointId, fabIdx, node, group, endpoint, cluster, _⟩ := stored
  cases node <;> cases group <;> cases endpoint <;> cases cluster <;>
    simp [StoredBinding.codec, Faithful, FaithfulFields]

theorem ofStored_toStored (state : HVec StoredBinding N) : ofStored (toStored state) = state := by
  refine Subtype.ext ?_
  change (state.1.map StoredBinding.fields).map StoredBinding.ofFields = state.1
  rw [List.map_map]
  exact List.map_id _

/-- The buffer takes the encoding of the table. -/
def Fits (room : ℕ) (state : HVec StoredBinding N) : Prop :=
  room ≠ 0 ∧ ∃ wb, (toTlv (.vec StoredBinding.codec N) (toStored state) .anonymous).run ⟨[], room⟩ =
    (wb, .ok ())

def Saved (s : Bindings N) : Prop :=
  ∀ state, loadPersist.run { s with state } = (s, .ok ())

theorem saved_new : Saved (new : Bindings N) := fun _ => rfl

/-- **Storing** a table that fits. -/
theorem storePersist_of_fits {room : ℕ} {s : Bindings N} (h : Fits room s.state) :
    ∃ s', (storePersist room).run s = (s', .ok ()) ∧ s'.state = s.state ∧ Saved s' := by
  obtain ⟨hroom, wb, hrun⟩ := h
  obtain ⟨bytes, hbytes, _, rfl⟩ := ((emits_toTlv _ _ _).ok _ _).mp hrun
  obtain ⟨t, ht, rfl⟩ := Option.map_eq_some_iff.mp hbytes
  refine ⟨{ s with blob := some (WriteBuf.push ⟨[], room⟩ t.bytes).data }, ?_, rfl, fun state => ?_⟩
  · rw [storePersist, run_bind_of_ok (run_get s), if_neg hroom, hrun]
    rfl
  · have hread : fromTlv (.vec StoredBinding.codec N) t.bytes = .ok (toStored s.state) := by
      rw [← List.append_nil t.bytes]
      refine (fromTlv_treeOf _ ?_ _ _ t ht []).mpr ?_
      · rw [Codec.WellFormed]
        exact StoredBinding.wellFormed_codec
      · rw [Faithful]
        exact fun stored _ => StoredBinding.faithful stored
    change (loadPersist.run ⟨state, some t.bytes⟩) = (⟨s.state, some t.bytes⟩, .ok ())
    rw [loadPersist, run_bind_of_ok (run_get _)]
    simp only
    rw [hread, run_bind_of_ok (run_ofExcept ..), run_modify, ofStored_toStored]

theorem fits_of_treeOf {room : ℕ} {state : HVec StoredBinding N} {t : TLVTree LeafCall}
    (ht : treeOf (.vec StoredBinding.codec N) (toStored state) .anonymous = some t)
    (hroom : t.bytes.length ≤ room) : Fits room state := by
  have hpos := t.one_le_tokens.trans t.tokens_le
  have hrun := ((emits_toTlv (.vec StoredBinding.codec N) (toStored state) .anonymous).ok ⟨[], room⟩
    (WriteBuf.push ⟨[], room⟩ t.bytes)).mpr ⟨t.bytes, congrArg (Option.map _) ht, hroom, rfl⟩
  exact ⟨by omega, _, hrun⟩

/-! ## A write -/

variable (endpointId : EndptId) (fabIdx : {v : BitVec 8 // v ≠ 0})

theorem parseTarget_cases (t : TargetStruct) :
    (∃ sb, parseTarget endpointId fabIdx t = .ok sb ∧ sb.endpointId = endpointId ∧
      sb.fabIdx = fabIdx) ∨ ∃ e, parseTarget endpointId fabIdx t = .error (.error e) := by
  rw [parseTarget]
  cases t.node with
  | error e => exact .inr ⟨e, rfl⟩
  | ok node =>
    cases t.group with
    | error e => exact .inr ⟨e, rfl⟩
    | ok group =>
      cases t.endpoint with
      | error e => exact .inr ⟨e, rfl⟩
      | ok endpoint =>
        cases t.cluster with
        | error e => exact .inr ⟨e, rfl⟩
        | ok cluster =>
          simp only [lift_ok, ok_bind]
          split_ifs
          · exact .inr ⟨_, rfl⟩
          · exact .inr ⟨_, rfl⟩
          · exact .inr ⟨_, rfl⟩
          · exact .inl ⟨_, rfl, rfl, rfl⟩

/-- The targets become entries of the writer, or the list is refused. -/
theorem parseTargets_cases (list : List (Except ErrorCode TargetStruct)) (acc : HVec StoredBinding N) :
    (∃ parsed l, parseTargets endpointId fabIdx list acc = .ok parsed ∧ parsed.1 = acc.1 ++ l ∧
      ∀ e ∈ l, ∃ t, .ok t ∈ list ∧ parseTarget endpointId fabIdx t = .ok e) ∨
    ∃ e, parseTargets endpointId fabIdx list acc = .error (.error e) := by
  induction list generalizing acc with
  | nil => exact .inl ⟨acc, [], rfl, (List.append_nil _).symm, fun _ h => nomatch h⟩
  | cons t list ih =>
    rw [parseTargets]
    cases t with
    | error e => exact .inr ⟨e, rfl⟩
    | ok t =>
      rw [lift_ok, ok_bind]
      obtain ⟨sb, hparse, _⟩ | ⟨e, hparse⟩ := parseTarget_cases endpointId fabIdx t
      · rw [hparse, ok_bind]
        by_cases hroom : acc.1.length < N
        · rw [HVec.push, dif_pos hroom, ok_bind]
          obtain ⟨parsed, l, hok, hl, hfrom⟩ | herror := ih ⟨acc.1 ++ [sb], _⟩
          · refine .inl ⟨parsed, sb :: l, hok, ?_, fun e he => ?_⟩
            · rw [hl, List.append_assoc, List.singleton_append]
            · rcases List.mem_cons.mp he with rfl | he
              · exact ⟨t, List.mem_cons_self, hparse⟩
              · obtain ⟨t', ht', hparse'⟩ := hfrom e he
                exact ⟨t', List.mem_cons_of_mem _ ht', hparse'⟩
          · exact .inr herror
        · rw [HVec.push, dif_neg hroom]
          exact .inr ⟨_, rfl⟩
      · rw [hparse]
        exact .inr ⟨e, rfl⟩

theorem run_pushAll {parsed : List StoredBinding} {s s' : Bindings N} (hblob : s'.blob = s.blob)
    (h : s'.state.1 = s.state.1 ++ parsed) : (pushAll parsed).run s = (s', .ok ()) := by
  induction parsed generalizing s with
  | nil =>
    obtain ⟨state', blob'⟩ := s'
    obtain ⟨state, blob⟩ := s
    obtain rfl : blob' = blob := hblob
    rw [List.append_nil] at h
    obtain rfl : state' = state := Subtype.ext h
    rfl
  | cons sb parsed ih =>
    have hroom : s.state.1.length < N := by
      have hlen := s'.state.2
      rw [h, List.length_append, List.length_cons] at hlen
      omega
    rw [pushAll, run_bind_of_ok (run_get s), HVec.push, dif_pos hroom,
      run_bind_of_ok (run_ofExcept ..), run_bind_of_ok (run_modify ..)]
    refine ih hblob ?_
    rw [h, List.append_assoc, List.singleton_append]

end Bindings

def ArrayAttributeWrite.Gives (value : ArrayAttributeWrite) (e : StoredBinding) : Prop :=
  ∃ t, (value = .add t ∨ ∃ list, value = .replace list ∧ .ok t ∈ list) ∧
    Bindings.parseTarget e.endpointId e.fabIdx t = .ok e

namespace Bindings

variable {N : ℕ} (endpointId : EndptId) (fabIdx : {v : BitVec 8 // v ≠ 0})

/-- The new entries find room in the table and in the buffer. -/
def HasRoom (room : ℕ) (s : Bindings N) : ArrayAttributeWrite → Prop
  | .replace list => ∀ parsed : HVec StoredBinding N,
    parseTargets endpointId fabIdx list .new = .ok parsed →
      ∃ state : HVec StoredBinding N, Fits room state ∧
        state.1 = (retainOthers endpointId fabIdx s.state).1 ++ parsed.1
  | .add entry => ∀ sb state, parseTarget endpointId fabIdx entry = .ok sb →
    s.state.push sb .resourceExhausted = .ok state → Fits room state
  | .update .. | .remove _ => True

/-- What a write has done to the table: there are new entries of the writer, the entries of others
are as they were, and all of it is stored. -/
structure Written (value : ArrayAttributeWrite) (s s' : Bindings N) : Prop where
  /-- entries that were not there are given by the write -/
  given (e : StoredBinding) (h : e ∈ s'.state.1) : e ∈ s.state.1 ∨
    (e.endpointId = endpointId ∧ e.fabIdx = fabIdx ∧ value.Gives e)
  /-- the entries of others are as they were -/
  others : (retainOthers endpointId fabIdx s'.state).1 = (retainOthers endpointId fabIdx s.state).1
  saved : Saved s'

theorem filter_others_eq_nil {l : List StoredBinding}
    (h : ∀ e ∈ l, e.endpointId = endpointId ∧ e.fabIdx = fabIdx) :
    l.filter (fun e => !e.isOf endpointId fabIdx) = [] := by
  refine List.filter_eq_nil_iff.mpr fun e he => ?_
  obtain ⟨rfl, rfl⟩ := h e he
  simp [StoredBinding.isOf]

/-- **Replacing** entries. -/
theorem replaceEntries_cases {room : ℕ} {s : Bindings N} {list : List (Except ErrorCode TargetStruct)}
    (h : HasRoom endpointId fabIdx room s (.replace list)) :
    (∃ e, (replaceEntries room endpointId fabIdx list).run s = (s, .error (.error e))) ∨
      ∃ s', (replaceEntries room endpointId fabIdx list).run s = (s', .ok ()) ∧
        Written endpointId fabIdx (.replace list) s s' := by
  rw [replaceEntries]
  obtain ⟨parsed, l, hparse, hl, hfrom⟩ | ⟨e, hparse⟩ :=
    parseTargets_cases (N := N) endpointId fabIdx list .new
  · obtain ⟨state, hfits, hstate⟩ := h parsed hparse
    obtain rfl : parsed.1 = l := hl
    have hown : ∀ e ∈ parsed.1, e.endpointId = endpointId ∧ e.fabIdx = fabIdx := by
      intro e he
      obtain ⟨t, _, ht⟩ := hfrom e he
      obtain ⟨sb, hok, hendpoint, hfab⟩ | ⟨_, herror⟩ := parseTarget_cases endpointId fabIdx t
      · rw [ht] at hok
        obtain rfl := Except.ok.inj hok
        exact ⟨hendpoint, hfab⟩
      · rw [ht] at herror
        cases herror
    have hpush : (pushAll parsed.1).run { s with state := retainOthers endpointId fabIdx s.state } =
        ({ s with state }, .ok ()) := run_pushAll rfl hstate
    obtain ⟨s', hstore, hsame, hsaved⟩ := storePersist_of_fits (s := { s with state }) hfits
    have hsame : s'.state = state := hsame
    rw [hparse, run_bind_of_ok (run_ofExcept ..), run_bind_of_ok (run_modify ..),
      run_bind_of_ok hpush]
    refine .inr ⟨s', hstore, ⟨fun e he => ?_, ?_, hsaved⟩⟩
    · rw [hsame, hstate] at he
      rcases List.mem_append.mp he with he | he
      · exact .inl (List.mem_of_mem_filter he)
      · obtain ⟨t, hmem, ht⟩ := hfrom e he
        obtain ⟨hendpoint, hfab⟩ := hown e he
        refine .inr ⟨hendpoint, hfab, t, .inr ⟨list, rfl, hmem⟩, ?_⟩
        rw [hendpoint, hfab]
        exact ht
    · rw [hsame]
      change state.1.filter _ = s.state.1.filter _
      rw [hstate, List.filter_append, filter_others_eq_nil endpointId fabIdx hown, List.append_nil]
      exact List.filter_filter.trans (by simp)
  · rw [hparse]
    exact .inl ⟨e, rfl⟩

/-- **Adding** an entry. -/
theorem addEntry_cases {room : ℕ} {s : Bindings N} {entry : TargetStruct}
    (h : HasRoom endpointId fabIdx room s (.add entry)) :
    (∃ e, (addEntry room endpointId fabIdx entry).run s = (s, .error (.error e))) ∨
      ∃ s', (addEntry room endpointId fabIdx entry).run s = (s', .ok ()) ∧
        Written endpointId fabIdx (.add entry) s s' := by
  rw [addEntry]
  obtain ⟨sb, hparse, hendpoint, hfab⟩ | ⟨e, hparse⟩ := parseTarget_cases endpointId fabIdx entry
  · rw [hparse, run_bind_of_ok (run_ofExcept ..), run_bind_of_ok (run_get s)]
    cases hpush : s.state.push sb .resourceExhausted with
    | error e =>
      rw [HVec.push] at hpush
      split at hpush
      · cases hpush
      · obtain rfl := Except.error.inj hpush
        exact .inl ⟨_, rfl⟩
    | ok state =>
      obtain ⟨_, hstate⟩ := HVec.push_eq_ok.mp hpush
      obtain ⟨s', hstore, hsame, hsaved⟩ :=
        storePersist_of_fits (s := { s with state }) (h sb state hparse hpush)
      have hsame : s'.state = state := hsame
      rw [run_bind_of_ok (run_ofExcept ..), run_bind_of_ok (run_modify ..)]
      refine .inr ⟨s', hstore, ⟨fun e he => ?_, ?_, hsaved⟩⟩
      · rw [hsame, hstate] at he
        rcases List.mem_append.mp he with he | he
        · exact .inl he
        · obtain rfl := List.mem_singleton.mp he
          refine .inr ⟨hendpoint, hfab, entry, .inl rfl, ?_⟩
          rw [hendpoint, hfab]
          exact hparse
      · rw [hsame]
        change state.1.filter _ = s.state.1.filter _
        have hown : ∀ e ∈ [sb], e.endpointId = endpointId ∧ e.fabIdx = fabIdx := by
          intro e he
          obtain rfl := List.mem_singleton.mp he
          exact ⟨hendpoint, hfab⟩
        rw [hstate, List.filter_append, filter_others_eq_nil endpointId fabIdx hown, List.append_nil]
  · rw [hparse]
    exact .inl ⟨e, rfl⟩

end Bindings

/-- **A write** fails and changes nothing, or it changes what the writer has on the endpoint. -/
theorem BindingHandler.setBinding_cases {N room : ℕ} {s : Bindings N} {endpointId : EndptId}
    {fabIdx : BitVec 8} {value : ArrayAttributeWrite}
    (h : ∀ h, Bindings.HasRoom endpointId ⟨fabIdx, h⟩ room s value) :
    (∃ e, (setBinding room endpointId fabIdx value).run s = (s, .error (.error e))) ∨
      ∃ s' h, (setBinding room endpointId fabIdx value).run s = (s', .ok ()) ∧
        Bindings.Written endpointId ⟨fabIdx, h⟩ value s s' := by
  rw [setBinding, accessingFabric]
  by_cases hfab : fabIdx ≠ 0
  · rw [dif_pos hfab, run_bind_of_ok (run_ofExcept ..)]
    cases value with
    | replace list =>
      obtain herror | ⟨s', hrun, hwritten⟩ := Bindings.replaceEntries_cases _ _ (h hfab)
      · exact .inl herror
      · exact .inr ⟨s', hfab, hrun, hwritten⟩
    | add entry =>
      obtain herror | ⟨s', hrun, hwritten⟩ := Bindings.addEntry_cases _ _ (h hfab)
      · exact .inl herror
      · exact .inr ⟨s', hfab, hrun, hwritten⟩
    | update index entry => exact .inl ⟨_, rfl⟩
    | remove index => exact .inl ⟨_, rfl⟩
  · rw [dif_neg hfab]
    exact .inl ⟨_, rfl⟩

/-! ## The node -/

/-- After `RemoveFabric` the fabric is not there, whether it was there before or not. -/
theorem Device.get_of_removeFabric {crypto : Crypto} {d d' : Device} {id : BitVec 32} {env : Env}
    {fabIdx : ℕ} (h0 : fabIdx ≠ 0)
    (h : Device.step crypto d (.invoke id env (.removeFabric fabIdx)) = some d') :
    Fabrics.get d'.fabrics fabIdx = none := by
  rw [Device.step, Option.map_eq_some_iff] at h
  obtain ⟨sess, _, rfl⟩ := h
  rw [Device.invoke, fst_run_bind fun _ _ => rfl, Device.handleRemoveFabric,
    run_bind_of_ok (run_ensure_of_pos h0 _ _), run_bind_of_ok (run_get d)]
  by_cases hget : (Fabrics.get d.fabrics fabIdx).isSome
  · have hrem : (Fabrics.remove fabIdx).run d.fabrics =
        (removeKey Fabric.fabIdx d.fabrics fabIdx, .ok ()) := by
      rw [Fabrics.run_remove, if_pos hget]
    rw [if_pos hget, run_bind_of_ok (Device.run_onFabrics hrem),
      run_bind_of_ok (run_modify _ _), run_bind_of_ok (run_modify _ _),
      fst_run_bind fun _ _ => rfl, Device.removeStored]
    by_cases hw : env.works (.fabric fabIdx) = true
    · rw [run_bind_of_ok (run_ensure_of_pos hw _ _), run_modify]
      exact lookup_removeKey_self
    · rw [run_bind_of_error (run_ensure_of_neg hw _ _)]
      exact lookup_removeKey_self
  · rw [if_neg hget]
    exact Option.not_isSome_iff_eq_none.mp hget

namespace BindingNode

variable {N : ℕ} {crypto : Crypto} {room : ℕ}

/-- A write finds room, and nothing takes away a fabric that has entries. -/
def Suits (crypto : Crypto) (room : ℕ) (n : BindingNode N) : Action → Prop
  | .write endpointId fabIdx value => ∀ h, Bindings.HasRoom endpointId ⟨fabIdx, h⟩ room n.bindings value
  | .device a => ∀ d, Device.step crypto n.device a = some d → ∀ e ∈ n.bindings.state.1,
    (Fabrics.get d.fabrics e.fabIdx.1.toNat).isSome

/-- All is stored, and every entry is of a fabric that is there. -/
structure Kept (n : BindingNode N) : Prop where
  saved : n.bindings.Saved
  /-- the fabrics of the entries are there -/
  present (e : StoredBinding) (h : e ∈ n.bindings.state.1) :
    (Fabrics.get n.device.fabrics e.fabIdx.1.toNat).isSome

theorem kept_factoryNew : Kept (factoryNew : BindingNode N) :=
  ⟨Bindings.saved_new, fun _ h => nomatch h⟩

theorem reload_of_saved {bindings : Bindings N} (h : bindings.Saved) (a : Device.Action) :
    reload bindings a = bindings := by
  cases a with
  | restart => exact congrArg Prod.fst (h .new)
  | _ => rfl

def Writes : Action → StoredBinding → Prop
  | .write endpointId fabIdx value, e =>
    e.endpointId = endpointId ∧ e.fabIdx.1 = fabIdx ∧ value.Gives e
  | .device _, _ => False

/-- **One step** keeps all stored, and brings in only what it writes. -/
theorem step_kept {n n' : BindingNode N} {a : Action} (hn : Kept n) (h : Suits crypto room n a)
    (hstep : step crypto room n a = some n') :
    Kept n' ∧ ∀ e ∈ n'.bindings.state.1, e ∈ n.bindings.state.1 ∨ Writes a e := by
  cases a with
  | write endpointId fabIdx value =>
    rw [step] at hstep
    split at hstep
    case isFalse => cases hstep
    case isTrue hmay =>
      obtain rfl := Option.some.inj hstep
      obtain ⟨e, hrun⟩ | ⟨s', hfab, hrun, hwritten⟩ := BindingHandler.setBinding_cases h
      · rw [hrun]
        exact ⟨hn, fun e he => .inl he⟩
      · rw [hrun]
        have hpresent : (Fabrics.get n.device.fabrics fabIdx.toNat).isSome := by
          rw [mayWrite, Bool.or_eq_true, beq_iff_eq] at hmay
          exact hmay.resolve_left hfab
        refine ⟨⟨hwritten.saved, fun e he => ?_⟩, fun e he => ?_⟩
        · obtain hold | ⟨_, howner, _⟩ := hwritten.given e he
          · exact hn.present e hold
          · rw [howner]
            exact hpresent
        · obtain hold | ⟨hendpoint, howner, hgives⟩ := hwritten.given e he
          · exact .inl hold
          · exact .inr ⟨hendpoint, congrArg Subtype.val howner, hgives⟩
  | device a =>
    obtain ⟨d, hd, rfl⟩ := Option.map_eq_some_iff.mp hstep
    rw [reload_of_saved hn.saved]
    exact ⟨⟨hn.saved, h d hd⟩, fun e he => .inl he⟩

/-- **Over a run** everything stays stored. -/
theorem kept_of_run {as : List Action} {n n' : BindingNode N} (hn : Kept n)
    (hok : (machine crypto room).Meets (Suits crypto room) n as)
    (hrun : (machine crypto room).run n as = some n') : Kept n' :=
  Machine.invariant_of_meets (fun _ _ _ h hn hstep => (step_kept hn h hstep).1) hn hok hrun

theorem written_of_run {as : List Action} {n n' : BindingNode N} (hn : Kept n)
    (hok : (machine crypto room).Meets (Suits crypto room) n as)
    (hrun : (machine crypto room).run n as = some n') (e : StoredBinding)
    (he : e ∈ n'.bindings.state.1) : e ∈ n.bindings.state.1 ∨ ∃ a ∈ as, Writes a e := by
  induction as generalizing n with
  | nil =>
    obtain rfl := Option.some.inj hrun
    exact .inl he
  | cons a as ih =>
    obtain ⟨m, hstep, hrest⟩ := Machine.run_cons_eq_some.mp hrun
    obtain ⟨hm, hnew⟩ := step_kept hn hok.1 hstep
    obtain hold | ⟨b, hb, hwrites⟩ := ih hm (hok.2 m hstep) hrest
    · obtain hold | hwrites := hnew e hold
      · exact .inl hold
      · exact .inr ⟨a, List.mem_cons_self, hwrites⟩
    · exact .inr ⟨b, List.mem_cons_of_mem a hb, hwrites⟩

theorem exists_of_binding {endpointId : EndptId} {fabFilter : Bool} {fabIdx : BitVec 8}
    {read : ArrayAttributeRead} {s : Bindings N} {targets : List BindingTarget}
    (h : BindingHandler.binding endpointId fabFilter fabIdx read s = .ok targets)
    {t : BindingTarget} (ht : t ∈ targets) :
    ∃ e ∈ s.state.1, e.endpointId = endpointId ∧ e.target = t := by
  obtain ⟨filter, hrender⟩ : ∃ filter, lift (s.render endpointId filter read) = .ok targets := by
    cases fabFilter with
    | false => exact ⟨none, h⟩
    | true =>
      obtain ⟨filter, _, hrender⟩ := except_bind_eq_ok.mp h
      exact ⟨filter, hrender⟩
  rw [lift_eq_ok, Bindings.render] at hrender
  have hall : t ∈ ((s.state.1.filter fun e => e.endpointId == endpointId).filter fun e =>
      filter.all fun f => e.fabIdx == f).map StoredBinding.target := by
    generalize (List.map _ _ : List BindingTarget) = items at hrender ⊢
    cases read with
    | readAll =>
      obtain rfl := Except.ok.inj hrender
      exact ht
    | readOne index =>
      rw [ArrayAttributeRead.pick] at hrender
      split at hrender
      · next item hitem =>
        obtain rfl := Except.ok.inj hrender
        obtain rfl := List.mem_singleton.mp ht
        exact List.mem_of_getElem? hitem
      · cases hrender
    | readNone =>
      obtain rfl := Except.ok.inj hrender
      cases ht
  obtain ⟨e, he, rfl⟩ := List.mem_map.mp hall
  obtain ⟨he, hendpoint⟩ := List.mem_filter.mp (List.mem_of_mem_filter he)
  exact ⟨e, he, eq_of_beq hendpoint, rfl⟩

def entriesOf (endpointId : EndptId) (fabIdx : {v : BitVec 8 // v ≠ 0}) (s : Bindings N) :
    List StoredBinding := s.state.1.filter (·.isOf endpointId fabIdx)

theorem entriesOf_eq_filter {endpointId endpointId' : EndptId} {fabIdx fabIdx' : {v : BitVec 8 // v ≠ 0}}
    (hne : endpointId' ≠ endpointId ∨ fabIdx' ≠ fabIdx) (s : Bindings N) :
    entriesOf endpointId' fabIdx' s =
      (Bindings.retainOthers endpointId fabIdx s.state).1.filter (·.isOf endpointId' fabIdx') := by
  rw [entriesOf, Bindings.retainOthers, List.filter_filter]
  refine List.filter_congr fun e _ => ?_
  rw [StoredBinding.isOf, StoredBinding.isOf]
  rcases hne with hne | hne
  · by_cases h : e.endpointId = endpointId'
    · simp [h, hne]
    · simp [h]
  · have hval : fabIdx'.1 ≠ fabIdx.1 := fun heq => hne (Subtype.ext heq)
    by_cases h : e.fabIdx.1 = fabIdx'.1
    · simp [h, hval]
    · simp [h]

structure Correct (room : ℕ) (n : BindingNode N) : Prop where
  /-- a write that finds room fails and changes nothing, or it changes only what the writer has on
  the endpoint, and is stored -/
  write (endpointId : EndptId) (fabIdx : BitVec 8) (value : ArrayAttributeWrite)
    (h : ∀ h, Bindings.HasRoom endpointId ⟨fabIdx, h⟩ room n.bindings value) :
    (∃ e, (BindingHandler.setBinding room endpointId fabIdx value).run n.bindings =
      (n.bindings, .error (.error e))) ∨
    ∃ s', (BindingHandler.setBinding room endpointId fabIdx value).run n.bindings = (s', .ok ()) ∧
      (∀ endpointId' fabIdx', endpointId' ≠ endpointId ∨ fabIdx'.1 ≠ fabIdx →
        entriesOf endpointId' fabIdx' s' = entriesOf endpointId' fabIdx' n.bindings) ∧ s'.Saved
  /-- what is stored is what is in memory -/
  saved : n.bindings.Saved
  /-- nothing can be read of a fabric that is not there -/
  present (endpointId : EndptId) (fabFilter : Bool) (fabIdx : BitVec 8) (read : ArrayAttributeRead)
    (targets : List BindingTarget)
    (h : BindingHandler.binding endpointId fabFilter fabIdx read n.bindings = .ok targets)
    (t : BindingTarget) (ht : t ∈ targets) :
    (Fabrics.get n.device.fabrics t.fabricIndex.toNat).isSome

theorem Kept.correct {n : BindingNode N} (hn : Kept n) : Correct room n where
  write endpointId fabIdx value h := by
    obtain herror | ⟨s', hfab, hrun, hwritten⟩ := BindingHandler.setBinding_cases h
    · exact .inl herror
    · refine .inr ⟨s', hrun, fun endpointId' fabIdx' hne => ?_, hwritten.saved⟩
      have hne' : endpointId' ≠ endpointId ∨ fabIdx' ≠ ⟨fabIdx, hfab⟩ :=
        hne.imp_right fun hne heq => hne (congrArg Subtype.val heq)
      rw [entriesOf_eq_filter hne', entriesOf_eq_filter hne', hwritten.others]
  saved := hn.saved
  present endpointId fabFilter fabIdx read targets h t ht := by
    obtain ⟨e, he, _, rfl⟩ := exists_of_binding h ht
    exact hn.present e he

/-- **The bindings** are correct after every run in which writes find room and no fabric goes
that has entries: and once a fabric has been removed, what can be read under its index was
written later. -/
theorem bindings_correct (crypto : Crypto) (room N : ℕ) (as : List Action) (n : BindingNode N)
    (hok : (machine crypto room).Meets (Suits crypto room) (factoryNew : BindingNode N) as)
    (hrun : (machine crypto room).run factoryNew as = some n) :
    Correct room n ∧
    (∀ id env fabIdx d, fabIdx ≠ 0 →
      Device.step crypto n.device (.invoke id env (.removeFabric fabIdx)) = some d →
      Fabrics.get d.fabrics fabIdx = none) ∧
    ∀ i : BitVec 8, Fabrics.get n.device.fabrics i.toNat = none →
      ∀ bs n', (machine crypto room).Meets (Suits crypto room) n bs →
        (machine crypto room).run n bs = some n' →
        ∀ endpointId fabFilter fabIdx read targets,
          BindingHandler.binding endpointId fabFilter fabIdx read n'.bindings = .ok targets →
          ∀ t ∈ targets, t.fabricIndex = i →
            ∃ e, e.target = t ∧ e.endpointId = endpointId ∧ ∃ b ∈ bs, Writes b e := by
  have hn := kept_of_run kept_factoryNew hok hrun
  refine ⟨hn.correct, fun id env fabIdx d h0 hstep => Device.get_of_removeFabric h0 hstep, ?_⟩
  intro i habsent bs n' hok' hrun' endpointId fabFilter fabIdx read targets hread t ht hi
  obtain ⟨e, he, hendpoint, rfl⟩ := exists_of_binding hread ht
  obtain hold | hwrites := written_of_run hn hok' hrun' e he
  · have hpresent := hn.present e hold
    have hindex : e.fabIdx.1 = i := hi
    rw [hindex, habsent] at hpresent
    cases hpresent
  · exact ⟨e, rfl, hendpoint, hwrites⟩

/-! ## Runs on fixed inputs -/

theorem run_device {as : List Device.Action} {n : BindingNode N} {d : Device}
    (hrestart : .restart ∉ as) (h : (Device.machine crypto).run n.device as = some d) :
    (machine crypto room).run n (as.map .device) = some ⟨d, n.bindings⟩ := by
  induction as generalizing n with
  | nil =>
    obtain rfl := Option.some.inj h
    rfl
  | cons a as ih =>
    obtain ⟨d', hstep, hrest⟩ := Machine.run_cons_eq_some.mp h
    have hreload : reload n.bindings a = n.bindings := by
      cases a with
      | restart => exact absurd List.mem_cons_self hrestart
      | _ => rfl
    have hnext : (machine crypto room).step n (.device a) = some ⟨d', n.bindings⟩ := by
      change (Device.step crypto n.device a).map _ = _
      rw [show Device.step crypto n.device a = some d' from hstep, hreload]
      rfl
    rw [List.map_cons, Machine.run_cons, hnext, Option.bind_some]
    exact ih (fun hmem => hrestart (List.mem_cons_of_mem a hmem)) hrest

/-- Without entries, there is nothing that a fabric could leave behind. -/
theorem meets_device {as : List Device.Action} {n : BindingNode N} (hempty : n.bindings.state.1 = [])
    (hrestart : .restart ∉ as) :
    (machine crypto room).Meets (Suits crypto room) n (as.map .device) := by
  induction as generalizing n with
  | nil => trivial
  | cons a as ih =>
    refine ⟨fun d _ e he => ?_, fun n' hstep => ih ?_ fun hmem => hrestart (List.mem_cons_of_mem a hmem)⟩
    · rw [hempty] at he
      cases he
    · obtain ⟨d, _, rfl⟩ := Option.map_eq_some_iff.mp hstep
      cases a with
      | restart => exact absurd List.mem_cons_self hrestart
      | _ => exact hempty

namespace Sample

def lamp : TargetStruct := ⟨.ok (some 5), .ok none, .ok (some 1), .ok none⟩

/-- The entry for the lamp, of the first fabric. -/
def entry (endpointId : EndptId) : StoredBinding :=
  ⟨endpointId, ⟨1, by decide⟩, some 5, none, some 1, none⟩

/-- The fabric is removed, and the node is commissioned again. -/
def removed : List Device.Action :=
  .invoke 1 (Device.Sample.envAt 0) (.removeFabric 1) :: Device.Sample.pase 2 0 ++
    Device.Sample.addFabric 2 9

def entryTree : TLVTree LeafCall :=
  .node .anonymous .struct [.leaf (.context 0) (IntKind.u16.call 1),
    .leaf (.context 1) (IntKind.u8.call 1), .leaf (.context 2) (IntKind.u64.call 5),
    .leaf (.context 4) (IntKind.u16.call 1)]

theorem treeOf_entry :
    treeOf StoredBinding.codec (entry 1).fields .anonymous = some entryTree := by
  have htrees (endpointId endpoint : BitVec IntKind.u16.width)
      (fabIdx : {v : BitVec IntKind.u8.width // v ≠ 0}) (node : BitVec IntKind.u64.width) :
      treeOf StoredBinding.codec (endpointId, fabIdx, some node, none, some endpoint, none, ()) .anonymous =
        some (.node .anonymous .struct [.leaf (.context 0) (IntKind.u16.call endpointId),
          .leaf (.context 1) (IntKind.u8.call fabIdx.1), .leaf (.context 2) (IntKind.u64.call node),
          .leaf (.context 4) (IntKind.u16.call endpoint)]) := by
    simp only [StoredBinding.codec, treeOf, fieldTreesOf]
    rfl
  exact htrees 1 1 ⟨1, by decide⟩ 5

theorem fits_entry : Bindings.Fits 64 (⟨[entry 1], by decide⟩ : HVec StoredBinding 2) := by
  have htree : treeOf (.vec StoredBinding.codec 2)
      (Bindings.toStored (⟨[entry 1], by decide⟩ : HVec StoredBinding 2)) .anonymous =
      some (.node .anonymous .array [entryTree]) := by
    rw [treeOf]
    change Option.map _ ([(entry 1).fields].mapM _) = _
    rw [List.mapM_cons, treeOf_entry]
    rfl
  exact Bindings.fits_of_treeOf htree (by decide +kernel)

theorem exists_run_add : ∃ blob,
    (BindingHandler.setBinding 64 1 1 (.add lamp)).run (Bindings.new : Bindings 2) =
      (⟨⟨[entry 1], by decide⟩, blob⟩, .ok ()) := by
  obtain ⟨s', hrun, hstate, _⟩ := Bindings.storePersist_of_fits
    (s := (⟨⟨[entry 1], by decide⟩, none⟩ : Bindings 2)) fits_entry
  refine ⟨s'.blob, ?_⟩
  change (Bindings.storePersist 64).run (⟨⟨[entry 1], by decide⟩, none⟩ : Bindings 2) = _
  rw [hrun]
  exact congrArg (fun state => ((⟨state, s'.blob⟩ : Bindings 2), Except.ok ())) hstate

end Sample

namespace Sample

theorem exists_run_commissioned : ∃ d,
    (Device.machine Device.Sample.crypto).run Device.factoryNew Device.Sample.commissioned = some d ∧
      (∃ d', (Device.machine Device.Sample.crypto).run d removed = some d' ∧
        d'.fabrics.map Fabric.fabIdx = [1]) ∧ mayWrite d 1 = true := by
  have h : (((Device.machine Device.Sample.crypto).run Device.factoryNew
      Device.Sample.commissioned).bind fun d =>
        ((Device.machine Device.Sample.crypto).run d removed).map fun d' =>
          (d'.fabrics.map Fabric.fabIdx, mayWrite d 1)) = some ([1], true) := by decide +kernel
  obtain ⟨d, hd, h⟩ := Option.bind_eq_some_iff.mp h
  obtain ⟨d', hd', h⟩ := Option.map_eq_some_iff.mp h
  obtain ⟨hfabrics, hmay⟩ := Prod.mk.inj h
  exact ⟨d, hd, ⟨d', hd', hfabrics⟩, hmay⟩

theorem restart_not_mem_commissioned : Device.Action.restart ∉ Device.Sample.commissioned := by
  simp [Device.Sample.commissioned, Device.Sample.pase, Device.Sample.addFabric, Device.Sample.case]

/-- The node is commissioned and the lamp is bound. -/
def bound : List Action := Device.Sample.commissioned.map .device ++ [.write 1 1 (.add lamp)]

theorem run_bound {d : Device} {s : Bindings 2}
    (hd : (Device.machine Device.Sample.crypto).run Device.factoryNew Device.Sample.commissioned = some d)
    (hmay : mayWrite d 1 = true)
    (hs : (BindingHandler.setBinding 64 1 1 (.add lamp)).run (Bindings.new : Bindings 2) = (s, .ok ())) :
    (machine Device.Sample.crypto 64).run factoryNew bound = some ⟨d, s⟩ := by
  rw [bound, Machine.run_append, run_device restart_not_mem_commissioned hd, Option.bind_some, Machine.run_cons]
  change (if mayWrite d 1 = true then some _ else none : Option (BindingNode 2)).bind _ = _
  rw [if_pos hmay]
  change some (⟨d, ((BindingHandler.setBinding 64 1 1 (.add lamp)).run _).1⟩ : BindingNode 2) = _
  rw [show (factoryNew : BindingNode 2).bindings = .new from rfl, hs]

end Sample

theorem bindings_correct_lamp : ∃ n : BindingNode 2,
    (machine Device.Sample.crypto 64).run factoryNew Sample.bound = some n ∧
    Correct 64 n ∧ n.bindings.state.1 = [Sample.entry 1] := by
  obtain ⟨d, hd, _, hmay⟩ := Sample.exists_run_commissioned
  obtain ⟨blob, hs⟩ := Sample.exists_run_add
  have hrun := Sample.run_bound hd hmay hs
  refine ⟨_, hrun, (bindings_correct Device.Sample.crypto 64 2 Sample.bound _ ?_ hrun).1, rfl⟩
  refine (Machine.meets_append (run_device Sample.restart_not_mem_commissioned hd)).mpr
    ⟨meets_device rfl Sample.restart_not_mem_commissioned, ?_, fun _ _ => trivial⟩
  intro hfab sb state hsb hstate
  obtain rfl : Sample.entry 1 = sb := Except.ok.inj hsb
  obtain ⟨_, hentries⟩ := HVec.push_eq_ok.mp hstate
  obtain rfl : state = ⟨[Sample.entry 1], by decide⟩ := Subtype.ext hentries
  exact Sample.fits_entry

/-- **Entries outlive their fabric**: the lamp that the first fabric has bound is read by the next
fabric, which has the same index. And a list that would fit by itself, but not beside the entry of
another endpoint, is written in part, although the write fails. -/
theorem bindings_outlive_fabric :
    ∃ n : BindingNode 2, (machine Device.Sample.crypto 64).run factoryNew Sample.bound = some n ∧
      (∃ n', (machine Device.Sample.crypto 64).run n (Sample.removed.map .device) = some n' ∧
        n'.device.fabrics.map Fabric.fabIdx = [1] ∧
        BindingHandler.binding 1 true 1 .readAll n'.bindings = .ok [(Sample.entry 1).target]) ∧
      n.bindings.state.1 = [Sample.entry 1] ∧
      ∃ s', (BindingHandler.setBinding 64 2 1 (.replace [.ok Sample.lamp, .ok Sample.lamp])).run
        n.bindings = (s', .error (.error .resourceExhausted)) ∧
        s'.state.1 = [Sample.entry 1, Sample.entry 2] := by
  obtain ⟨d, hd, ⟨d', hd', hfabrics⟩, hmay⟩ := Sample.exists_run_commissioned
  obtain ⟨blob, hs⟩ := Sample.exists_run_add
  refine ⟨_, Sample.run_bound hd hmay hs, ⟨⟨d', ⟨⟨[Sample.entry 1], by decide⟩, blob⟩⟩, ?_, hfabrics, rfl⟩,
    rfl, _, rfl, rfl⟩
  exact run_device (by simp [Sample.removed, Device.Sample.pase, Device.Sample.addFabric]) hd'

end BindingNode

end RsMatter
