import RsMatter.Events

/-!
# The event rings hold whole events

What the writer does to the three buffers is said in terms of lists of events. The buffers
hold the events that are left of those pushed, in the order in which they were pushed:
first the critical one, then the info one, then the debug one, and behind its events the
bytes of the event being written. Making way takes an event off one list and appends it to
the list before it or drops it, so what is left is always a sublist of what was there.
-/

namespace RsMatter

open Prog

namespace Events

/-! ## Reading an event -/

namespace Event

variable (e : Event) (rest : List UInt8)

theorem bytes_eq : e.bytes = e.preamble ++ (e.data.bytes ++ elemBytes .anonymous .endCnt) := by
  rw [bytes, tree, TLVTree.bytes, bytesMembers_append, bytesMembers, bytesMembers, preamble]
  simp [ContainerType.value]

theorem one_le_length_bytes : 1 ≤ e.bytes.length :=
  e.tree.one_le_tokens.trans e.tree.tokens_le

theorem structure_bytes : TLVElement.structure (e.bytes ++ rest) =
    .ok (bytesMembers (e.header ++ [e.data]) ++ (elemBytes .anonymous .endCnt ++ rest)) :=
  TLVElement.membersOf_node (.context 1) .struct _ _ rest

theorem fromTlv_path : EventPath.fromTlv (e.path.bytes ++ rest) =
    .ok ⟨none, some e.endpoint, some e.cluster, some e.event, none⟩ := by
  let endpoint : TLVTree LeafCall := .leaf (.context 1) (.u16 e.endpoint)
  let cluster : TLVTree LeafCall := .leaf (.context 2) (.u32 e.cluster)
  let event : TLVTree LeafCall := .leaf (.context 3) (.u32 e.event)
  let close := elemBytes .anonymous .endCnt ++ rest
  have hlist : TLVElement.list (e.path.bytes ++ rest) =
      .ok (endpoint.bytes ++ (cluster.bytes ++ (event.bytes ++ close))) := by
    have h := TLVElement.membersOf_node (.context 0) .list [endpoint, cluster, event]
      .tlvTypeMismatch rest
    simp only [bytesMembers, List.append_assoc, List.append_nil] at h
    exact h
  have h0 : TLVSequence.scanCtx 0 (endpoint.bytes ++ (cluster.bytes ++ (event.bytes ++ close))) =
      .ok ([], _) :=
    TLVSequence.scanCtxLoop_of_gt _ _ (show endpoint.tag.ctx? = some 1 from rfl) (by decide)
  have h1 : TLVSequence.scanCtx 1 (endpoint.bytes ++ (cluster.bytes ++ (event.bytes ++ close))) =
      .ok (_, _) := TLVSequence.scanCtxLoop_of_eq _ _ rfl
  have h2 : TLVSequence.scanCtx 2 (endpoint.bytes ++ (cluster.bytes ++ (event.bytes ++ close))) =
      .ok (_, _) :=
    TLVSequence.scanCtx_next _ (show endpoint.tag.ctx? = some 1 from rfl) (by decide) rfl
  have h3 : TLVSequence.scanCtx 3 (cluster.bytes ++ (event.bytes ++ close)) = .ok (_, _) :=
    TLVSequence.scanCtx_next _ (show cluster.tag.ctx? = some 2 from rfl) (by decide) rfl
  have h4 : TLVSequence.scanCtx 4 (event.bytes ++ close) = .ok ([], _) :=
    TLVSequence.scanCtx_last rest (show event.tag.ctx? = some 3 from rfl) (by decide)
  have hendpoint := optionFromTlv_elem TLVElement.u16 (TLVSequence.isEmpty_tree endpoint _)
    (TLVElement.u16_elem (.context 1) (cluster.bytes ++ (event.bytes ++ close)) e.endpoint)
  have hcluster := optionFromTlv_elem TLVElement.u32 (TLVSequence.isEmpty_tree cluster _)
    (TLVElement.u32_elem (.context 2) (event.bytes ++ close) e.cluster)
  have hevent := optionFromTlv_elem TLVElement.u32 (TLVSequence.isEmpty_tree event _)
    (TLVElement.u32_elem (.context 3) close e.event)
  rw [EventPath.fromTlv, hlist, ok_bind, h0, ok_bind]
  simp only
  rw [optionFromTlv_nil, ok_bind, h1, ok_bind]
  simp only
  rw [hendpoint, ok_bind, h2, ok_bind]
  simp only
  rw [hcluster, ok_bind, h3, ok_bind]
  simp only
  rw [hevent, ok_bind, h4, ok_bind]
  rfl

end Event

namespace EventData

variable {t : TLVTree LeafCall} {rest : List UInt8} {fields : Fields}

theorem readFields_tree {fields' : Fields} (fuel : ℕ)
    (h : readField fields (t.bytes ++ rest) = .ok fields') :
    readFields (fuel + 1) fields (t.bytes ++ rest) = readFields fuel fields' rest := by
  rw [readFields, TLVSequence.iterNext_tree, ok_bind]
  simp only
  rw [h, ok_bind]

theorem readFields_end (fuel : ℕ) :
    readFields (fuel + 1) fields (elemBytes .anonymous .endCnt ++ rest) = .ok fields := rfl

theorem tag_field (ctx : BitVec 8) (htag : t.tag = .context ctx) :
    TLVElement.tag (t.bytes ++ rest) = .ok (.context ctx) :=
  htag ▸ TLVElement.tag_tree t rest

theorem readField_path (e : Event) : readField fields (e.path.bytes ++ rest) =
    .ok { fields with
      path := some ⟨none, some e.endpoint, some e.cluster, some e.event, none⟩ } := by
  rw [readField, tag_field 0 rfl, ok_bind]
  simp only [if_pos]
  rw [e.fromTlv_path, ok_bind]
  rfl

theorem readField_number (n : BitVec 64) :
    readField fields ((TLVTree.leaf (.context 1) (LeafCall.u64 n)).bytes ++ rest) =
      .ok { fields with eventNumber := some n } := by
  rw [readField, tag_field 1 rfl, ok_bind]
  simp only [if_pos]
  rw [if_neg (by decide), TLVTree.bytes, LeafCall.value, TLVElement.u64_elem, ok_bind]
  rfl

theorem fromTlv_priority (tag : TLVTag) (prio : EventPriority) :
    EventPriority.fromTlv (elemBytes tag (.ofU8 prio.toU8) ++ rest) = .ok prio := by
  rw [EventPriority.fromTlv, TLVElement.u8_elem, ok_bind]
  cases prio <;> rfl

theorem readField_priority (prio : EventPriority) :
    readField fields ((TLVTree.leaf (.context 2) (LeafCall.u8 prio.toU8)).bytes ++ rest) =
      .ok { fields with priority := some prio } := by
  rw [readField, tag_field 2 rfl, ok_bind]
  simp only [if_pos]
  rw [if_neg (by decide), if_neg (by decide), TLVTree.bytes, LeafCall.value, fromTlv_priority,
    ok_bind]
  rfl

theorem readField_timestamp (ts : EventDataTimestamp) :
    readField fields ((TLVTree.leaf (.context ts.tag) (LeafCall.u64 ts.ts)).bytes ++ rest) =
      .ok { fields with timestamp := some ts } := by
  rw [readField, tag_field ts.tag rfl, ok_bind, TLVTree.bytes, LeafCall.value,
    TLVElement.u64_elem]
  cases ts <;> rfl

theorem readField_data (htag : t.tag = .context 7) :
    readField fields (t.bytes ++ rest) = .ok { fields with data := some (t.bytes ++ rest) } := by
  rw [readField, tag_field 7 htag, ok_bind]
  rfl

/-- **The event** that is read is the event that was written. -/
theorem fromTlv_bytes (e : Event) (htag : e.data.tag = .context 7) (rest : List UInt8) :
    fromTlv (e.bytes ++ rest) =
      .ok ⟨⟨none, some e.endpoint, some e.cluster, some e.event, none⟩, e.number, e.priority,
        e.timestamp, e.data.bytes ++ (elemBytes .anonymous .endCnt ++ rest)⟩ := by
  let members := e.header ++ [e.data]
  let seq := bytesMembers members ++ (elemBytes .anonymous .endCnt ++ rest)
  -- every field takes a byte, so there is fuel for the five of them and the end
  obtain ⟨fuel, hfuel⟩ : ∃ fuel, seq.length = fuel + 5 := by
    have hlength := length_le_bytesMembers members
    have hmembers : members.length = 5 := rfl
    exact Nat.exists_eq_add_of_le' (by rw [List.length_append]; omega)
  have hseq : seq = e.path.bytes ++ ((TLVTree.leaf (.context 1) (.u64 e.number)).bytes ++
      ((TLVTree.leaf (.context 2) (.u8 e.priority.toU8)).bytes ++
        ((TLVTree.leaf (.context e.timestamp.tag) (.u64 e.timestamp.ts)).bytes ++
          (e.data.bytes ++ (elemBytes .anonymous .endCnt ++ rest))))) := by
    simp only [seq, members, Event.header, List.cons_append, List.nil_append, bytesMembers,
      List.append_assoc]
  rw [fromTlv, e.structure_bytes, ok_bind]
  change (readFields (seq.length + 1) _ seq >>= _) = _
  rw [hfuel, hseq, readFields_tree _ (readField_path e), readFields_tree _ (readField_number _),
    readFields_tree _ (readField_priority _), readFields_tree _ (readField_timestamp _),
    readFields_tree _ (readField_data htag), readFields_end, ok_bind]
  rfl

end EventData

namespace EventsBuf

variable {N : ℕ} {b : EventsBuf N} {e : Event} {rest : List UInt8}

theorem firstEventLen_eq (h : b.data = e.bytes ++ rest) :
    b.firstEventLen = .ok e.bytes.length := by
  have hpos := e.one_le_length_bytes
  have hdata : 0 < b.data.length := by
    rw [h, List.length_append]
    omega
  rw [firstEventLen, if_pos hdata, h, Event.bytes, TLVSequence.containerLen_tree]
  rfl

theorem firstEventPrio_eq (h : b.data = e.bytes ++ rest) :
    b.firstEventPrio = .ok e.priority.toU8 := by
  let prio : TLVTree LeafCall := .leaf (.context 2) (.u8 e.priority.toU8)
  let before : List (TLVTree LeafCall) := [e.path, .leaf (.context 1) (.u64 e.number)]
  let after : List (TLVTree LeafCall) :=
    [.leaf (.context e.timestamp.tag) (.u64 e.timestamp.ts), e.data]
  have hbefore : ∀ u ∈ before, u.tag.ctx? ≠ some 2 := by
    intro u hu
    rcases List.mem_pair.mp hu with rfl | rfl <;> exact fun h => nomatch h
  have hfind := TLVSequence.findCtx_members (elemBytes .anonymous .endCnt ++ rest) before after
    hbefore (show prio.tag.ctx? = some 2 from rfl)
  rw [firstEventPrio, h, e.structure_bytes]
  change (unwrap (.ok _) >>= _) = _
  rw [unwrap, ok_bind]
  change (unwrap (TLVSequence.findCtx 2 (bytesMembers (before ++ prio :: after) ++ _)) >>= _) = _
  rw [hfind, unwrap, ok_bind]
  change unwrap (TLVElement.u8 (elemBytes _ (.ofU8 _) ++ _)) = _
  rw [TLVElement.u8_elem, unwrap]

/-- **Shifting out** the first event leaves what is behind it. -/
theorem evictFirstEvent_eq (h : b.data = e.bytes ++ rest) :
    ∃ b', b.evictFirstEvent = .ok b' ∧ b'.data = rest := by
  have hle : e.bytes.length ≤ b.data.length := by
    rw [h, List.length_append]
    omega
  refine ⟨⟨b.data.drop e.bytes.length, (List.length_drop ▸ Nat.sub_le ..).trans b.le⟩, ?_, ?_⟩
  · rw [evictFirstEvent, firstEventLen_eq h, ok_bind, if_pos hle]
    rfl
  · show b.data.drop e.bytes.length = rest
    rw [h, List.drop_left]

theorem slice_eq (h : b.data = e.bytes ++ rest) : b.slice e.bytes.length = .ok e.bytes := by
  rw [slice, if_pos (by rw [h, List.length_append]; omega), h, List.take_left]

theorem appendSlice_of_le {data : List UInt8} (h : b.data.length + data.length ≤ N) :
    ∃ b', b.appendSlice data = some b' ∧ b'.data = b.data ++ data := by
  have hle : data.length ≤ b.capacity := by
    rw [capacity]
    omega
  rw [appendSlice, dif_pos hle]
  exact ⟨_, rfl, rfl⟩

theorem appendSlice_of_lt {data : List UInt8} (h : N < b.data.length + data.length) :
    b.appendSlice data = none := by
  have hle : ¬data.length ≤ b.capacity := by
    have := b.le
    rw [capacity]
    omega
  rw [appendSlice, dif_neg hle]

theorem rewindBy_eq {kept taken : List UInt8} (h : b.data = kept ++ taken) :
    ∃ b', b.rewindBy taken.length = .ok b' ∧ b'.data = kept := by
  have hle : taken.length ≤ b.data.length := by
    rw [h, List.length_append]
    omega
  rw [rewindBy, if_pos hle]
  refine ⟨_, rfl, ?_⟩
  simp [h]

end EventsBuf

/-! ## Making way -/

theorem length_le_encoded (es : List Event) : es.length ≤ (encoded es).length := by
  induction es with
  | nil => exact le_rfl
  | cons e es ih =>
    have hpos := e.one_le_length_bytes
    rw [encoded] at ih
    rw [encoded, List.flatMap_cons, List.length_cons, List.length_append]
    omega

theorem encoded_cons (e : Event) (es : List Event) : encoded (e :: es) = e.bytes ++ encoded es :=
  List.flatMap_cons

theorem encoded_concat (es : List Event) (e : Event) :
    encoded (es ++ [e]) = encoded es ++ e.bytes := by
  rw [encoded, List.flatMap_append, List.flatMap_singleton]
  rfl

/-- The critical and the info buffer hold events, the debug buffer holds bytes; and what does
not change while an event is written. -/
structure Holds {N : ℕ} (w : EventWriter N) (cs is : List Event) (debug : List UInt8)
    (written : ℕ) (next : BitVec 64) : Prop where
  critical : w.events.bufCritical.data = encoded cs
  info : w.events.bufInfo.data = encoded is
  debug : w.events.bufDebug.data = debug
  /-- the bytes of the event being written -/
  written : w.bytesWritten = written
  next : w.events.nextEventNumber = next

/-- A property of the events in the three rings that stays when an event gives way: the oldest of
the debug or the info ring is dropped or moves on, by its priority, the oldest of the critical ring
is dropped. -/
structure Closed (Q : List Event → List Event → List Event → Prop) : Prop where
  /-- a debug event is dropped from the debug ring -/
  dropDebug : ∀ {cs is ds e}, Q cs is (e :: ds) →
    ¬ EventPriority.info.toU8 ≤ e.priority.toU8 → Q cs is ds
  /-- any other one moves on to the info ring -/
  promoteDebug : ∀ {cs is ds e}, Q cs is (e :: ds) →
    EventPriority.info.toU8 ≤ e.priority.toU8 → Q cs (is ++ [e]) ds
  /-- an event that is not critical is dropped from the info ring -/
  dropInfo : ∀ {cs is ds e}, Q cs (e :: is) ds →
    ¬ EventPriority.critical.toU8 ≤ e.priority.toU8 → Q cs is ds
  /-- a critical one moves on to the critical ring -/
  promoteInfo : ∀ {cs is ds e}, Q cs (e :: is) ds →
    EventPriority.critical.toU8 ≤ e.priority.toU8 → Q (cs ++ [e]) is ds
  /-- an event is dropped from the critical ring -/
  dropCritical : ∀ {cs is ds e}, Q (e :: cs) is ds → Q cs is ds

theorem closed_sublist (all : List Event) : Closed fun cs is ds => (cs ++ is ++ ds).Sublist all where
  dropDebug h _ := ((List.sublist_cons_self ..).append_left _).trans h
  promoteDebug h _ := by
    rw [← List.append_assoc, List.append_assoc _ [_]]
    exact h
  dropInfo h _ := (((List.sublist_cons_self ..).append_left _).append_right _).trans h
  promoteInfo h _ := by
    rw [List.append_assoc _ [_]]
    exact h
  dropCritical h := (List.sublist_cons_self ..).trans h

namespace EventWriter

variable {N : ℕ} {w : EventWriter N} {cs is : List Event} {debug : List UInt8} {written : ℕ}
  {next : BitVec 64} {e : Event}
  {Q : List Event → List Event → List Event → Prop}

theorem run_ask {α : Type} {bufRef : EventPriority} {f : EventsBuf N → Except Fault α} {a : α}
    (h : f (w.events.buf bufRef) = .ok a) : (ask bufRef f).run w = (w, .ok a) := by
  rw [Prog.run, ask, h]

theorem run_change {bufRef : EventPriority} {f : EventsBuf N → Except Fault (EventsBuf N)}
    {b : EventsBuf N} (h : f (w.events.buf bufRef) = .ok b) :
    (change bufRef f).run w = ({ w with events := w.events.setBuf b bufRef }, .ok ()) := by
  rw [Prog.run, change, h]

/-- **Making space** in a buffer that holds events, given what making one of them give way
does to an invariant of the writer and the events left. -/
theorem run_makeSpace {I : EventWriter N → List Event → Prop} {bufRef : EventPriority}
    {evictOne : Prog Fault (EventWriter N) Unit} {len : ℕ} (hlen : len ≤ N)
    (hdata : ∀ w es, I w es → (w.events.buf bufRef).data = encoded es)
    (hevict : ∀ w e es, I w (e :: es) → ∃ w', evictOne.run w = (w', .ok ()) ∧ I w' es)
    (es : List Event) (hI : I w es) (fuel : ℕ) (hfuel : es.length < fuel) :
    ∃ w' es', (makeSpace evictOne bufRef len fuel).run w = (w', .ok ()) ∧ I w' es' ∧
      (encoded es').length + len ≤ N := by
  obtain ⟨fuel, rfl⟩ := Nat.exists_eq_add_of_le' (Nat.one_le_of_lt hfuel)
  induction es generalizing w fuel with
  | nil =>
    have hcap : ¬(w.events.buf bufRef).capacity < len := by
      rw [EventsBuf.capacity, hdata w [] hI]
      exact Nat.not_lt.mpr hlen
    refine ⟨w, [], ?_, hI, ?_⟩
    · rw [makeSpace, run_bind_of_ok (run_get w), Prog.onlyIf, if_neg hcap, run_pure]
    · rw [encoded, List.flatMap_nil, List.length_nil, Nat.zero_add]
      exact hlen
  | cons e es ih =>
    rw [makeSpace, run_bind_of_ok (run_get w), Prog.onlyIf]
    by_cases hcap : (w.events.buf bufRef).capacity < len
    · obtain ⟨w', hrun, hI'⟩ := hevict w e es hI
      rw [List.length_cons] at hfuel
      obtain ⟨fuel, rfl⟩ := Nat.exists_eq_add_of_le' (show 1 ≤ fuel by omega)
      obtain ⟨w'', es', hrun', hI'', hroom⟩ := ih hI' fuel (by omega)
      refine ⟨w'', es', ?_, hI'', hroom⟩
      rw [if_pos hcap, run_bind_of_ok hrun, hrun']
    · refine ⟨w, e :: es, ?_, hI, ?_⟩
      · rw [if_neg hcap, run_pure]
      · have hle := (w.events.buf bufRef).le
        rw [EventsBuf.capacity, hdata w _ hI] at hcap
        rw [hdata w _ hI] at hle
        omega

/-- **Promoting** the first event of a buffer appends it to what is left in the next one. -/
theorem run_promote (I : EventWriter N → List Event → Prop) (srcBuf dstBuf : EventPriority)
    {evictDst : Prog Fault (EventWriter N) Unit} {rest : List UInt8}
    (hsrc : ∀ w es, I w es → (w.events.buf srcBuf).data = e.bytes ++ rest)
    (hdst : ∀ w es, I w es → (w.events.buf dstBuf).data = encoded es)
    (hevict : ∀ w e es, I w (e :: es) → ∃ w', evictDst.run w = (w', .ok ()) ∧ I w' es)
    {es : List Event} (hI : I w es) :
    ∃ w' es' b, (promote evictDst srcBuf dstBuf e.bytes.length).run w =
        ({ w' with events := w'.events.setBuf b dstBuf }, .ok ()) ∧
      I w' es' ∧ b.data = encoded (es' ++ [e]) := by
  have hlen : e.bytes.length ≤ N := by
    have hle := (w.events.buf srcBuf).le
    rw [hsrc w es hI, List.length_append] at hle
    omega
  have hfuel : es.length < N + 1 := by
    have hle := (w.events.buf dstBuf).le
    rw [hdst w es hI] at hle
    exact Nat.lt_succ_of_le ((length_le_encoded es).trans hle)
  obtain ⟨w', es', hrun, hI', hroom⟩ := run_makeSpace hlen hdst hevict es hI _ hfuel
  rw [← hdst w' es' hI'] at hroom
  obtain ⟨b, hb, hdata⟩ := EventsBuf.appendSlice_of_le hroom
  refine ⟨w', es', b, ?_, hI', ?_⟩
  · rw [promote, run_bind_of_ok hrun,
      run_bind_of_ok (run_ask (EventsBuf.slice_eq (hsrc w' es' hI')))]
    refine run_change ?_
    rw [hb]
  · rw [hdata, hdst w' es' hI', encoded_concat]

theorem run_evict_critical (depth : ℕ) (h : Holds w (e :: cs) is debug written next) :
    ∃ w', (evict (depth + 1) .critical).run w = (w', .ok ()) ∧ Holds w' cs is debug written next := by
  have hdata : (w.events.buf .critical).data = e.bytes ++ encoded cs :=
    h.critical.trans (encoded_cons e cs)
  obtain ⟨b, hb, hdata'⟩ := EventsBuf.evictFirstEvent_eq hdata
  refine ⟨{ w with events := w.events.setBuf b .critical }, ?_, ?_⟩
  · rw [evict, run_bind_of_ok (run_ask (EventsBuf.firstEventLen_eq hdata))]
    exact run_change hb
  · exact ⟨hdata', h.info, h.debug, h.written, h.next⟩

/-- An event gives way in a buffer that has a next one: it moves there if its priority is high
enough, and leaves this buffer. -/
theorem run_evict {bufRef nextBufRef : EventPriority} (hnext : bufRef.next = some nextBufRef)
    (depth : ℕ) {rest : List UInt8} (hdata : (w.events.buf bufRef).data = e.bytes ++ rest) :
    (evict (depth + 1) bufRef).run w =
      (do
        Prog.onlyIf (nextBufRef.toU8 ≤ e.priority.toU8)
          (promote (evict depth nextBufRef) bufRef nextBufRef e.bytes.length)
        change bufRef EventsBuf.evictFirstEvent : Prog Fault (EventWriter N) Unit).run w := by
  rw [evict, run_bind_of_ok (run_ask (EventsBuf.firstEventLen_eq hdata)), hnext, Prog.whenSome,
    run_bind, run_bind_of_ok (run_ask (EventsBuf.firstEventPrio_eq hdata)), run_bind]

theorem run_evictFirst_info (h : Holds w cs (e :: is) debug written next) :
    ∃ w', (change .info EventsBuf.evictFirstEvent).run w = (w', .ok ()) ∧
      Holds w' cs is debug written next := by
  obtain ⟨b, hb, hdata⟩ := EventsBuf.evictFirstEvent_eq (h.info.trans (encoded_cons e is))
  exact ⟨_, run_change hb, ⟨h.critical, hdata, h.debug, h.written, h.next⟩⟩

/-- The info event that gives way is dropped, or moves to the critical buffer. -/
theorem run_evict_info (hQ : Closed Q) (depth : ℕ) (h : Holds w cs (e :: is) debug written next)
    {ds : List Event} (hq : Q cs (e :: is) ds) :
    ∃ w' cs', (evict (depth + 2) .info).run w = (w', .ok ()) ∧
      Holds w' cs' is debug written next ∧ Q cs' is ds := by
  have hdata : (w.events.buf .info).data = e.bytes ++ encoded is := h.info.trans (encoded_cons e is)
  rw [run_evict rfl (depth + 1) hdata, Prog.onlyIf]
  split
  case isTrue hprio =>
    let I : EventWriter N → List Event → Prop := fun w cs' =>
      Holds w cs' (e :: is) debug written next ∧ Q cs' (e :: is) ds
    have hevict : ∀ w c cs', I w (c :: cs') →
        ∃ w', (evict (depth + 1) .critical).run w = (w', .ok ()) ∧ I w' cs' := by
      rintro w c cs' ⟨h, hq⟩
      obtain ⟨w', hrun, h'⟩ := run_evict_critical depth h
      exact ⟨w', hrun, h', hQ.dropCritical hq⟩
    obtain ⟨w', cs', b, hrun, ⟨h', hq'⟩, hb⟩ := run_promote I .info .critical
      (fun w _ h => h.1.info.trans (encoded_cons e is)) (fun w _ h => h.1.critical) hevict ⟨h, hq⟩
    have hpromoted : Holds { w' with events := w'.events.setBuf b .critical } (cs' ++ [e]) (e :: is)
        debug written next := ⟨hb, h'.info, h'.debug, h'.written, h'.next⟩
    obtain ⟨w'', hrun', h''⟩ := run_evictFirst_info hpromoted
    refine ⟨w'', cs' ++ [e], ?_, h'', hQ.promoteInfo hq' hprio⟩
    rw [run_bind_of_ok hrun, hrun']
  case isFalse hprio =>
    obtain ⟨w', hrun, h'⟩ := run_evictFirst_info h
    refine ⟨w', cs, ?_, h', hQ.dropInfo hq hprio⟩
    rw [run_bind_of_ok (run_pure _ w), hrun]

theorem run_evictFirst_debug {rest : List UInt8} (h : Holds w cs is (e.bytes ++ rest) written next) :
    ∃ w', (change .debug EventsBuf.evictFirstEvent).run w = (w', .ok ()) ∧
      Holds w' cs is rest written next := by
  obtain ⟨b, hb, hdata⟩ := EventsBuf.evictFirstEvent_eq h.debug
  exact ⟨_, run_change hb, ⟨h.critical, h.info, hdata, h.written, h.next⟩⟩

/-- **The debug event that gives way** is dropped, or moves to the info buffer, where others
may have to make way for it. -/
theorem run_evict_debug (hQ : Closed Q) (depth : ℕ) {ds : List Event} {p : List UInt8}
    (h : Holds w cs is (encoded (e :: ds) ++ p) written next) (hq : Q cs is (e :: ds)) :
    ∃ w' cs' is', (evict (depth + 3) .debug).run w = (w', .ok ()) ∧
      Holds w' cs' is' (encoded ds ++ p) written next ∧ Q cs' is' ds := by
  rw [encoded_cons, List.append_assoc] at h
  have hdata : (w.events.buf .debug).data = e.bytes ++ (encoded ds ++ p) := h.debug
  rw [run_evict rfl (depth + 2) hdata, Prog.onlyIf]
  split
  case isTrue hprio =>
    let I : EventWriter N → List Event → Prop := fun w is' =>
      ∃ cs', Holds w cs' is' (e.bytes ++ (encoded ds ++ p)) written next ∧ Q cs' is' (e :: ds)
    have hevict : ∀ w i is', I w (i :: is') →
        ∃ w', (evict (depth + 2) .info).run w = (w', .ok ()) ∧ I w' is' := by
      rintro w i is' ⟨cs', h, hq⟩
      obtain ⟨w', cs'', hrun, h', hq'⟩ := run_evict_info hQ depth h hq
      exact ⟨w', hrun, cs'', h', hq'⟩
    obtain ⟨w', is', b, hrun, ⟨cs', h', hq'⟩, hb⟩ := run_promote I .debug .info
      (by rintro w _ ⟨_, h, _⟩; exact h.debug) (by rintro w _ ⟨_, h, _⟩; exact h.info) hevict ⟨cs, h, hq⟩
    have hpromoted : Holds { w' with events := w'.events.setBuf b .info } cs' (is' ++ [e])
        (e.bytes ++ (encoded ds ++ p)) written next :=
      ⟨h'.critical, hb, h'.debug, h'.written, h'.next⟩
    obtain ⟨w'', hrun', h''⟩ := run_evictFirst_debug hpromoted
    refine ⟨w'', cs', is' ++ [e], ?_, h'', hQ.promoteDebug hq' hprio⟩
    rw [run_bind_of_ok hrun, hrun']
  case isFalse hprio =>
    obtain ⟨w', hrun, h'⟩ := run_evictFirst_debug h
    refine ⟨w', cs, is, ?_, h', hQ.dropDebug hq hprio⟩
    rw [run_bind_of_ok (run_pure _ w), hrun]

end EventWriter

/-! ## Writing -/

/-- The rings hold events with a property, and behind those of the debug ring the bytes `p` of an
event being written. -/
structure Rings {N : ℕ} (Q : List Event → List Event → List Event → Prop) (w : EventWriter N)
    (ds : List Event) (p : List UInt8) (next : BitVec 64) : Prop where
  /-- what the buffers hold, and which events they are -/
  holds : ∃ cs is, Holds w cs is (encoded ds ++ p) p.length next ∧ Q cs is ds

namespace EventWriter

variable {N : ℕ} {Q : List Event → List Event → List Event → Prop} {w : EventWriter N}
  {ds : List Event} {p : List UInt8} {next : BitVec 64}

theorem length_le_of_rings (h : Rings Q w ds p next) : (encoded ds).length + p.length ≤ N := by
  obtain ⟨cs, is, h, -⟩ := h
  have hle := w.events.bufDebug.le
  rw [h.debug, List.length_append] at hle
  exact hle

theorem run_appendByte_of_room (h : Rings Q w ds p next)
    (hroom : (encoded ds).length + p.length < N) (byte : UInt8) (fuel : ℕ) :
    ∃ w', (appendByte byte (fuel + 1)).run w = (w', .ok ()) ∧
      Rings Q { w' with bytesWritten := w'.bytesWritten + 1 } ds (p ++ [byte]) next := by
  obtain ⟨cs, is, h, hq⟩ := h
  have hfits : w.events.bufDebug.data.length + [byte].length ≤ N := by
    rw [h.debug, List.length_append, List.length_singleton]
    omega
  obtain ⟨b, hb, hdata⟩ := EventsBuf.appendSlice_of_le hfits
  refine ⟨{ w with events := { w.events with bufDebug := b } }, ?_, cs, is, ?_, hq⟩
  · simp only [Prog.run, appendByte, EventsBuf.append, hb]
  · refine ⟨h.critical, h.info, ?_, ?_, h.next⟩
    · rw [hdata, h.debug, List.append_assoc]
    · rw [h.written, List.length_append, List.length_singleton]

theorem run_appendByte_of_full {byte : UInt8} (hfull : w.events.bufDebug.append byte = none)
    (fuel : ℕ) : (appendByte byte (fuel + 1)).run w =
      (do evict 3 .debug; appendByte byte fuel : Prog Fault (EventWriter N) Unit).run w := by
  simp only [Prog.run, appendByte, hfull]

/-- **Appending a byte** of an event that is not too large: the oldest event gives way if the
buffer is full, and one is enough. -/
theorem run_appendByte (hQ : Closed Q) (h : Rings Q w ds p next) (hp : p.length < N) (byte : UInt8) (fuel : ℕ) :
    ∃ w' ds', (appendByte byte (fuel + 2)).run w = (w', .ok ()) ∧
      Rings Q { w' with bytesWritten := w'.bytesWritten + 1 } ds' (p ++ [byte]) next ∧
      ds'.IsSuffix ds := by
  have hle := length_le_of_rings h
  by_cases hroom : (encoded ds).length + p.length < N
  · obtain ⟨w', hrun, h'⟩ := run_appendByte_of_room h hroom byte (fuel + 1)
    exact ⟨w', ds, hrun, h', List.suffix_refl ds⟩
  · obtain ⟨cs, is, hholds, hq⟩ := h
    cases ds with
    | nil => exact absurd hp (by simpa [encoded] using hroom)
    | cons e ds =>
      obtain ⟨w', cs', is', hrun, h', hq'⟩ := run_evict_debug hQ 0 hholds hq
      have hrings : Rings Q w' ds p next := ⟨cs', is', h', hq'⟩
      have hroom' : (encoded ds).length + p.length < N := by
        have hpos := e.one_le_length_bytes
        rw [encoded_cons, List.length_append] at hle
        omega
      obtain ⟨w'', hrun', h''⟩ := run_appendByte_of_room hrings hroom' byte fuel
      refine ⟨w'', ds, ?_, h'', List.suffix_cons e ds⟩
      have hfull : w.events.bufDebug.append byte = none := by
        refine EventsBuf.appendSlice_of_lt ?_
        rw [hholds.debug, List.length_append, List.length_singleton]
        omega
      rw [run_appendByte_of_full hfull, run_bind_of_ok hrun, hrun']

theorem run_write (hQ : Closed Q) (hN : N ≠ 0) (h : Rings Q w ds p next) (hp : p.length < N) (byte : UInt8) :
    ∃ w' ds', (write byte).run w = (w', .ok ()) ∧ Rings Q w' ds' (p ++ [byte]) next ∧
      ds'.IsSuffix ds := by
  obtain ⟨fuel, hfuel⟩ := Nat.exists_eq_add_of_le' (show 2 ≤ N + 1 by omega)
  obtain ⟨w', ds', hrun, h', hsuffix⟩ := run_appendByte hQ h hp byte fuel
  rw [← hfuel] at hrun
  obtain ⟨cs, is, h, -⟩ := h
  refine ⟨_, ds', ?_, h', hsuffix⟩
  rw [write, if_neg hN, run_bind_of_ok (run_get w),
    run_bind_of_ok (run_ensure_of_pos (by rw [h.written]; exact Nat.ne_of_lt hp) _ w),
    run_bind_of_ok hrun, run_modify]

theorem run_write_of_full (hN : N ≠ 0) (h : Rings Q w ds p next) (hp : p.length = N)
    (byte : UInt8) : (write byte).run w = (w, .error (.error .resourceExhausted)) := by
  obtain ⟨cs, is, h, -⟩ := h
  have hfull : ¬w.bytesWritten ≠ N := not_not.mpr (h.written.trans hp)
  rw [write, if_neg hN, run_bind_of_ok (run_get w),
    run_bind_of_error (run_ensure_of_neg hfull _ w)]

theorem run_rewindTo (h : Rings Q w ds p next) {pos : ℕ} (hpos : pos ≤ p.length) :
    ∃ w', (rewindTo pos).run w = (w', .ok ()) ∧ Rings Q w' ds (p.take pos) next := by
  obtain ⟨cs, is, h, hq⟩ := h
  have hsplit : w.events.bufDebug.data = (encoded ds ++ p.take pos) ++ p.drop pos := by
    rw [h.debug, List.append_assoc, List.take_append_drop]
  obtain ⟨b, hb, hdata⟩ := EventsBuf.rewindBy_eq hsplit
  have hlen : w.bytesWritten - pos = (p.drop pos).length := by
    rw [h.written, List.length_drop]
  have hle : pos ≤ w.bytesWritten := h.written ▸ hpos
  refine ⟨{ events := w.events.setBuf b .debug, bytesWritten := pos }, ?_, cs, is, ?_, hq⟩
  · rw [rewindTo, run_bind_of_ok (run_get w),
      run_bind_of_ok (run_ensure_of_pos hle _ w), hlen,
      run_bind_of_ok (run_change hb), run_modify]
  · refine ⟨h.critical, h.info, hdata, ?_, h.next⟩
    rw [List.length_take, Nat.min_eq_left hpos]

end EventWriter

namespace Emit

variable {N : ℕ} {Q : List Event → List Event → List Event → Prop} {w : EventWriter N}
  {ds : List Event} {p : List UInt8} {next : BitVec 64}

/-- **A program on the queue** does what it does on a plain writer; the events make way as
needed. -/
theorem run_exec (hQ : Closed Q) (emit : Emit) {p' : List UInt8} {r : Except ErrorCode Unit}
    (hplain : emit.plain N p = some (p', r)) (h : Rings Q w ds p next) :
    ∃ w' ds', emit.exec.run w = (w', r.mapError Fault.error) ∧ Rings Q w' ds' p' next ∧
      ds'.IsSuffix ds := by
  induction emit generalizing w ds p with
  | done result =>
    obtain ⟨rfl, rfl⟩ := Prod.mk.inj (Option.some.inj hplain)
    refine ⟨w, ds, ?_, h, List.suffix_refl ds⟩
    cases result <;> rfl
  | write byte k ih =>
    rw [plain] at hplain
    have hle := EventWriter.length_le_of_rings h
    split at hplain
    case isTrue hN =>
      obtain ⟨w', ds', hrun, h', hsuffix⟩ := ih _ hplain h
      refine ⟨w', ds', ?_, h', hsuffix⟩
      have hwrite : (EventWriter.write byte).run w = (w, .ok ()) := by
        rw [EventWriter.write, if_pos hN, run_pure]
      simp only [Prog.run, exec] at hwrite hrun ⊢
      rw [hwrite]
      exact hrun
    case isFalse hN =>
      split at hplain
      case isTrue hfull =>
        obtain ⟨w', ds', hrun, h', hsuffix⟩ := ih _ hplain h
        refine ⟨w', ds', ?_, h', hsuffix⟩
        have hwrite := EventWriter.run_write_of_full hN h hfull byte
        simp only [Prog.run, exec] at hwrite hrun ⊢
        rw [hwrite]
        exact hrun
      case isFalse hroom =>
        obtain ⟨w', ds', hwrite, h', hsuffix⟩ := EventWriter.run_write hQ hN h (by omega) byte
        obtain ⟨w'', ds'', hrun, h'', hsuffix'⟩ := ih _ hplain h'
        refine ⟨w'', ds'', ?_, h'', hsuffix'.trans hsuffix⟩
        simp only [Prog.run, exec] at hwrite hrun ⊢
        rw [hwrite]
        exact hrun
  | getTail k ih =>
    obtain ⟨w', ds', hrun, h', hsuffix⟩ := ih _ hplain h
    refine ⟨w', ds', ?_, h', hsuffix⟩
    obtain ⟨cs, is, h, -⟩ := h
    rw [← h.written] at hrun
    exact hrun
  | rewindTo pos k ih =>
    rw [plain] at hplain
    split at hplain
    case isTrue hpos =>
      obtain ⟨w', hrewind, h'⟩ := EventWriter.run_rewindTo h hpos
      obtain ⟨w'', ds', hrun, h'', hsuffix⟩ := ih hplain h'
      refine ⟨w'', ds', ?_, h'', hsuffix⟩
      rw [exec, run_bind_of_ok hrewind, hrun]
    case isFalse => cases hplain

theorem length_plain_le (emit : Emit) {p' : List UInt8} {r : Except ErrorCode Unit}
    (hplain : emit.plain N p = some (p', r)) (hp : p.length ≤ N) : p'.length ≤ N := by
  induction emit generalizing p with
  | done result =>
    obtain ⟨rfl, rfl⟩ := Prod.mk.inj (Option.some.inj hplain)
    exact hp
  | write byte k ih =>
    rw [plain] at hplain
    split_ifs at hplain with hN hfull
    · exact ih _ hplain hp
    · exact ih _ hplain hp
    · refine ih _ hplain ?_
      rw [List.length_append, List.length_singleton]
      omega
  | getTail k ih => exact ih _ hplain hp
  | rewindTo pos k ih =>
    rw [plain] at hplain
    split_ifs at hplain
    refine ih hplain ?_
    rw [List.length_take]
    omega

theorem plain_writeAll (bytes : List UInt8) (hp : p.length ≤ N) :
    ∃ p' r, (writeAll bytes).plain N p = some (p', r) ∧ (N ≠ 0 → r = .ok () → p' = p ++ bytes) := by
  induction bytes generalizing p with
  | nil => exact ⟨p, .ok (), rfl, fun _ _ => (List.append_nil p).symm⟩
  | cons byte bytes ih =>
    rw [writeAll, plain]
    split_ifs with hN hfull
    · obtain ⟨p', r, hplain, -⟩ := ih hp
      exact ⟨p', r, hplain, fun hne => absurd hN hne⟩
    · exact ⟨p, _, rfl, fun _ h => nomatch h⟩
    · have hp' : (p ++ [byte]).length ≤ N := by
        rw [List.length_append, List.length_singleton]
        omega
      obtain ⟨p', r, hplain, hbytes⟩ := ih hp'
      refine ⟨p', r, hplain, fun hne hr => ?_⟩
      rw [hbytes hne hr, List.append_assoc, List.singleton_append]

theorem plain_andThen (a b : Emit) :
    (a.andThen b).plain N p =
      (a.plain N p).bind fun
        | (p', .ok ()) => b.plain N p'
        | (p', .error code) => some (p', .error code) := by
  induction a generalizing p with
  | done result => cases result <;> rfl
  | write byte k ih =>
    rw [andThen, plain, plain]
    split_ifs <;> exact ih _
  | getTail k ih => exact ih _
  | rewindTo pos k ih =>
    rw [andThen, plain, plain]
    split_ifs
    · exact ih
    · rfl

theorem plain_andThen_of_appends {a b : Emit} {x y : List UInt8} (hp : p.length ≤ N)
    (ha : ∃ p' r, a.plain N p = some (p', r) ∧ (N ≠ 0 → r = .ok () → p' = p ++ x))
    (hb : ∀ p', p'.length ≤ N → (N ≠ 0 → p' = p ++ x) →
      ∃ p'' r, b.plain N p' = some (p'', r) ∧ (N ≠ 0 → r = .ok () → p'' = p' ++ y)) :
    ∃ p' r, (a.andThen b).plain N p = some (p', r) ∧ (N ≠ 0 → r = .ok () → p' = p ++ (x ++ y)) := by
  obtain ⟨p', r, ha, hx⟩ := ha
  rw [plain_andThen, ha, Option.bind_some]
  cases r with
  | error code => exact ⟨p', .error code, rfl, fun _ h => nomatch h⟩
  | ok _ =>
    obtain ⟨p'', r, hb, hy⟩ := hb p' (a.length_plain_le ha hp) fun hN => hx hN rfl
    refine ⟨p'', r, hb, fun hN hr => ?_⟩
    rw [hy hN hr, hx hN rfl, List.append_assoc]

end Emit

/-! ## A push -/

theorem plain_push (N : ℕ) (p : Push) (number : BitVec 64) :
    ∃ p' r, ((Emit.writeAll (p.preamble number)).andThen
        (p.f.emit.andThen (Emit.writeAll (elemBytes .anonymous .endCnt)))).plain N [] =
          some (p', r) ∧
      (N ≠ 0 → r = .ok () → p' = (p.toEvent N number).bytes) := by
  let pre := p.preamble number
  let data := (p.f.data N pre).bytes
  suffices h : ∃ p' r, ((Emit.writeAll pre).andThen
      (p.f.emit.andThen (Emit.writeAll (elemBytes .anonymous .endCnt)))).plain N [] =
        some (p', r) ∧
      (N ≠ 0 → r = .ok () → p' = [] ++ (pre ++ (data ++ elemBytes .anonymous .endCnt))) by
    rw [Event.bytes_eq]
    exact h
  refine Emit.plain_andThen_of_appends (Nat.zero_le N) (Emit.plain_writeAll pre (Nat.zero_le N)) ?_
  intro p' hp' hpre
  refine Emit.plain_andThen_of_appends hp' ?_ fun p'' hp'' _ => Emit.plain_writeAll _ hp''
  obtain ⟨p'', r, hplain, hdata⟩ := p.f.writes N p' hp'
  refine ⟨p'', r, hplain, fun hN hr => ?_⟩
  rw [hdata hN hr, hpre hN, List.nil_append]

/-- **A push** neither panics nor runs forever. It appends its event to the debug ring, or takes
back what it has written; other events may have given way. A queue without buffers takes no
event. -/
theorem push_rings {N : ℕ} {Q : List Event → List Event → List Event → Prop} (hQ : Closed Q)
    {s : EventsInner N} {ds : List Event} (p : Push) (number : BitVec 64)
    (h : Rings Q ⟨s, 0⟩ ds [] s.nextEventNumber) :
    ∃ s' r cs is ds', s.push p number = (s', r) ∧ Q cs is ds' ∧ ds'.IsSuffix ds ∧
      ((∃ code, r = .error (.error code) ∧
          Holds ⟨s', 0⟩ cs is (encoded ds') 0 s.nextEventNumber) ∨
        r = .ok () ∧ Holds ⟨s', 0⟩ cs is
          (encoded (if N = 0 then ds' else ds' ++ [p.toEvent N number])) 0 s.nextEventNumber) := by
  obtain ⟨p', r, hplain, hbytes⟩ := plain_push N p number
  obtain ⟨w, ds', hrun, hrings', hsuffix⟩ := Emit.run_exec hQ _ hplain h
  rw [EventsInner.push]
  cases r with
  | error code =>
    obtain ⟨w', hrewind, cs, is, h, hq⟩ := EventWriter.run_rewindTo hrings' (Nat.zero_le _)
    refine ⟨w'.events, .error (.error code), cs, is, ds', ?_, hq, hsuffix, .inl ⟨code, rfl, ?_⟩⟩
    · simp only [hrun, Except.mapError, hrewind]
    · rw [List.take_zero, List.append_nil] at h
      exact ⟨h.critical, h.info, h.debug, rfl, h.next⟩
  | ok _ =>
    have hle := Emit.length_plain_le _ hplain (Nat.zero_le N)
    obtain ⟨cs, is, h, hq⟩ := hrings'
    refine ⟨w.events, .ok (), cs, is, ds', ?_, hq, hsuffix, .inr ⟨rfl, h.critical, h.info, ?_, rfl, h.next⟩⟩
    · simp only [hrun, Except.mapError]
    by_cases hN : N = 0
    · have hnil : p' = [] := List.eq_nil_of_length_eq_zero (by omega)
      rw [if_pos hN, ← List.append_nil (encoded ds'), ← hnil]
      exact h.debug
    · rw [if_neg hN, encoded_concat, ← hbytes hN rfl]
      exact h.debug

/-- The rings of a queue, with no event being written, hold what is left of `all`; the debug
ring holds the last of them, if it can hold any. -/
def Wf {N : ℕ} (s : EventsInner N) (all : List Event) : Prop :=
  ∃ ds, Rings (fun cs is ds => (cs ++ is ++ ds).Sublist all) ⟨s, 0⟩ ds [] s.nextEventNumber ∧
    (N ≠ 0 → ds.IsSuffix all)

theorem Holds.wf {N : ℕ} {w : EventWriter N} {cs is ds all : List Event} {written : ℕ}
    {next : BitVec 64} (h : Holds w cs is (encoded ds) written next)
    (hsub : (cs ++ is ++ ds).Sublist all) (hds : N ≠ 0 → ds.IsSuffix all) : Wf w.events all := by
  refine ⟨ds, ⟨cs, is, ⟨h.critical, h.info, ?_, rfl, rfl⟩, hsub⟩, hds⟩
  rw [List.append_nil]
  exact h.debug

theorem push_spec {N : ℕ} {s : EventsInner N} {all : List Event} (p : Push) (number : BitVec 64)
    (h : Wf s all) :
    ∃ s' r, s.push p number = (s', r) ∧ s'.nextEventNumber = s.nextEventNumber ∧
      ((∃ code, r = .error (.error code) ∧ Wf s' all) ∨
        r = .ok () ∧ Wf s' (all ++ [p.toEvent N number])) := by
  obtain ⟨ds, hrings, hds⟩ := h
  obtain ⟨s', r, cs, is, ds', hrun, hsub, hsuffix, hcases⟩ :=
    push_rings (closed_sublist all) p number hrings
  have hds' : N ≠ 0 → ds'.IsSuffix all := fun hN => hsuffix.trans (hds hN)
  refine ⟨s', r, hrun, ?_⟩
  rcases hcases with ⟨code, rfl, h⟩ | ⟨rfl, h⟩
  · exact ⟨h.next, .inl ⟨code, rfl, h.wf hsub hds'⟩⟩
  · refine ⟨h.next, .inr ⟨rfl, h.wf ?_ fun hN => ?_⟩⟩
    · split_ifs
      · exact hsub.trans (List.sublist_append_left ..)
      · rw [← List.append_assoc]
        exact hsub.append_right _
    · rw [if_neg hN]
      obtain ⟨front, hfront⟩ := hds' hN
      exact ⟨front, by rw [← List.append_assoc, hfront]⟩

/-! ## Iterating -/

structure EventData.Reads (d : EventData) (e : Event) : Prop where
  path : d.path = ⟨none, some e.endpoint, some e.cluster, some e.event, none⟩
  eventNumber : d.eventNumber = e.number
  priority : d.priority = e.priority
  timestamp : d.timestamp = e.timestamp
  data : e.data.bytes.IsPrefix d.data

theorem EventData.exists_reads (e : Event) (htag : e.data.tag = .context 7) (rest : List UInt8) :
    ∃ d, fromTlv (e.bytes ++ rest) = .ok d ∧ d.Reads e :=
  ⟨_, fromTlv_bytes e htag rest, ⟨rfl, rfl, rfl, rfl, List.prefix_append ..⟩⟩

namespace EventsInner

variable {N : ℕ} {s : EventsInner N}

/-- The iterator reads the events of a buffer and goes on behind them. -/
theorem iterFrom_encoded {fuel : ℕ} {bufRef : EventPriority} {tail : List EventData}
    (htail : iterFrom s fuel bufRef [] = .ok tail) (es : List Event)
    (htag : ∀ e ∈ es, e.data.tag = .context 7) :
    ∃ out, iterFrom s (fuel + es.length) bufRef (encoded es) = .ok (out ++ tail) ∧
      List.Forall₂ EventData.Reads out es := by
  induction es with
  | nil => exact ⟨[], htail, .nil⟩
  | cons e es ih =>
    obtain ⟨out, hout, hreads⟩ := ih fun e' he' => htag e' (List.mem_cons_of_mem e he')
    obtain ⟨d, hd, hread⟩ := EventData.exists_reads e (htag e List.mem_cons_self) (encoded es)
    refine ⟨d :: out, ?_, .cons hread hreads⟩
    rw [List.length_cons, ← Nat.add_assoc, iterFrom, encoded_cons, Event.bytes,
      TLVSequence.iterNext_tree, unwrap, ok_bind]
    simp only
    rw [← Event.bytes, hd, unwrap, ok_bind, hout, ok_bind]
    rfl

/-- Behind the events of a buffer come those of the next lower priority. -/
theorem iterFrom_prev (fuel : ℕ) (bufRef : EventPriority) {prev : EventPriority} (h : bufRef.prev = some prev) :
    iterFrom s (fuel + 1) bufRef [] = iterFrom s fuel prev (s.buf prev).data := by
  cases bufRef with
  | debug => cases h
  | info | critical =>
    cases h
    rfl

theorem iterFrom_done (fuel : ℕ) : iterFrom s (fuel + 1) .debug [] = .ok [] := rfl

/-- **The iterator** yields the events of the critical, the info and the debug ring. -/
theorem iter_eq {cs is ds : List Event} (hc : s.bufCritical.data = encoded cs)
    (hi : s.bufInfo.data = encoded is) (hd : s.bufDebug.data = encoded ds)
    (htag : ∀ e ∈ cs ++ is ++ ds, e.data.tag = .context 7) :
    ∃ out, s.iter = .ok out ∧ List.Forall₂ EventData.Reads out (cs ++ is ++ ds) := by
  have hcs := length_le_encoded cs
  have his := length_le_encoded is
  have hds := length_le_encoded ds
  have hc' := s.bufCritical.le
  have hi' := s.bufInfo.le
  have hd' := s.bufDebug.le
  rw [hc] at hc'
  rw [hi] at hi'
  rw [hd] at hd'
  obtain ⟨fuel, hfuel⟩ : ∃ fuel, 3 * (N + 1) =
      fuel + 1 + ds.length + 1 + is.length + 1 + cs.length :=
    ⟨3 * N - ds.length - is.length - cs.length, by omega⟩
  simp only [List.mem_append] at htag
  obtain ⟨outD, houtD, hreadsD⟩ :=
    iterFrom_encoded (iterFrom_done fuel) ds fun e he => htag e (.inr he)
  rw [← hd] at houtD
  obtain ⟨outI, houtI, hreadsI⟩ := iterFrom_encoded
    ((iterFrom_prev _ .info rfl).trans houtD) is fun e he => htag e (.inl (.inr he))
  rw [← hi] at houtI
  obtain ⟨outC, houtC, hreadsC⟩ := iterFrom_encoded
    ((iterFrom_prev _ .critical rfl).trans houtI) cs fun e he => htag e (.inl (.inl he))
  refine ⟨outC ++ outI ++ outD, ?_, List.rel_append (List.rel_append hreadsC hreadsI) hreadsD⟩
  rw [iter, hfuel, hc, houtC]
  simp

end EventsInner

/-! ## Runs -/

namespace EventsInner

/-- Drawing a number fails and changes nothing, or gives the next number and moves on. -/
theorem drawEventNumber_cases {N : ℕ} (s : EventsInner N) (stored : Except ErrorCode Unit) :
    (∃ code, (drawEventNumber stored).run s = (s, .error code)) ∨
      (drawEventNumber stored).run s =
        ({ s with nextEventNumber := numberAfter s.nextEventNumber }, .ok s.nextEventNumber) := by
  rw [drawEventNumber, run_bind_of_ok (run_get s)]
  by_cases hepoch : s.nextEventNumber = 1 ∨ s.nextEventNumber.toNat % eventNumberEpochSize = 0
  · simp only [Prog.onlyIf, if_pos hepoch]
    cases stored with
    | error code => exact .inl ⟨code, rfl⟩
    | ok _ => exact .inr rfl
  · simp only [Prog.onlyIf, if_neg hepoch]
    exact .inr rfl

end EventsInner

/-- The queue holds what is left of the events pushed, and each of them has data. -/
def Inv {N : ℕ} (s : Log N) : Prop :=
  Wf s.inner s.pushed ∧ ∀ e ∈ s.pushed, e.data.tag = .context 7

theorem wf_of_bufs {N : ℕ} {s : EventsInner N} {all : List Event} (h : Wf s all)
    (next : BitVec 64) : Wf { s with nextEventNumber := next } all := by
  obtain ⟨ds, ⟨cs, is, h, hsub⟩, hds⟩ := h
  exact ⟨ds, ⟨cs, is, ⟨h.critical, h.info, h.debug, rfl, rfl⟩, hsub⟩, hds⟩

theorem inv_start (N : ℕ) (first : BitVec 64) : Inv (Log.start N first) := by
  refine ⟨⟨[], ⟨[], [], ⟨rfl, rfl, rfl, rfl, rfl⟩, List.nil_sublist _⟩, ?_⟩, ?_⟩
  · exact fun _ => List.suffix_refl _
  · intro e he
    cases he

/-- **One push** is always possible and keeps the invariant. It draws no number, or the next
one, under which its event may be published. -/
theorem step_spec {N : ℕ} {s : Log N} (h : Inv s) (p : Push) :
    ∃ s', (machine N).step s p = some s' ∧ Inv s' ∧
      (s'.inner.nextEventNumber = s.inner.nextEventNumber ∧ s'.pushed = s.pushed ∨
        s'.inner.nextEventNumber = EventsInner.numberAfter s.inner.nextEventNumber ∧
          (s'.pushed = s.pushed ∨
            s'.pushed = s.pushed ++ [p.toEvent N s.inner.nextEventNumber])) := by
  rcases s.inner.drawEventNumber_cases p.stored with ⟨code, hdraw⟩ | hdraw
  · refine ⟨s, ?_, h, .inl ⟨rfl, rfl⟩⟩
    simp only [machine, hdraw]
  · obtain ⟨inner, r, hpush, hnext, ⟨code, rfl, hwf⟩ | ⟨rfl, hwf⟩⟩ :=
      push_spec p s.inner.nextEventNumber
        (wf_of_bufs h.1 (EventsInner.numberAfter s.inner.nextEventNumber))
    · refine ⟨⟨inner, s.pushed⟩, ?_, ⟨hwf, h.2⟩, .inr ⟨hnext, .inl rfl⟩⟩
      simp only [machine, hdraw, hpush]
    · refine ⟨⟨inner, _⟩, ?_, ⟨hwf, ?_⟩, .inr ⟨hnext, .inr rfl⟩⟩
      · simp only [machine, hdraw, hpush]
      · intro e he
        rcases List.mem_append.mp he with he | he
        · exact h.2 e he
        · rw [List.mem_singleton.mp he]
          exact p.f.tag_data ..

theorem run_spec {N : ℕ} {s : Log N} (h : Inv s) (pushes : List Push) :
    ∃ s', (machine N).run s pushes = some s' ∧ Inv s' := by
  induction pushes generalizing s with
  | nil => exact ⟨s, rfl, h⟩
  | cons p pushes ih =>
    obtain ⟨s', hstep, h', -⟩ := step_spec h p
    obtain ⟨s'', hrun, h''⟩ := ih h'
    exact ⟨s'', Machine.run_cons_eq_some.mpr ⟨s', hstep, hrun⟩, h''⟩

/-- The numbers of the events pushed increase and are below `bound`, which is the next one
unless the counter has wrapped. -/
structure Numbered {N : ℕ} (s : Log N) (bound : ℕ) : Prop where
  next : bound < 2 ^ 64 → s.inner.nextEventNumber.toNat = bound
  lt : ∀ e ∈ s.pushed, e.number.toNat < bound
  sorted : s.pushed.Pairwise fun a b => a.number < b.number

theorem Numbered.step {N : ℕ} {s s' : Log N} {bound : ℕ} {p : Push} (h : Numbered s bound)
    (hinv : Inv s) (hbound : bound < 2 ^ 64) (hstep : (machine N).step s p = some s') :
    ∃ bound' ≤ bound + 1, Numbered s' bound' := by
  obtain ⟨t, ht, -, hcases⟩ := step_spec hinv p
  obtain rfl : t = s' := Option.some.inj (ht.symm.trans hstep)
  have hnext := h.next hbound
  rcases hcases with ⟨hsame, hpushed⟩ | ⟨hdraw, hpushed⟩
  · exact ⟨bound, Nat.le_succ bound, ⟨fun _ => hsame ▸ hnext, hpushed ▸ h.lt, hpushed ▸ h.sorted⟩⟩
  · refine ⟨bound + 1, le_rfl, ⟨?_, ?_, ?_⟩⟩
    · intro hlt
      have hsucc : (s.inner.nextEventNumber + 1).toNat = bound + 1 := by
        rw [BitVec.toNat_add, hnext]
        exact Nat.mod_eq_of_lt hlt
      have hne : s.inner.nextEventNumber + 1 ≠ 0 := by
        intro h0
        rw [h0] at hsucc
        exact absurd hsucc (Nat.succ_ne_zero bound).symm
      rw [hdraw, EventsInner.numberAfter, if_neg hne, hsucc]
    · rcases hpushed with hpushed | hpushed
      · intro e he
        exact Nat.lt_succ_of_lt (h.lt e (hpushed ▸ he))
      · intro e he
        rw [hpushed] at he
        rcases List.mem_append.mp he with he | he
        · exact Nat.lt_succ_of_lt (h.lt e he)
        · rw [List.mem_singleton.mp he]
          exact Nat.lt_succ_of_le (Nat.le_of_eq hnext)
    · rcases hpushed with hpushed | hpushed
      · exact hpushed ▸ h.sorted
      · rw [hpushed, List.pairwise_append]
        refine ⟨h.sorted, List.pairwise_singleton _ _, fun a ha b hb => ?_⟩
        rw [List.mem_singleton.mp hb]
        show a.number.toNat < s.inner.nextEventNumber.toNat
        rw [hnext]
        exact h.lt a ha

theorem Numbered.run {N : ℕ} {s s' : Log N} {bound : ℕ} {pushes : List Push}
    (h : Numbered s bound) (hinv : Inv s) (hbound : bound + pushes.length ≤ 2 ^ 64)
    (hrun : (machine N).run s pushes = some s') : ∃ bound', Numbered s' bound' := by
  induction pushes generalizing s bound with
  | nil => exact ⟨bound, Option.some.inj hrun ▸ h⟩
  | cons p pushes ih =>
    rw [List.length_cons] at hbound
    obtain ⟨t, hstep, hrun⟩ := Machine.run_cons_eq_some.mp hrun
    obtain ⟨t', ht', hinv', -⟩ := step_spec hinv p
    obtain rfl : t' = t := Option.some.inj (ht'.symm.trans hstep)
    obtain ⟨bound', hle, h'⟩ := h.step hinv (by omega) hstep
    exact ih h' hinv' (by omega) hrun

theorem pairwise_of_reads {out : List EventData} {es : List Event}
    (h : List.Forall₂ EventData.Reads out es) (hes : es.Pairwise fun a b => a.number < b.number) :
    out.Pairwise fun a b => a.eventNumber < b.eventNumber := by
  have hmap : out.map EventData.eventNumber = es.map Event.number := by
    induction h with
    | nil => rfl
    | cons hread _ ih => rw [List.map_cons, List.map_cons, hread.eventNumber, ih hes.of_cons]
  rw [← List.pairwise_map (f := EventData.eventNumber) (R := (· < ·)), hmap, List.pairwise_map]
  exact hes

/-- **Event rings stay well formed**: from an empty queue, whatever its next number, every
sequence of pushes goes through without a panic or an endless loop. Afterwards each ring is a
concatenation of whole events; together, from critical to debug, these are a sublist of the
events pushed, so each of them is there once and in the order of the pushes, and the iterator
reads them back in this order. Their numbers increase as long as the 64-bit counter has not
wrapped. -/
theorem rings_of_run (N : ℕ) (first : BitVec 64) (pushes : List Push) :
    ∃ s, (machine N).run (Log.start N first) pushes = some s ∧
      ∃ critical info debug : List Event,
        s.inner.bufCritical.data = encoded critical ∧ s.inner.bufInfo.data = encoded info ∧
        s.inner.bufDebug.data = encoded debug ∧
        (critical ++ info ++ debug).Sublist s.pushed ∧
        ∃ out, s.inner.iter = .ok out ∧
          List.Forall₂ EventData.Reads out (critical ++ info ++ debug) ∧
          (first.toNat + pushes.length ≤ 2 ^ 64 →
            out.Pairwise fun a b => a.eventNumber < b.eventNumber) := by
  obtain ⟨s, hrun, ⟨debug, ⟨critical, info, h, hsub⟩, -⟩, htag⟩ :=
    run_spec (inv_start N first) pushes
  have hdebug : s.inner.bufDebug.data = encoded debug := h.debug.trans (List.append_nil _)
  obtain ⟨out, hout, hreads⟩ :=
    EventsInner.iter_eq h.critical h.info hdebug fun e he => htag e (hsub.subset he)
  refine ⟨s, hrun, critical, info, debug, h.critical, h.info, hdebug, hsub, out, hout, hreads, ?_⟩
  intro hbound
  have hstart : Numbered (Log.start N first) first.toNat := by
    refine ⟨fun _ => rfl, ?_, List.Pairwise.nil⟩
    intro e he
    cases he
  obtain ⟨bound, hnumbered⟩ := hstart.run (inv_start N first) hbound hrun
  exact pairwise_of_reads hreads (hnumbered.sorted.sublist hsub)

def DataWriter.ofTree (t : TLVTree LeafCall) (htag : t.tag = .context 7) : DataWriter where
  emit := .writeAll t.bytes
  data _ _ := t
  tag_data _ _ := htag
  writes _ _ hw := Emit.plain_writeAll t.bytes hw

def criticalPush : Push :=
  ⟨42, 1, 0xb33f, .critical, .epochTimestamp 10001,
    .ofTree (.leaf (.context 7) (.u64 1337)) rfl, .ok ()⟩

def numbers {N : ℕ} (s : Log N) : List ℕ :=
  match s.inner.iter with
  | .ok out => out.map fun d => d.eventNumber.toNat
  | .error _ => []

/-- Behind the largest number the counter wraps to 1, and the iterator yields decreasing
numbers. -/
theorem not_increasing_wrapped :
    ∃ s out, (machine 64).run (Log.start 64 (BitVec.allOnes 64)) [criticalPush, criticalPush] =
        some s ∧ s.inner.iter = .ok out ∧
      ¬out.Pairwise fun a b => a.eventNumber < b.eventNumber := by
  have h : ((machine 64).run (Log.start 64 (BitVec.allOnes 64)) [criticalPush, criticalPush]).map
      numbers = some [2 ^ 64 - 1, 1] := by
    decide +kernel
  obtain ⟨s, hrun, hnumbers⟩ := Option.map_eq_some_iff.mp h
  rw [numbers] at hnumbers
  cases hiter : s.inner.iter with
  | error fault =>
    rw [hiter] at hnumbers
    cases hnumbers
  | ok out =>
    refine ⟨s, out, hrun, hiter, fun hsorted => ?_⟩
    rw [hiter] at hnumbers
    have hmap : (out.map fun d => d.eventNumber.toNat).Pairwise (· < ·) :=
      List.pairwise_map.mpr hsorted
    simp only at hnumbers
    rw [hnumbers] at hmap
    exact absurd hmap (by decide)

end Events

end RsMatter
