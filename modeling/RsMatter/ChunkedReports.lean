import RsMatter.ChunkLoops

/-!
# Chunked reports lose nothing

The chunks of a report are messages of their own, and what they report comes to what one message
would report, where a list may be split into its items. The chunks are filled one after the other,
each as far as the next report fits.

The array of the attributes and that of the events are closed in the room for reports, not in the
room that is kept for closing. If the last report fills the chunk to the last byte, the responder
fails. `ReportFrame.Packs` says when it does not.
-/

namespace RsMatter

/-! ## Messages -/

def reportsArray (tag : TLVTag) : Option (List (TLVTree LeafCall)) → List (TLVTree LeafCall)
  | some reports => [.node tag .array reports]
  | none => []

def reportFlag (tag : TLVTag) (flag : Bool) : List (TLVTree LeafCall) :=
  if flag then [.leaf tag (.bool true)] else []

structure ReportData where
  attributeReports : Option (List (TLVTree LeafCall))
  eventReports : Option (List (TLVTree LeafCall))
  moreChunkedMsgs : Bool
  supressResponse : Bool

namespace ReportData

def tree (f : ReportFrame) (m : ReportData) : TLVTree LeafCall :=
  .node .anonymous .struct (f.header ++
    (reportsArray ReportDataRespTag.attributeReports m.attributeReports ++
      (reportsArray ReportDataRespTag.eventReports m.eventReports ++
        (reportFlag ReportDataRespTag.moreChunkedMsgs m.moreChunkedMsgs ++
          reportFlag ReportDataRespTag.supressResponse m.supressResponse))))

/-- Is there more to come, and an answer needed? -/
def IsMore (m : ReportData) : Prop := m.moreChunkedMsgs = true ∧ m.supressResponse = false

end ReportData

def attrsOf (msgs : List ReportData) : List (TLVTree LeafCall) :=
  msgs.flatMap fun m => m.attributeReports.getD []

def eventsOf (msgs : List ReportData) : List (TLVTree LeafCall) :=
  msgs.flatMap fun m => m.eventReports.getD []

/-- Reports that stand for attributes: a list is whole, or an empty list and its items. -/
inductive StandsFor : List AttrItem → List (TLVTree LeafCall) → Prop
  | nil : StandsFor [] []
  | single (r : Report) {items : List AttrItem} {ts : List (TLVTree LeafCall)} :
      StandsFor items ts → StandsFor (.single r :: items) (r.trees ++ ts)
  | whole (l : ListAttr) {items : List AttrItem} {ts : List (TLVTree LeafCall)} :
      StandsFor items ts → StandsFor (.list l :: items) (l.whole.trees ++ ts)
  | split (l : ListAttr) {items : List AttrItem} {ts : List (TLVTree LeafCall)} :
      StandsFor items ts →
      StandsFor (.list l :: items) ((l.empty :: l.items).flatMap Report.trees ++ ts)

/-- The reports on the events with the numbers in question. -/
def pending (nextMaxSeen maxSeen : ℕ) (events : List StoredEvent) : List Report :=
  events.filterMap fun e =>
    if maxSeen < e.number ∧ e.number ≤ nextMaxSeen then e.report else none

def EventRequest.reports (req : EventRequest) : List Report :=
  req.statuses ++ pending req.nextMaxSeenEventNumber req.maxSeenEventNumber req.events

namespace ReportFrame

/-- **Lossless.** The responder ends well, and has sent messages that report what was asked for;
all but the last one announce more. -/
def Lossless (f : ReportFrame) (attrs : Option (List AttrItem)) (events : Option EventRequest)
    (suppressLastResp sendIfEmpty : Bool) : Prop :=
  ∃ fuel s, f.respond fuel attrs events suppressLastResp sendIfEmpty = some (.ok s) ∧
    ∃ msgs : List ReportData, s.sent = msgs.map (fun m => (m.tree f).bytes) ∧
      ((msgs = [] ∧ sendIfEmpty = false) ∨
        ∃ (init : List ReportData) (last : ReportData), msgs = init ++ [last] ∧ (∀ m ∈ init, m.IsMore) ∧
          last.moreChunkedMsgs = false ∧ last.supressResponse = suppressLastResp) ∧
      StandsFor (attrs.getD []) (attrsOf msgs) ∧
      eventsOf msgs = (events.elim [] EventRequest.reports).flatMap Report.trees

/-! ## Packing -/

/-- The room that is left once a report was written, in this chunk or in the next one. -/
def pack (e room : ℕ) (r : Report) : ℕ :=
  if r.need ≤ room then room - r.bytes.length else e - r.bytes.length

/-- The room that is left once a list was sent item by item. -/
def packList (e room : ℕ) (reports : List Report) (endNeed : ℕ) : ℕ :=
  if endNeed ≤ reports.foldl (pack e) room then reports.foldl (pack e) room else e

/-- The room that is left once an attribute was reported. -/
def packItem (e room : ℕ) : AttrItem → ℕ
  | .single r => pack e room r
  | .list l =>
    if l.whole.need ≤ room then room - l.whole.bytes.length
    else packList e room (l.empty :: l.items) l.endNeed

/-- The lists that are split have few enough items. -/
def FewItems (e : ℕ) : ℕ → List AttrItem → Prop
  | _, [] => True
  | room, .single r :: items => FewItems e (packItem e room (.single r)) items
  | room, .list l :: items =>
    (¬ l.whole.need ≤ room → l.items.length < 2 ^ 16) ∧ FewItems e (packItem e room (.list l)) items

variable {r : Report} {e room : ℕ}

theorem pack_retry (hr : r.need ≤ e) (hroom : ¬ r.need ≤ room) :
    pack e e r = pack e room r := by
  rw [pack, pack, if_pos hr, if_neg hroom]

theorem packList_retry {e room endNeed : ℕ} {rest : List Report} (hr : r.need ≤ e)
    (hroom : ¬ r.need ≤ room) :
    packList e e (r :: rest) endNeed = packList e room (r :: rest) endNeed := by
  rw [packList, packList, List.foldl_cons, List.foldl_cons, pack_retry hr hroom]

variable (f : ReportFrame)

/-- The room that is left once the attributes were reported and their array was closed. -/
def roomAfterAttrs : Option (List AttrItem) → ℕ
  | none => f.room + 2
  | some items => items.foldl (packItem f.room) f.room - 1

/-- The condition: the array of the attributes can be closed, that of the events opened and
closed, and lists that are split have few enough items. -/
structure Packs (attrs : Option (List AttrItem)) (events : Option EventRequest) : Prop where
  few : ∀ items ∈ attrs, FewItems f.room f.room items
  ends : ∀ items ∈ attrs, 1 ≤ items.foldl (packItem f.room) f.room
  opens : ∀ req ∈ events, 2 ≤ f.roomAfterAttrs attrs
  closes : ∀ req ∈ events, 1 ≤ req.reports.foldl (pack f.room) (f.roomAfterAttrs attrs - 2)

/-- An attribute fits into an empty chunk, item by item if it is a list. -/
def FitsItem : AttrItem → Prop
  | .single r => r.need ≤ f.room
  | .list l => l.empty.need ≤ f.room ∧ (∀ item ∈ l.items, item.need ≤ f.room) ∧ l.endNeed ≤ f.room

/-- Everything fits into an empty chunk by itself. -/
structure Fits (attrs : Option (List AttrItem)) (events : Option EventRequest) : Prop where
  items : ∀ items ∈ attrs, ∀ item ∈ items, f.FitsItem item
  reports : ∀ req ∈ events, ∀ r ∈ req.reports, r.need ≤ f.room

/-! ## Messages being written -/

variable {f} {s : Chunks} {A E : List (TLVTree LeafCall)}

theorem bytesMembers_reportsArray (tag : TLVTag) (ts : List (TLVTree LeafCall)) :
    bytesMembers (reportsArray tag (some ts)) =
      elemBytes tag .array ++ (bytesMembers ts ++ elemBytes .anonymous .endCnt) := by
  rw [reportsArray, bytesMembers, bytesMembers, TLVTree.bytes, List.append_nil]
  rfl

theorem bytes_more {a e : Option (List (TLVTree LeafCall))} :
    (ReportData.tree f ⟨a, e, true, false⟩).bytes = f.head ++
      (bytesMembers (reportsArray ReportDataRespTag.attributeReports a) ++
        (bytesMembers (reportsArray ReportDataRespTag.eventReports e) ++
          (elemBytes ReportDataRespTag.moreChunkedMsgs .true ++
            elemBytes .anonymous .endCnt))) := by
  rw [ReportData.tree, TLVTree.bytes, bytesMembers_append, bytesMembers_append, bytesMembers_append,
    head]
  simp only [List.append_assoc]
  rfl

theorem bytes_last {a e : Option (List (TLVTree LeafCall))} {b : Bool} :
    (ReportData.tree f ⟨a, e, false, b⟩).bytes = f.head ++
      (bytesMembers (reportsArray ReportDataRespTag.attributeReports a) ++
        (bytesMembers (reportsArray ReportDataRespTag.eventReports e) ++
          (bytesMembers (reportFlag ReportDataRespTag.supressResponse b) ++
            elemBytes .anonymous .endCnt))) := by
  rw [ReportData.tree, TLVTree.bytes, bytesMembers_append, bytesMembers_append, bytesMembers_append,
    head]
  simp only [List.append_assoc]
  rfl

structure Sent (f : ReportFrame) (s : Chunks) (msgs : List ReportData) : Prop where
  bytes : s.sent = msgs.map fun m => (m.tree f).bytes
  more : ∀ m ∈ msgs, m.IsMore

theorem Sent.snoc {msgs : List ReportData} {m : ReportData} {wb : WriteBuf} {b : Bool}
    (h : Sent f s msgs) (hm : m.IsMore) :
    Sent f ⟨wb, s.sent ++ [(m.tree f).bytes], b⟩ (msgs ++ [m]) := by
  refine ⟨?_, ?_⟩
  · rw [List.map_append, ← h.bytes]
    rfl
  · intro m' hm'
    rcases List.mem_append.mp hm' with hm' | hm'
    · exact h.more m' hm'
    · rwa [List.mem_singleton.mp hm']

/-- The array of the attributes is open; so far these were reported. -/
def InAttrs (f : ReportFrame) (s : Chunks) (A : List (TLVTree LeafCall)) : Prop :=
  ∃ msgs ts, Sent f s msgs ∧ (∀ m ∈ msgs, m.eventReports = none) ∧ A = attrsOf msgs ++ ts ∧
    s.wb.data = f.head ++ (elemBytes ReportDataRespTag.attributeReports .array ++ bytesMembers ts)

/-- The array of the events is open; so far these were reported. -/
def InEvents (f : ReportFrame) (s : Chunks) (A E : List (TLVTree LeafCall)) : Prop :=
  ∃ msgs a ts, Sent f s msgs ∧ A = attrsOf msgs ++ a.getD [] ∧ E = eventsOf msgs ++ ts ∧
    s.wb.data = f.head ++ (bytesMembers (reportsArray ReportDataRespTag.attributeReports a) ++
      (elemBytes ReportDataRespTag.eventReports .array ++ bytesMembers ts))

/-- The array of the attributes is closed, and that of the events not begun. -/
def AfterAttrs (f : ReportFrame) (s : Chunks) (A : List (TLVTree LeafCall)) : Prop :=
  ∃ msgs a, Sent f s msgs ∧ A = attrsOf msgs ++ a.getD [] ∧ eventsOf msgs = [] ∧
    s.wb.data = f.head ++ bytesMembers (reportsArray ReportDataRespTag.attributeReports a)

/-- All arrays are closed; these were reported. -/
def AfterEvents (f : ReportFrame) (s : Chunks) (A E : List (TLVTree LeafCall)) : Prop :=
  ∃ msgs a e, Sent f s msgs ∧ A = attrsOf msgs ++ a.getD [] ∧ E = eventsOf msgs ++ e.getD [] ∧
    s.wb.data = f.head ++ (bytesMembers (reportsArray ReportDataRespTag.attributeReports a) ++
      bytesMembers (reportsArray ReportDataRespTag.eventReports e))

def put (r : Report) (s : Chunks) : Chunks := { s with wb := s.wb.push r.bytes }

def flushAttrs (f : ReportFrame) (s : Chunks) : Chunks :=
  ⟨f.opened ReportDataRespTag.attributeReports, s.sent ++ [s.wb.data ++ more], s.isEmpty⟩

def flushEvents (f : ReportFrame) (s : Chunks) : Chunks :=
  ⟨f.opened ReportDataRespTag.eventReports, s.sent ++ [s.wb.data ++ more], s.isEmpty⟩

theorem InAttrs.put (h : InAttrs f s A) (r : Report) : InAttrs f (put r s) (A ++ r.trees) := by
  obtain ⟨msgs, ts, hsent, hnone, rfl, hdata⟩ := h
  refine ⟨msgs, ts ++ r.trees, ⟨hsent.bytes, hsent.more⟩, hnone, List.append_assoc _ _ _, ?_⟩
  rw [ReportFrame.put, WriteBuf.push, hdata, bytesMembers_append, Report.bytes]
  simp only [List.append_assoc]

theorem InAttrs.withEmpty (h : InAttrs f s A) (b : Bool) :
    InAttrs f { s with isEmpty := b } A := by
  obtain ⟨msgs, ts, hsent, hnone, hA, hdata⟩ := h
  exact ⟨msgs, ts, ⟨hsent.bytes, hsent.more⟩, hnone, hA, hdata⟩

theorem InEvents.withEmpty (h : InEvents f s A E) (b : Bool) :
    InEvents f { s with isEmpty := b } A E := by
  obtain ⟨msgs, a, ts, hsent, hA, hE, hdata⟩ := h
  exact ⟨msgs, a, ts, ⟨hsent.bytes, hsent.more⟩, hA, hE, hdata⟩

theorem InEvents.put (h : InEvents f s A E) (r : Report) :
    InEvents f (put r s) A (E ++ r.trees) := by
  obtain ⟨msgs, a, ts, hsent, hA, rfl, hdata⟩ := h
  refine ⟨msgs, a, ts ++ r.trees, ⟨hsent.bytes, hsent.more⟩, hA, List.append_assoc _ _ _, ?_⟩
  rw [ReportFrame.put, WriteBuf.push, hdata, bytesMembers_append, Report.bytes]
  simp only [List.append_assoc]

theorem attrsOf_snoc (msgs : List ReportData) (m : ReportData) :
    attrsOf (msgs ++ [m]) = attrsOf msgs ++ m.attributeReports.getD [] := by
  rw [attrsOf, List.flatMap_append, List.flatMap_singleton]
  rfl

theorem eventsOf_snoc (msgs : List ReportData) (m : ReportData) :
    eventsOf (msgs ++ [m]) = eventsOf msgs ++ m.eventReports.getD [] := by
  rw [eventsOf, List.flatMap_append, List.flatMap_singleton]
  rfl

theorem InAttrs.flush (h : InAttrs f s A) : InAttrs f (flushAttrs f s) A := by
  obtain ⟨msgs, ts, hsent, hnone, rfl, hdata⟩ := h
  have hbytes : s.wb.data ++ more = (ReportData.tree f ⟨some ts, none, true, false⟩).bytes := by
    rw [bytes_more, bytesMembers_reportsArray, hdata, more]
    simp only [List.append_assoc]
    rfl
  refine ⟨msgs ++ [⟨some ts, none, true, false⟩], [], ?_, ?_, ?_, ?_⟩
  · rw [flushAttrs, hbytes]
    exact hsent.snoc ⟨rfl, rfl⟩
  · intro m hm
    rcases List.mem_append.mp hm with hm | hm
    · exact hnone m hm
    · rw [List.mem_singleton.mp hm]
  · rw [attrsOf_snoc, List.append_nil]
    rfl
  · rw [flushAttrs, opened, bytesMembers, List.append_nil]

theorem InEvents.flush (h : InEvents f s A E) : InEvents f (flushEvents f s) A E := by
  obtain ⟨msgs, a, ts, hsent, rfl, rfl, hdata⟩ := h
  have hbytes : s.wb.data ++ more = (ReportData.tree f ⟨a, some ts, true, false⟩).bytes := by
    rw [bytes_more, bytesMembers_reportsArray, hdata, more]
    simp only [List.append_assoc]
  refine ⟨msgs ++ [⟨a, some ts, true, false⟩], none, [], ?_, ?_, ?_, ?_⟩
  · rw [flushEvents, hbytes]
    exact hsent.snoc ⟨rfl, rfl⟩
  · rw [attrsOf_snoc]
    exact (List.append_nil _).symm
  · rw [eventsOf_snoc, List.append_nil]
    rfl
  · rw [flushEvents, opened, bytesMembers, List.append_nil]
    rfl

/-! ## Attributes, once they are through -/

/-- What is known of a state that was got to from another one by writing reports of attributes. -/
structure WroteAttrs (f : ReportFrame) (s s' : Chunks) (room : ℕ) (ts : List (TLVTree LeafCall)) :
    Prop where
  room : s'.wb.room = room
  isEmpty : s'.isEmpty = s.isEmpty
  reports : ∀ A, InAttrs f s A → InAttrs f s' (A ++ ts)

theorem wroteAttrs_put (r : Report) :
    WroteAttrs f s (put r s) (s.wb.room - r.bytes.length) r.trees :=
  ⟨rfl, rfl, fun _ h => h.put r⟩

theorem WroteAttrs.flush {s' : Chunks} {room : ℕ} {ts : List (TLVTree LeafCall)}
    (h : WroteAttrs f (flushAttrs f s) s' room ts) : WroteAttrs f s s' room ts :=
  ⟨h.room, h.isEmpty, fun A hA => h.reports A hA.flush⟩

theorem WroteAttrs.trans {s' s'' : Chunks} {room room' : ℕ} {ts ts' : List (TLVTree LeafCall)}
    (h : WroteAttrs f s s' room ts) (h' : WroteAttrs f s' s'' room' ts') :
    WroteAttrs f s s'' room' (ts ++ ts') := by
  refine ⟨h'.room, h'.isEmpty.trans h.isEmpty, fun A hA => ?_⟩
  rw [← List.append_assoc]
  exact h'.reports _ (h.reports A hA)

variable {x : Except ErrorCode Chunks} {fuel : ℕ}

theorem readLoop_spec (hf : f.Opens) (hr : r.need ≤ f.room)
    (h : f.readLoop r fuel s = some x) :
    ∃ s', x = .ok s' ∧ WroteAttrs f s s' (pack f.room s.wb.room r) r.trees := by
  cases fuel with
  | zero => cases h
  | succ fuel =>
    rw [readLoop] at h
    rw [pack]
    by_cases hroom : r.need ≤ s.wb.room
    · rw [Report.read_ok hroom] at h
      cases h
      rw [if_pos hroom]
      exact ⟨put r s, rfl, wroteAttrs_put r⟩
    · rw [Report.read_error hroom, send_attributes hf] at h
      rw [if_neg hroom]
      cases fuel with
      | zero => cases h
      | succ fuel =>
        dsimp only at h
        rw [readLoop, Report.read_ok hr] at h
        cases h
        exact ⟨put r (flushAttrs f s), rfl, (wroteAttrs_put r).flush⟩

def pieces (l : ListAttr) : Option ℕ → List Report
  | none => l.empty :: l.items
  | some i => l.items.drop i

theorem readAt_pieces {l : ListAttr} (hlong : l.items.length < 2 ^ 16) {index : Option ℕ}
    (hindex : ∀ i, index = some i → i ≤ l.items.length) :
    (∃ r, pieces l index = r :: pieces l (some (nextIndex index)) ∧
      (∀ wb, l.readAt index wb = r.read wb) ∧ nextIndex index ≤ l.items.length) ∨
    (pieces l index = [] ∧ ∀ wb : WriteBuf, l.readAt index wb =
      if l.endNeed ≤ wb.room then .error .constraintError else .error .noSpace) := by
  cases index with
  | none => exact .inl ⟨l.empty, rfl, fun _ => rfl, Nat.zero_le _⟩
  | some i =>
    by_cases hi : i < l.items.length
    · have hnext : nextIndex (some i) = i + 1 := Nat.mod_eq_of_lt (by omega)
      refine .inl ⟨l.items[i], ?_, ?_, ?_⟩
      · rw [hnext, pieces, pieces, List.drop_eq_getElem_cons hi]
      · intro wb
        rw [ListAttr.readAt, List.getElem?_eq_getElem hi]
      · rw [hnext]
        exact hi
    · have hi := Nat.le_of_not_lt hi
      refine .inr ⟨List.drop_eq_nil_of_le hi, fun wb => ?_⟩
      rw [ListAttr.readAt, List.getElem?_eq_none hi]

theorem sendArrayItems_spec (hf : f.Opens) {l : ListAttr} (hlong : l.items.length < 2 ^ 16)
    (hfits : ∀ r ∈ l.empty :: l.items, r.need ≤ f.room) (fuel : ℕ) :
    ∀ (index : Option ℕ) (s : Chunks) (x : Except ErrorCode Chunks),
      (∀ i, index = some i → i ≤ l.items.length) → f.sendArrayItems l fuel index s = some x →
      ∃ s', x = .ok s' ∧ WroteAttrs f s s' (packList f.room s.wb.room (pieces l index) l.endNeed)
        ((pieces l index).flatMap Report.trees) := by
  induction fuel with
  | zero =>
    intro index s x _ h
    cases h
  | succ fuel ih =>
    intro index s x hindex h
    rw [sendArrayItems] at h
    rcases readAt_pieces hlong hindex with ⟨r, hpieces, hread, hnext⟩ | ⟨hpieces, hread⟩
    · have hr : r.need ≤ f.room := by
        refine hfits r ?_
        have hmem : r ∈ pieces l index := by
          rw [hpieces]
          exact List.mem_cons_self
        cases index with
        | none => exact hmem
        | some i => exact List.mem_cons_of_mem _ (List.mem_of_mem_drop hmem)
      rw [hread] at h
      by_cases hroom : r.need ≤ s.wb.room
      · rw [Report.read_ok hroom] at h
        obtain ⟨s', rfl, hwrote⟩ := ih _ _ _ (by
          rintro i ⟨⟩
          exact hnext) h
        refine ⟨s', rfl, ?_⟩
        have hboth := (wroteAttrs_put r).trans hwrote
        rw [hpieces, packList, List.foldl_cons, pack, if_pos hroom]
        exact hboth
      · rw [Report.read_error hroom, send_attributes hf] at h
        obtain ⟨s', rfl, hwrote⟩ := ih _ _ _ hindex h
        have hwrote : WroteAttrs f (flushAttrs f s) s'
            (packList f.room f.room (pieces l index) l.endNeed) _ := hwrote
        rw [hpieces, packList_retry hr hroom] at hwrote
        rw [hpieces]
        exact ⟨s', rfl, hwrote.flush⟩
    · rw [hpieces, packList, List.foldl_nil]
      rw [hread] at h
      by_cases hroom : l.endNeed ≤ s.wb.room
      · rw [if_pos hroom] at h
        cases h
        rw [if_pos hroom]
        refine ⟨s, rfl, rfl, rfl, fun A hA => ?_⟩
        rw [List.flatMap_nil, List.append_nil]
        exact hA
      · rw [if_neg hroom, send_attributes hf] at h
        obtain ⟨s', rfl, hwrote⟩ := ih _ _ _ hindex h
        have hwrote : WroteAttrs f (flushAttrs f s) s'
            (packList f.room f.room (pieces l index) l.endNeed) _ := hwrote
        rw [hpieces, packList, List.foldl_nil, ite_self] at hwrote
        rw [if_neg hroom]
        exact ⟨s', rfl, hwrote.flush⟩

theorem reportItem_spec (hf : f.Opens) {item : AttrItem} (hfits : f.FitsItem item)
    (hs : s.wb.room ≤ f.room)
    (h : f.reportItem fuel s item = some x) :
    FewItems f.room s.wb.room [item] ∧
      ∃ s' ts, x = .ok s' ∧ WroteAttrs f s s' (packItem f.room s.wb.room item) ts ∧
        ∀ items us, StandsFor items us → StandsFor (item :: items) (ts ++ us) := by
  cases item with
  | single r =>
    obtain ⟨s', rfl, hwrote⟩ := readLoop_spec hf hfits h
    exact ⟨trivial, s', r.trees, rfl, hwrote, fun _ _ => .single r⟩
  | list l =>
    rw [reportItem] at h
    rw [packItem]
    by_cases hroom : l.whole.need ≤ s.wb.room
    · rw [Report.read_ok hroom] at h
      cases h
      rw [if_pos hroom]
      exact ⟨⟨fun hn => absurd hroom hn, trivial⟩, put l.whole s, l.whole.trees, rfl,
        wroteAttrs_put _, fun _ _ => .whole l⟩
    · rw [Report.read_error hroom] at h
      rw [if_neg hroom]
      -- it came to its end, so it is short enough
      have hlong := ((sendArrayItems_ends_iff hf hs l).mp ⟨fuel, by
        dsimp only at h
        rw [h]
        rfl⟩).1
      obtain ⟨s', rfl, hwrote⟩ := sendArrayItems_spec hf hlong
        (List.forall_mem_cons.mpr ⟨hfits.1, hfits.2.1⟩) fuel none s x (by rintro _ ⟨⟩) h
      exact ⟨⟨fun _ => hlong, trivial⟩, s', _, rfl, hwrote, fun _ _ => .split l⟩

theorem pack_le (h : room ≤ e) (r : Report) : pack e room r ≤ e := by
  rw [pack]
  split <;> omega

theorem foldl_pack_le {e : ℕ} (rs : List Report) : ∀ {room : ℕ}, room ≤ e →
    rs.foldl (pack e) room ≤ e := by
  induction rs with
  | nil => exact fun h => h
  | cons r rs ih => exact fun h => ih (pack_le h r)

theorem packItem_le (h : room ≤ e) (item : AttrItem) : packItem e room item ≤ e := by
  cases item with
  | single r => exact pack_le h r
  | list l =>
    rw [packItem, packList]
    split
    · omega
    · split
      · exact foldl_pack_le _ h
      · exact Nat.le_refl _

theorem fewItems_cons {item : AttrItem} {items : List AttrItem} :
    FewItems e room (item :: items) ↔
      FewItems e room [item] ∧ FewItems e (packItem e room item) items := by
  cases item with
  | single r => exact ⟨fun h => ⟨trivial, h⟩, fun h => h.2⟩
  | list l => exact ⟨fun h => ⟨⟨h.1, trivial⟩, h.2⟩, fun h => ⟨h.1.1, h.2⟩⟩

/-- **All attributes.** -/
theorem reportItems_spec (hf : f.Opens) (items : List AttrItem) :
    ∀ (s : Chunks) (x : Except ErrorCode Chunks), (∀ item ∈ items, f.FitsItem item) →
      s.wb.room ≤ f.room → f.reportItems fuel items s = some x →
      FewItems f.room s.wb.room items ∧
        ∃ s' ts, x = .ok s' ∧ s'.wb.room = items.foldl (packItem f.room) s.wb.room ∧
          s'.isEmpty = (s.isEmpty && items.isEmpty) ∧ (items = [] → s' = s) ∧
          (∀ A, InAttrs f s A → InAttrs f s' (A ++ ts)) ∧ StandsFor items ts := by
  induction items with
  | nil =>
    intro s x _ _ h
    cases h
    refine ⟨trivial, s, [], rfl, rfl, (Bool.and_true _).symm, fun _ => rfl, fun A hA => ?_, .nil⟩
    rw [List.append_nil]
    exact hA
  | cons item items ih =>
    intro s x hfits hs h
    rw [reportItems] at h
    cases hitem : f.reportItem fuel { s with isEmpty := false } item with
    | none =>
      rw [hitem] at h
      cases h
    | some y =>
      obtain ⟨hfew, s₁, ts, rfl, hwrote, hstands⟩ :=
        reportItem_spec (s := { s with isEmpty := false }) hf (hfits item List.mem_cons_self) hs hitem
      rw [hitem] at h
      have hroom₁ := hwrote.room
      have hle : s₁.wb.room ≤ f.room := by
        rw [hroom₁]
        exact packItem_le hs item
      obtain ⟨hfews, s', us, rfl, hroom, hempty, hnil, hA, hus⟩ := ih s₁ x
        (fun item' hitem' => hfits item' (List.mem_cons_of_mem _ hitem')) hle h
      rw [hroom₁] at hfews hroom
      refine ⟨fewItems_cons.mpr ⟨hfew, hfews⟩, s', ts ++ us, rfl, hroom, ?_, nofun, ?_,
        hstands items us hus⟩
      · rw [hempty, hwrote.isEmpty]
        simp
      · intro A hInA
        rw [← List.append_assoc]
        exact hA _ (hwrote.reports A (hInA.withEmpty false))

/-! ## Events, once they are through -/

/-- What is known of a state that was got to from another one by writing reports of events. -/
structure WroteEvents (f : ReportFrame) (s s' : Chunks) (rs : List Report) : Prop where
  room : s'.wb.room = rs.foldl (pack f.room) s.wb.room
  /-- the flag is as it was if there were none -/
  isEmpty : s'.isEmpty = (s.isEmpty && rs.isEmpty)
  nil : rs = [] → s' = s
  reports : ∀ A E, InEvents f s A E → InEvents f s' A (E ++ rs.flatMap Report.trees)

theorem wroteEvents_nil : WroteEvents f s s [] := by
  refine ⟨rfl, (Bool.and_true _).symm, fun _ => rfl, fun A E h => ?_⟩
  rw [List.flatMap_nil, List.append_nil]
  exact h

theorem wroteEvents_put (hroom : r.need ≤ s.wb.room) :
    WroteEvents f s { put r s with isEmpty := false } [r] := by
  refine ⟨(if_pos hroom).symm, (Bool.and_false _).symm, nofun, fun A E h => ?_⟩
  rw [List.flatMap_singleton]
  exact (h.put r).withEmpty false

theorem WroteEvents.flush {s' : Chunks} {rest : List Report} (hr : r.need ≤ f.room)
    (hroom : ¬ r.need ≤ s.wb.room) (h : WroteEvents f (flushEvents f s) s' (r :: rest)) :
    WroteEvents f s s' (r :: rest) := by
  refine ⟨?_, h.isEmpty, nofun, fun A E hE => h.reports A E hE.flush⟩
  have hopen : s'.wb.room = (r :: rest).foldl (pack f.room) f.room := h.room
  rw [hopen, List.foldl_cons, List.foldl_cons, pack_retry hr hroom]

theorem WroteEvents.trans {s' s'' : Chunks} {rs us : List Report} (h : WroteEvents f s s' rs)
    (h' : WroteEvents f s' s'' us) : WroteEvents f s s'' (rs ++ us) := by
  refine ⟨?_, ?_, ?_, fun A E hE => ?_⟩
  · rw [h'.room, h.room, List.foldl_append]
  · rw [h'.isEmpty, h.isEmpty, Bool.and_assoc]
    cases rs <;> simp
  · intro hnil
    obtain ⟨hrs, hus⟩ := List.append_eq_nil_iff.mp hnil
    rw [h'.nil hus, h.nil hrs]
  · rw [List.flatMap_append, ← List.append_assoc]
    exact h'.reports A _ (h.reports A E hE)

theorem reportStatus_spec (hf : f.Opens) (hr : r.need ≤ f.room) (s : Chunks) :
    ∃ s', f.reportStatus r s = .ok s' ∧ WroteEvents f s s' [r] := by
  rw [reportStatus]
  by_cases hroom : r.need ≤ s.wb.room
  · dsimp only
    rw [Report.read_ok hroom]
    exact ⟨_, rfl, wroteEvents_put hroom⟩
  · dsimp only
    rw [Report.read_error hroom]
    dsimp only
    rw [send_events hf, ok_bind, Report.read_ok hr]
    refine ⟨_, rfl, WroteEvents.flush hr hroom ?_⟩
    exact wroteEvents_put (s := flushEvents f s) hr

theorem reportStatuses_spec (hf : f.Opens) (rs : List Report) :
    ∀ s : Chunks, (∀ r ∈ rs, r.need ≤ f.room) →
      ∃ s', f.reportStatuses rs s = .ok s' ∧ WroteEvents f s s' rs := by
  induction rs with
  | nil => exact fun s _ => ⟨s, rfl, wroteEvents_nil⟩
  | cons r rs ih =>
    intro s hfits
    obtain ⟨s₁, hs₁, hwrote₁⟩ := reportStatus_spec hf (hfits r List.mem_cons_self) s
    obtain ⟨s', hs', hwrote⟩ := ih s₁ fun r' hr' => hfits r' (List.mem_cons_of_mem _ hr')
    refine ⟨s', ?_, hwrote₁.trans hwrote⟩
    rw [reportStatuses, hs₁, ok_bind, hs']

/-- Events that come later are pending no matter what was seen before. -/
theorem pending_eq_of_lt {nextMaxSeen m m' : ℕ} {events : List StoredEvent}
    (h : ∀ e ∈ events, m < e.number ∧ m' < e.number) :
    pending nextMaxSeen m events = pending nextMaxSeen m' events := by
  refine List.filterMap_congr fun e he => ?_
  obtain ⟨hm, hm'⟩ := h e he
  simp only [hm, hm', true_and]

/-- **Going through the queue**: what was pending was written, or some of it, and the rest is
pending still. -/
theorem fetch_spec {nextMaxSeen : ℕ} (events : List StoredEvent) :
    ∀ {maxSeen m : ℕ} {s s' : Chunks} {b : Bool}, events.Pairwise (·.number < ·.number) →
      fetch nextMaxSeen events maxSeen s = (b, m, s') →
      (b = true ∧ WroteEvents f s s' (pending nextMaxSeen maxSeen events)) ∨
      (b = false ∧ maxSeen ≤ m ∧ ∃ rs r rest,
        pending nextMaxSeen maxSeen events = rs ++ r :: rest ∧
        pending nextMaxSeen m events = r :: rest ∧ WroteEvents f s s' rs ∧
        ¬ r.need ≤ s'.wb.room) := by
  induction events with
  | nil =>
    intro maxSeen m s s' b _ h
    cases h
    exact .inl ⟨rfl, wroteEvents_nil⟩
  | cons e es ih =>
    intro maxSeen m s s' b hsorted h
    obtain ⟨he, hsorted⟩ := List.pairwise_cons.mp hsorted
    rw [fetch] at h
    split at h
    · next hrange =>
      have hlater : pending nextMaxSeen maxSeen es = pending nextMaxSeen e.number es :=
        pending_eq_of_lt fun x hx => ⟨Nat.lt_trans hrange.1 (he x hx), he x hx⟩
      -- what was seen is not pending any more
      have hseen : ∀ m, e.number ≤ m →
          pending nextMaxSeen m (e :: es) = pending nextMaxSeen m es := by
        intro m hm
        rw [pending, List.filterMap_cons, if_neg (by omega)]
        rfl
      split at h
      · next hnone =>
        have hskip : pending nextMaxSeen maxSeen (e :: es) = pending nextMaxSeen e.number es := by
          rw [pending, List.filterMap_cons, if_pos hrange, hnone]
          exact hlater
        rcases ih hsorted h with ⟨rfl, hwrote⟩ | ⟨rfl, hm, rs, r, rest, hpending, hrest, hwrote⟩
        · rw [hskip]
          exact .inl ⟨rfl, hwrote⟩
        · exact .inr ⟨rfl, by omega, rs, r, rest, hskip.trans hpending, (hseen m hm).trans hrest,
            hwrote⟩
      · next r hr =>
        have hcons : pending nextMaxSeen maxSeen (e :: es) =
            r :: pending nextMaxSeen e.number es := by
          rw [pending, List.filterMap_cons, if_pos hrange, hr]
          exact congrArg _ hlater
        by_cases hroom : r.need ≤ s.wb.room
        · rw [Report.read_ok hroom] at h
          rcases ih hsorted h with
            ⟨rfl, hwrote⟩ | ⟨rfl, hm, rs, r', rest, hpending, hrest, hwrote, hstop⟩
          · rw [hcons]
            exact .inl ⟨rfl, (wroteEvents_put hroom).trans hwrote⟩
          · refine .inr ⟨rfl, by omega, r :: rs, r', rest, ?_, (hseen m hm).trans hrest,
              (wroteEvents_put hroom).trans hwrote, hstop⟩
            rw [hcons, hpending]
            rfl
        · rw [Report.read_error hroom] at h
          cases h
          exact .inr ⟨rfl, Nat.le_refl _, [], r, _, hcons, hcons, wroteEvents_nil, hroom⟩
    · next hrange =>
      have hskip : pending nextMaxSeen maxSeen (e :: es) = pending nextMaxSeen maxSeen es := by
        rw [pending, List.filterMap_cons, if_neg hrange]
        rfl
      rcases ih hsorted h with ⟨rfl, hwrote⟩ | ⟨rfl, hm, rs, r, rest, hpending, hrest, hwrote⟩
      · rw [hskip]
        exact .inl ⟨rfl, hwrote⟩
      · refine .inr ⟨rfl, hm, rs, r, rest, hskip.trans hpending, ?_, hwrote⟩
        rw [pending, List.filterMap_cons, if_neg (by omega)]
        exact hrest

theorem eventsLoop_spec (hf : f.Opens) {events : List StoredEvent} {nextMaxSeen : ℕ}
    (hsorted : events.Pairwise (·.number < ·.number)) (fuel : ℕ) :
    ∀ (maxSeen : ℕ) (s : Chunks) (x : Except ErrorCode Chunks),
      (∀ r ∈ pending nextMaxSeen maxSeen events, r.need ≤ f.room) →
      f.eventsLoop events nextMaxSeen fuel maxSeen s = some x →
      ∃ s', x = .ok s' ∧ WroteEvents f s s' (pending nextMaxSeen maxSeen events) := by
  induction fuel with
  | zero =>
    intro maxSeen s x _ h
    cases h
  | succ fuel ih =>
    intro maxSeen s x hfits h
    rw [eventsLoop] at h
    rcases hfetch : fetch nextMaxSeen events maxSeen s with ⟨b, m, s₁⟩
    rw [hfetch] at h
    rcases fetch_spec events hsorted hfetch with
      ⟨rfl, hwrote⟩ | ⟨rfl, -, rs, r, rest, hpending, hrest, hwrote, hstop⟩
    · cases h
      exact ⟨s₁, rfl, hwrote⟩
    · dsimp only at h
      rw [send_events hf] at h
      have hr : ∀ r' ∈ pending nextMaxSeen m events, r'.need ≤ f.room := by
        intro r' hr'
        refine hfits r' ?_
        rw [hpending, ← hrest]
        exact List.mem_append_right _ hr'
      obtain ⟨s', rfl, hwrote'⟩ := ih m _ x hr h
      rw [hrest] at hwrote' hr
      refine ⟨s', rfl, ?_⟩
      rw [hpending]
      exact hwrote.trans (WroteEvents.flush (hr r List.mem_cons_self) hstop hwrote')

/-! ## More fuel -/

/-- What a loop ends with does not depend on the fuel. -/
def Grows {α : Type} (x : ℕ → Option α) : Prop := ∀ n a, x n = some a → x (n + 1) = some a

theorem Grows.eq_of_le {α : Type} {x : ℕ → Option α} (hx : Grows x) {n : ℕ} {a : α}
    (hn : x n = some a) : ∀ m, n ≤ m → x m = some a := by
  intro m hm
  induction hm with
  | refl => exact hn
  | step _ ih => exact hx _ a ih

theorem Grows.isSome_of_le {α : Type} {x : ℕ → Option α} (hx : Grows x) {n : ℕ}
    (hn : (x n).isSome = true) : ∀ m, n ≤ m → (x m).isSome = true := by
  intro m hm
  obtain ⟨a, ha⟩ := Option.isSome_iff_exists.mp hn
  rw [hx.eq_of_le ha m hm]
  rfl

theorem Grows.andThen {α β : Type} {x : ℕ → Option (Except ErrorCode α)} (hx : Grows x)
    {k : ℕ → α → Option (Except ErrorCode β)} (hk : ∀ a, Grows fun n => k n a) :
    Grows fun n => RsMatter.andThen (x n) (k n) := by
  intro n a h
  dsimp only at h ⊢
  cases hxn : x n with
  | none =>
    rw [hxn] at h
    cases h
  | some y =>
    rw [hx n y hxn]
    rw [hxn] at h
    cases y with
    | error e => exact h
    | ok b => exact hk b n a h

theorem grows_readLoop (r : Report) (s : Chunks) : Grows fun n => f.readLoop r n s := by
  intro n
  induction n generalizing s with
  | zero =>
    intro a h
    cases h
  | succ n ih =>
    intro a h
    dsimp only at h ⊢
    rw [readLoop] at h ⊢
    split at h
    · exact h
    · split at h
      · exact ih _ a h
      · exact h
    · exact h

theorem grows_sendArrayItems (l : ListAttr) (index : Option ℕ) (s : Chunks) :
    Grows fun n => f.sendArrayItems l n index s := by
  intro n
  induction n generalizing index s with
  | zero =>
    intro a h
    cases h
  | succ n ih =>
    intro a h
    dsimp only at h ⊢
    rw [sendArrayItems] at h ⊢
    split at h
    · exact ih _ _ a h
    · split at h
      · exact ih _ _ a h
      · exact h
    · exact h
    · exact h

theorem grows_eventsLoop (events : List StoredEvent) (nextMaxSeen maxSeen : ℕ) (s : Chunks) :
    Grows fun n => f.eventsLoop events nextMaxSeen n maxSeen s := by
  intro n
  induction n generalizing maxSeen s with
  | zero =>
    intro a h
    cases h
  | succ n ih =>
    intro a h
    dsimp only at h ⊢
    rw [eventsLoop] at h ⊢
    split at h
    · exact h
    · split at h
      · exact ih _ _ a h
      · exact h

theorem grows_reportItem (item : AttrItem) (s : Chunks) :
    Grows fun n => f.reportItem n s item := by
  intro n a h
  cases item with
  | single r => exact grows_readLoop r s n a h
  | list l =>
    dsimp only at h ⊢
    rw [reportItem] at h ⊢
    by_cases hroom : l.whole.need ≤ s.wb.room
    · rw [Report.read_ok hroom] at h ⊢
      exact h
    · rw [Report.read_error hroom] at h ⊢
      exact grows_sendArrayItems l none s n a h

theorem grows_reportItems (items : List AttrItem) :
    ∀ s : Chunks, Grows fun n => f.reportItems n items s := by
  induction items with
  | nil => exact fun s n a h => h
  | cons item items ih => exact fun s => (grows_reportItem item _).andThen ih

theorem grows_reportAttributes (attrs : Option (List AttrItem)) (s : Chunks) :
    Grows fun n => f.reportAttributes n attrs s := by
  cases attrs with
  | none => exact fun n a h => h
  | some items =>
    have hstart : Grows fun _ => some (s.wb.startArray ReportDataRespTag.attributeReports) :=
      fun _ _ h => h
    apply hstart.andThen
    intro wb
    exact (grows_reportItems items _).andThen fun s _ _ h => h

/-! ## The responder ends -/

theorem reportItem_ends (hf : f.Opens) {item : AttrItem} (hfits : f.FitsItem item)
    (hs : s.wb.room ≤ f.room) (hfew : FewItems f.room s.wb.room [item]) :
    ∃ n, ∀ m, n ≤ m → (f.reportItem m s item).isSome = true := by
  cases item with
  | single r => exact ⟨2, (grows_readLoop r s).isSome_of_le (readLoop_ends hf hfits s)⟩
  | list l =>
    by_cases hroom : l.whole.need ≤ s.wb.room
    · refine ⟨0, fun m _ => ?_⟩
      rw [reportItem, Report.read_ok hroom]
      rfl
    · obtain ⟨n, hn⟩ := (sendArrayItems_ends_iff hf hs l).mpr
        ⟨hfew.1 hroom, hfits.1, hfits.2.1, hfits.2.2⟩
      refine ⟨n, fun m hm => ?_⟩
      rw [reportItem, Report.read_error hroom]
      exact (grows_sendArrayItems l none s).isSome_of_le hn m hm

theorem reportItems_ends (hf : f.Opens) (items : List AttrItem) :
    ∀ s : Chunks, (∀ item ∈ items, f.FitsItem item) → s.wb.room ≤ f.room →
      FewItems f.room s.wb.room items → ∃ n, ∀ m, n ≤ m → (f.reportItems m items s).isSome = true := by
  induction items with
  | nil => exact fun s _ _ _ => ⟨0, fun _ _ => rfl⟩
  | cons item items ih =>
    intro s hfits hs hfew
    obtain ⟨hfew, hfews⟩ := fewItems_cons.mp hfew
    have hitem := hfits item List.mem_cons_self
    obtain ⟨n₁, hn₁⟩ := reportItem_ends (s := { s with isEmpty := false }) hf hitem hs hfew
    -- it ends with the same state whenever it ends
    obtain ⟨y, hy⟩ := Option.isSome_iff_exists.mp (hn₁ n₁ (Nat.le_refl _))
    obtain ⟨-, s₁, ts, rfl, hwrote, -⟩ :=
      reportItem_spec (s := { s with isEmpty := false }) hf hitem hs hy
    have hsame := (grows_reportItem item { s with isEmpty := false }).eq_of_le hy
    have hroom₁ := hwrote.room
    obtain ⟨n₂, hn₂⟩ := ih s₁ (fun item' hitem' => hfits item' (List.mem_cons_of_mem _ hitem'))
      (by rw [hroom₁]; exact packItem_le hs item) (by rw [hroom₁]; exact hfews)
    refine ⟨max n₁ n₂, fun m hm => ?_⟩
    rw [reportItems, hsame m (by omega)]
    exact hn₂ m (by omega)

/-! ## From one array to the next -/

theorem startReply_ok (h : f.Opens) : f.startReply = .ok ⟨f.head, f.room + 2⟩ := by
  rw [Opens] at h
  rw [startReply_eq (by omega), WriteBuf.writeRawData_ok (by dsimp only; omega), WriteBuf.push, room]
  dsimp only
  rw [List.nil_append]
  congr 2
  omega

theorem startArray_cases (wb : WriteBuf) (tag : BitVec 8) :
    (2 ≤ wb.room ∧
      wb.startArray (.context tag) = .ok (wb.push (elemBytes (.context tag) .array))) ∨
    (¬ 2 ≤ wb.room ∧ wb.startArray (.context tag) = .error .noSpace) := by
  by_cases h : 2 ≤ wb.room
  · exact .inl ⟨h, startArray_ok h⟩
  · have harray := ContainerType.start_eq wb (.context tag) .array
    rw [ContainerType.start] at harray
    refine .inr ⟨h, ?_⟩
    rw [harray]
    exact WriteBuf.writeRawData_error (Nat.lt_of_not_le h)

theorem endContainer_cases (wb : WriteBuf) :
    (1 ≤ wb.room ∧ wb.endContainer = .ok (wb.push (elemBytes .anonymous .endCnt))) ∨
    (¬ 1 ≤ wb.room ∧ wb.endContainer = .error .noSpace) := by
  rw [WriteBuf.endContainer_eq]
  by_cases h : 1 ≤ wb.room
  · exact .inl ⟨h, WriteBuf.writeRawData_ok h⟩
  · exact .inr ⟨h, WriteBuf.writeRawData_error (Nat.lt_of_not_le h)⟩

theorem InAttrs.close (h : InAttrs f s A) :
    AfterAttrs f { s with wb := s.wb.push (elemBytes .anonymous .endCnt) } A := by
  obtain ⟨msgs, ts, hsent, hnone, rfl, hdata⟩ := h
  refine ⟨msgs, some ts, ⟨hsent.bytes, hsent.more⟩, rfl, ?_, ?_⟩
  · refine List.flatMap_eq_nil_iff.mpr fun m hm => ?_
    rw [hnone m hm]
    rfl
  · dsimp only
    rw [WriteBuf.push, hdata, bytesMembers_reportsArray]
    simp only [List.append_assoc]

theorem AfterAttrs.beginEvents (h : AfterAttrs f s A) :
    InEvents f { s with wb := s.wb.push (elemBytes ReportDataRespTag.eventReports .array) } A [] := by
  obtain ⟨msgs, a, hsent, rfl, hnone, hdata⟩ := h
  refine ⟨msgs, a, [], ⟨hsent.bytes, hsent.more⟩, rfl, ?_, ?_⟩
  · rw [hnone]
    rfl
  · dsimp only
    rw [WriteBuf.push, hdata, bytesMembers, List.append_nil]
    simp only [List.append_assoc]

theorem InEvents.close (h : InEvents f s A E) :
    AfterEvents f { s with wb := s.wb.push (elemBytes .anonymous .endCnt) } A E := by
  obtain ⟨msgs, a, ts, hsent, rfl, rfl, hdata⟩ := h
  refine ⟨msgs, a, some ts, ⟨hsent.bytes, hsent.more⟩, rfl, rfl, ?_⟩
  dsimp only
  rw [WriteBuf.push, hdata, bytesMembers_reportsArray]
  simp only [List.append_assoc]

theorem AfterAttrs.afterEvents (h : AfterAttrs f s A) : AfterEvents f s A [] := by
  obtain ⟨msgs, a, hsent, rfl, hnone, hdata⟩ := h
  refine ⟨msgs, a, none, hsent, rfl, ?_, ?_⟩
  · rw [hnone]
    rfl
  · rw [hdata]
    simp only [reportsArray, bytesMembers, List.append_nil]

theorem AfterEvents.send (h : AfterEvents f s A E) (b : Bool) :
    ∃ s' init last, f.send .done b s = .ok s' ∧
      s'.sent = (init ++ [last]).map (fun m => (m.tree f).bytes) ∧ (∀ m ∈ init, m.IsMore) ∧
      last.moreChunkedMsgs = false ∧ last.supressResponse = b ∧ attrsOf (init ++ [last]) = A ∧
      eventsOf (init ++ [last]) = E := by
  obtain ⟨msgs, a, e, hsent, rfl, rfl, hdata⟩ := h
  have hend : ∀ wb : WriteBuf, longReadsTlvReserveSize ≤ wb.room →
      (do let wb ← if b then wb.bool ReportDataRespTag.supressResponse true else .ok wb
          wb.endContainer) = .ok (wb.push (bytesMembers (reportFlag ReportDataRespTag.supressResponse b) ++
            elemBytes .anonymous .endCnt)) := by
    intro wb hroom
    have hlen : (bytesMembers (reportFlag ReportDataRespTag.supressResponse b) ++
        elemBytes .anonymous .endCnt).length ≤ wb.room := by
      refine Nat.le_trans ?_ hroom
      cases b <;> decide
    rw [← WriteBuf.writeRawData_ok hlen, WriteBuf.writeRawData_append, ← writeMembers_eq]
    cases b with
    | false => exact WriteBuf.endContainer_eq wb
    | true =>
      rw [if_pos rfl]
      have hflag : writeMembers wb (reportFlag ReportDataRespTag.supressResponse true) =
          wb.bool ReportDataRespTag.supressResponse true := bind_pure _
      rw [hflag]
      exact bind_congr fun wb => wb.endContainer_eq
  have hend := hend { s.wb with room := s.wb.room + longReadsTlvReserveSize } (Nat.le_add_left _ _)
  refine ⟨⟨WriteBuf.push { s.wb with room := s.wb.room + longReadsTlvReserveSize }
    (bytesMembers (reportFlag ReportDataRespTag.supressResponse b) ++ elemBytes .anonymous .endCnt),
    s.sent ++ [(ReportData.tree f ⟨a, e, false, b⟩).bytes], s.isEmpty⟩,
    msgs, ⟨a, e, false, b⟩, ?_, ?_, hsent.more, rfl, rfl, attrsOf_snoc _ _, eventsOf_snoc _ _⟩
  · rw [ReportFrame.send, endReply]
    dsimp only
    rw [hend, ok_bind, bytes_last, WriteBuf.push, hdata]
    simp only [List.append_assoc]
  · rw [List.map_append, ← hsent.bytes]
    rfl

/-! ## The whole report -/

variable {attrs : Option (List AttrItem)} {events : Option EventRequest}

def begun (f : ReportFrame) : Chunks := ⟨⟨f.head, f.room + 2⟩, [], true⟩

/-- The state once the array of the attributes was begun. -/
def begunAttrs (f : ReportFrame) : Chunks :=
  ⟨(begun f).wb.push (elemBytes ReportDataRespTag.attributeReports .array), [], true⟩

theorem inAttrs_begun : InAttrs f (begunAttrs f) [] := by
  refine ⟨[], [], ⟨rfl, nofun⟩, nofun, rfl, ?_⟩
  rw [bytesMembers, List.append_nil]
  rfl

theorem startArray_begun : (begun f).wb.startArray ReportDataRespTag.attributeReports =
    .ok (begunAttrs f).wb :=
  startArray_ok (Nat.le_add_left 2 f.room)

theorem afterAttrs_begun : AfterAttrs f (begun f) [] := by
  refine ⟨[], none, ⟨rfl, nofun⟩, rfl, rfl, ?_⟩
  exact (List.append_nil _).symm

/-- **The attributes**: they are through, or their array could not be closed. -/
theorem reportAttributes_spec (hf : f.Opens)
    (hfits : ∀ items ∈ attrs, ∀ item ∈ items, f.FitsItem item)
    (h : f.reportAttributes fuel attrs (begun f) = some x) :
    (∀ items ∈ attrs, FewItems f.room f.room items) ∧
      ((x = .error .noSpace ∧ ¬ ∀ items ∈ attrs, 1 ≤ items.foldl (packItem f.room) f.room) ∨
        (∀ items ∈ attrs, 1 ≤ items.foldl (packItem f.room) f.room) ∧
          ∃ s' A, x = .ok s' ∧ s'.wb.room = f.roomAfterAttrs attrs ∧
            s'.isEmpty = (attrs.getD []).isEmpty ∧ (attrs.getD [] = [] → s'.sent = []) ∧
            AfterAttrs f s' A ∧ StandsFor (attrs.getD []) A) := by
  cases attrs with
  | none =>
    cases h
    exact ⟨nofun, .inr ⟨nofun, begun f, [], rfl, rfl, rfl, fun _ => rfl, afterAttrs_begun, .nil⟩⟩
  | some items =>
    rw [reportAttributes, startArray_begun] at h
    have h : andThen (f.reportItems fuel items (begunAttrs f))
        (fun s => some (s.wb.endContainer.map fun wb => { s with wb })) = some x := h
    cases hitems : f.reportItems fuel items (begunAttrs f) with
    | none =>
      rw [hitems] at h
      cases h
    | some y =>
      obtain ⟨hfew, s₁, ts, rfl, hroom, hempty, hnil, hA, hstands⟩ := reportItems_spec hf items _ _
        (hfits items rfl) (Nat.le_refl f.room) hitems
      rw [hitems] at h
      have hroom : s₁.wb.room = items.foldl (packItem f.room) f.room := hroom
      have hmem : ∀ {P : List AttrItem → Prop}, P items → ∀ items' ∈ some items, P items' := by
        rintro P hP items' ⟨⟩
        exact hP
      refine ⟨hmem hfew, ?_⟩
      dsimp only [andThen] at h
      rcases endContainer_cases s₁.wb with ⟨hpos, hend⟩ | ⟨hfull, hend⟩
      · rw [hend] at h
        cases h
        refine .inr ⟨hmem (hroom ▸ hpos), _, ts, rfl, ?_, ?_, ?_, (hA [] inAttrs_begun).close, hstands⟩
        · rw [WriteBuf.room_push, hroom]
          rfl
        · exact hempty
        · intro hn
          rw [hnil hn]
          rfl
      · rw [hend] at h
        cases h
        refine .inl ⟨rfl, fun hall => hfull ?_⟩
        rw [hroom]
        exact hall items rfl

theorem reportAttributes_ends (hf : f.Opens)
    (hfits : ∀ items ∈ attrs, ∀ item ∈ items, f.FitsItem item)
    (hfew : ∀ items ∈ attrs, FewItems f.room f.room items) :
    ∃ n, ∀ m, n ≤ m → (f.reportAttributes m attrs (begun f)).isSome = true := by
  cases attrs with
  | none => exact ⟨0, fun _ _ => rfl⟩
  | some items =>
    obtain ⟨n, hn⟩ := reportItems_ends hf items (begunAttrs f) (hfits items rfl)
      (Nat.le_refl f.room) (hfew items rfl)
    refine ⟨n, fun m hm => ?_⟩
    obtain ⟨y, hy⟩ := Option.isSome_iff_exists.mp (hn m hm)
    rw [reportAttributes, startArray_begun]
    have hy : f.reportItems m items { begun f with wb := (begunAttrs f).wb } = some y := hy
    dsimp only [andThen]
    rw [hy]
    cases y with
    | error e => rfl
    | ok s => rfl

/-- **The events**: they are through, or their array could not be begun or closed. -/
theorem reportEvents_spec (hf : f.Opens) (hfits : ∀ req ∈ events, ∀ r ∈ req.reports, r.need ≤ f.room)
    (hsorted : ∀ req ∈ events, req.events.Pairwise (·.number < ·.number))
    (hA : AfterAttrs f s A)
    (h : f.reportEvents fuel events s = some x) :
    (x = .error .noSpace ∧ ¬ ∀ req ∈ events, 2 ≤ s.wb.room ∧
      1 ≤ req.reports.foldl (pack f.room) (s.wb.room - 2)) ∨
    (∀ req ∈ events, 2 ≤ s.wb.room ∧ 1 ≤ req.reports.foldl (pack f.room) (s.wb.room - 2)) ∧
      ∃ s', x = .ok s' ∧ s'.isEmpty = (s.isEmpty && (events.elim [] EventRequest.reports).isEmpty) ∧
        (events.elim [] EventRequest.reports = [] → s'.sent = s.sent) ∧
        AfterEvents f s' A ((events.elim [] EventRequest.reports).flatMap Report.trees) := by
  cases events with
  | none =>
    cases h
    exact .inr ⟨nofun, s, rfl, (Bool.and_true _).symm, fun _ => rfl, hA.afterEvents⟩
  | some req =>
    have hfits := hfits req rfl
    have hmem : ∀ {P : EventRequest → Prop}, P req → ∀ req' ∈ some req, P req' := by
      rintro P hP req' ⟨⟩
      exact hP
    rw [reportEvents, ReportDataRespTag.eventReports] at h
    rcases startArray_cases s.wb 2 with ⟨htwo, hstart⟩ | ⟨hfull, hstart⟩
    · rw [hstart] at h
      dsimp only [andThen] at h
      obtain ⟨s₁, hs₁, hwrote₁⟩ := reportStatuses_spec hf req.statuses
        { s with wb := s.wb.push (elemBytes (.context 2) .array) }
        fun r hr => hfits r (List.mem_append_left _ hr)
      rw [hs₁] at h
      dsimp only at h
      cases hloop : f.eventsLoop req.events req.nextMaxSeenEventNumber fuel req.maxSeenEventNumber
          s₁ with
      | none =>
        rw [hloop] at h
        cases h
      | some y =>
        obtain ⟨s₂, rfl, hwrote₂⟩ := eventsLoop_spec hf (hsorted req rfl) fuel _ _ _
          (fun r hr => hfits r (List.mem_append_right _ hr)) hloop
        have hwrote := hwrote₁.trans hwrote₂
        have hroom : s₂.wb.room = req.reports.foldl (pack f.room) (s.wb.room - 2) := hwrote.room
        rw [hloop] at h
        dsimp only at h
        rcases endContainer_cases s₂.wb with ⟨hpos, hend⟩ | ⟨hfull, hend⟩
        · rw [hend] at h
          cases h
          refine .inr ⟨hmem ⟨htwo, hroom ▸ hpos⟩, _, rfl, hwrote.isEmpty, ?_, ?_⟩
          · intro hn
            rw [hwrote.nil hn]
          · exact (hwrote.reports A [] hA.beginEvents).close
        · rw [hend] at h
          cases h
          refine .inl ⟨rfl, fun hall => hfull ?_⟩
          rw [hroom]
          exact (hall req rfl).2
    · rw [hstart] at h
      cases h
      exact .inl ⟨rfl, fun hall => hfull (hall req rfl).1⟩

theorem reportEvents_ends (hf : f.Opens)
    (hfits : ∀ req ∈ events, ∀ r ∈ req.reports, r.need ≤ f.room) (s : Chunks) :
    ∃ n, ∀ m, n ≤ m → (f.reportEvents m events s).isSome = true := by
  cases events with
  | none => exact ⟨0, fun _ _ => rfl⟩
  | some req =>
    have hfits := hfits req rfl
    rcases startArray_cases s.wb 2 with ⟨-, hstart⟩ | ⟨-, hstart⟩
    · obtain ⟨s₁, hs₁, -⟩ := reportStatuses_spec hf req.statuses
        { s with wb := s.wb.push (elemBytes (.context 2) .array) }
        fun r hr => hfits r (List.mem_append_left _ hr)
      have hneed : ∀ e ∈ req.events, req.maxSeenEventNumber < e.number →
          e.number ≤ req.nextMaxSeenEventNumber → ∀ r, e.report = some r → r.need ≤ f.room := by
        intro e he hlt hle r hr
        refine hfits r (List.mem_append_right _ (List.mem_filterMap.mpr ⟨e, he, ?_⟩))
        rw [if_pos ⟨hlt, hle⟩, hr]
      obtain ⟨n, hn⟩ := eventsLoop_ends hf hneed s₁
      refine ⟨n, fun m hm => ?_⟩
      obtain ⟨y, hy⟩ := Option.isSome_iff_exists.mp ((grows_eventsLoop _ _ _ _).isSome_of_le hn m hm)
      rw [reportEvents, ReportDataRespTag.eventReports, hstart]
      dsimp only [andThen]
      rw [hs₁]
      dsimp only at hy ⊢
      rw [hy]
      cases y with
      | error e => rfl
      | ok s => rfl
    · refine ⟨0, fun m _ => ?_⟩
      rw [reportEvents, ReportDataRespTag.eventReports, hstart]
      rfl

theorem respond_begun (hf : f.Opens) (fuel : ℕ) (suppressLastResp sendIfEmpty : Bool) :
    f.respond fuel attrs events suppressLastResp sendIfEmpty =
      andThen (f.reportAttributes fuel attrs (begun f)) fun s =>
        andThen (f.reportEvents fuel events s) fun s =>
          if sendIfEmpty || !s.isEmpty then some (f.send .done suppressLastResp s)
          else some (.ok s) := by
  rw [respond, startReply_ok hf]
  rfl

theorem packs_of_respond (hf : f.Opens) (hfits : f.Fits attrs events)
    (hsorted : ∀ req ∈ events, req.events.Pairwise (·.number < ·.number))
    {suppressLastResp sendIfEmpty : Bool}
    (hs : f.respond fuel attrs events suppressLastResp sendIfEmpty = some (.ok s)) :
    f.Packs attrs events := by
  rw [respond_begun hf] at hs
  cases hattrs : f.reportAttributes fuel attrs (begun f) with
  | none =>
    rw [hattrs] at hs
    cases hs
  | some x =>
    rw [hattrs] at hs
    obtain ⟨hfew, ⟨rfl, -⟩ | ⟨hends, s₁, A, rfl, hroom, -, -, hA, -⟩⟩ :=
      reportAttributes_spec hf hfits.items hattrs
    · cases hs
    · dsimp only [andThen] at hs
      cases hevents : f.reportEvents fuel events s₁ with
      | none =>
        rw [hevents] at hs
        cases hs
      | some y =>
        rw [hevents] at hs
        rcases reportEvents_spec hf hfits.reports hsorted hA hevents with
          ⟨rfl, -⟩ | ⟨hcloses, -⟩
        · cases hs
        · rw [hroom] at hcloses
          exact ⟨hfew, hends, fun req hreq => (hcloses req hreq).1,
            fun req hreq => (hcloses req hreq).2⟩

/-- A responder that can close the arrays ends well, and has lost nothing. -/
theorem Packs.lossless (h : f.Packs attrs events) (hf : f.Opens) (hfits : f.Fits attrs events)
    (hsorted : ∀ req ∈ events, req.events.Pairwise (·.number < ·.number))
    (suppressLastResp sendIfEmpty : Bool) :
    f.Lossless attrs events suppressLastResp sendIfEmpty := by
  obtain ⟨hfew, hends, hopens, hcloses⟩ := h
  obtain ⟨n₁, hn₁⟩ := reportAttributes_ends hf hfits.items hfew
  obtain ⟨x, hattrs⟩ := Option.isSome_iff_exists.mp (hn₁ n₁ (Nat.le_refl _))
  obtain ⟨-, ⟨-, hnot⟩ | ⟨-, s₁, A, rfl, hroom, hempty₁, hnil₁, hA, hstands⟩⟩ :=
    reportAttributes_spec hf hfits.items hattrs
  · exact absurd hends hnot
  have hattrs := (grows_reportAttributes attrs (begun f)).eq_of_le hattrs
  obtain ⟨n₂, hn₂⟩ := reportEvents_ends hf hfits.reports s₁
  obtain ⟨y, hevents⟩ := Option.isSome_iff_exists.mp (hn₂ (max n₁ n₂) (Nat.le_max_right _ _))
  rcases reportEvents_spec hf hfits.reports hsorted hA hevents with
    ⟨-, hnot⟩ | ⟨-, s₂, rfl, hempty₂, hnil₂, hE⟩
  · refine absurd (fun req hreq => ?_) hnot
    rw [hroom]
    exact ⟨hopens req hreq, hcloses req hreq⟩
  -- everything was written; what is left is to send the last chunk
  have hs : f.respond (max n₁ n₂) attrs events suppressLastResp sendIfEmpty = _ :=
    respond_begun hf _ _ _
  rw [hattrs _ (Nat.le_max_left _ _)] at hs
  dsimp only [andThen] at hs
  rw [hevents] at hs
  dsimp only at hs
  by_cases hsend : (sendIfEmpty || !s₂.isEmpty) = true
  · rw [if_pos hsend] at hs
    obtain ⟨s₃, init, last, hlast, hsent, hmore, hnomore, hsup, hattrs, hevents⟩ :=
      hE.send suppressLastResp
    rw [hlast] at hs
    refine ⟨_, s₃, hs, init ++ [last], hsent, .inr ⟨init, last, rfl, hmore, hnomore, hsup⟩, ?_,
      hevents⟩
    rw [hattrs]
    exact hstands
  · -- there was nothing to report
    rw [if_neg hsend] at hs
    simp only [Bool.or_eq_true, Bool.not_eq_true', not_or, Bool.not_eq_true,
      Bool.not_eq_false, hempty₂, hempty₁, Bool.and_eq_true, List.isEmpty_iff] at hsend
    obtain ⟨hsendIf, hnoattrs, hnoevents⟩ := hsend
    refine ⟨_, s₂, hs, [], ?_, .inl ⟨rfl, hsendIf⟩, ?_, ?_⟩
    · rw [hnil₂ hnoevents, hnil₁ hnoattrs]
      rfl
    · rw [hnoattrs]
      exact .nil
    · rw [hnoevents]
      rfl

/-- **Chunked reports are lossless** if and only if the arrays can be closed. -/
theorem lossless_iff_packs (hf : f.Opens) (hfits : f.Fits attrs events)
    (hsorted : ∀ req ∈ events, req.events.Pairwise (·.number < ·.number))
    (suppressLastResp sendIfEmpty : Bool) :
    f.Lossless attrs events suppressLastResp sendIfEmpty ↔ f.Packs attrs events := by
  constructor
  · rintro ⟨fuel, s, hs, -⟩
    exact packs_of_respond hf hfits hsorted hs
  · intro h
    exact h.lossless hf hfits hsorted suppressLastResp sendIfEmpty

theorem fits_single (hr : r.need ≤ f.room) : f.Fits (some [.single r]) none := by
  refine ⟨?_, nofun⟩
  rintro items ⟨⟩ item hitem
  rw [List.mem_singleton.mp hitem]
  exact hr

theorem lossless_small :
    small.Lossless (some [.single (stringReport 20 (by decide))]) none false true ∧
    ¬ small.Lossless (some [.single (stringReport 35 (by decide))]) none false true := by
  have hshort := lossless_iff_packs opens_small
    (fits_single (r := stringReport 20 (by decide)) (by decide +kernel)) nofun false true
  have hlong := lossless_iff_packs opens_small
    (fits_single (r := stringReport 35 (by decide)) (by decide +kernel)) nofun false true
  refine ⟨hshort.mpr ⟨?_, ?_, nofun, nofun⟩, fun h => ?_⟩
  · rintro items ⟨⟩
    trivial
  · rintro items ⟨⟩
    decide +kernel
  · have hends := (hlong.mp h).ends _ rfl
    revert hends
    decide +kernel

/-- A report of 37 bytes fits into a chunk of 37, but the array can not be closed any more. -/
theorem lossy_small : ¬ ∀ (f : ReportFrame) (attrs : Option (List AttrItem))
    (events : Option EventRequest) (suppressLastResp sendIfEmpty : Bool), f.Opens →
    f.Fits attrs events → (∀ req ∈ events, req.events.Pairwise (·.number < ·.number)) →
    f.Lossless attrs events suppressLastResp sendIfEmpty := by
  intro h
  have hfits : small.Fits (some [.single (stringReport 35 (by decide))]) none :=
    fits_single (by decide +kernel)
  obtain ⟨fuel, s, hs, -⟩ := h small _ none false true opens_small hfits nofun
  have hends := (packs_of_respond opens_small hfits nofun hs).ends _ rfl
  revert hends
  decide +kernel

end ReportFrame

end RsMatter
