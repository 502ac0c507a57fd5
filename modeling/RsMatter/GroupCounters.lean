import Mathlib.Data.Finset.Card
import Mathlib.Data.Finset.Max
import RsMatter.DedupWindow
import RsMatter.KeyedRows
import RsMatter.PacketDecode

/-!
# The senders of group messages (`transport/dedup.rs`)

The counters of the senders of group messages are kept in a table of sixteen. While there are no more
senders than that, each of them is on its own: its counters are decided as if no other sender was there.
One more sender takes the place of another, which a clock of 32 bits chooses. The clock goes round, and
after that the least value on it need not be the oldest.
-/

namespace RsMatter

def GroupCtrEntry.key (e : GroupCtrEntry) : ℕ × BitVec 64 := (e.fabIdx, e.srcNodeid)

namespace GroupCtrStore

/-- A call of `post_recv`. -/
structure Call where
  fabIdx : ℕ
  srcNodeid : BitVec 64
  msgCtr : BitVec 32
  deriving DecidableEq

def Call.key (c : Call) : ℕ × BitVec 64 := (c.fabIdx, c.srcNodeid)

def call (store : GroupCtrStore) (c : Call) : Bool × GroupCtrStore :=
  store.postRecv c.fabIdx c.srcNodeid c.msgCtr

def after (store : GroupCtrStore) : List Call → GroupCtrStore
  | [] => store
  | c :: cs => after (store.call c).2 cs

def answers (store : GroupCtrStore) : List Call → List (Call × Bool)
  | [] => []
  | c :: cs => (c, (store.call c).1) :: answers (store.call c).2 cs

/-- The number of the last call of a sender, from 1; 0 if there is none. -/
def lastHeard (calls : List Call) (k : ℕ × BitVec 64) : ℕ :=
  calls.length - calls.reverse.findIdx fun c => c.key == k

theorem after_append (store : GroupCtrStore) (cs ds : List Call) :
    store.after (cs ++ ds) = (store.after cs).after ds := by
  induction cs generalizing store with
  | nil => rfl
  | cons c cs ih => exact ih _

theorem answers_append (store : GroupCtrStore) (cs ds : List Call) :
    store.answers (cs ++ ds) = store.answers cs ++ (store.after cs).answers ds := by
  induction cs generalizing store with
  | nil => rfl
  | cons c cs ih => exact congrArg ((c, (store.call c).1) :: ·) (ih _)

/-! ## One call -/

def entryOf (store : GroupCtrStore) (c : Call) : GroupCtrEntry :=
  ⟨c.fabIdx, c.srcNodeid, .new c.msgCtr, store.clock + 1⟩

/-- The first entry with the least value of the clock. -/
def lru (store : GroupCtrStore) : ℕ :=
  store.entries.findIdx fun e => store.entries.all fun e' => e.lastUsed ≤ e'.lastUsed

variable {store : GroupCtrStore} {c : Call}

/-- **What a call does**: it goes to the sender's own counters, or it makes an entry for the sender, at the
end or in the place of another. -/
theorem call_cases (store : GroupCtrStore) (c : Call) :
    (∃ i e, store.entries[i]? = some e ∧ e.key = c.key ∧
      store.call c = ((e.rxCtr.postRecv c.msgCtr true).1,
        ⟨store.entries.set i { e with
          rxCtr := (e.rxCtr.postRecv c.msgCtr true).2, lastUsed := store.clock + 1 }, store.clock + 1⟩)) ∨
    (¬ Rows.Has GroupCtrEntry.key store.entries c.key ∧ store.entries.length < maxGroupCtrEntries ∧
      store.call c = (true, ⟨store.entries ++ [store.entryOf c], store.clock + 1⟩)) ∨
    (¬ Rows.Has GroupCtrEntry.key store.entries c.key ∧ maxGroupCtrEntries ≤ store.entries.length ∧
      store.call c = (true, ⟨store.entries.set store.lru (store.entryOf c), store.clock + 1⟩)) := by
  have hfun : (fun e : GroupCtrEntry => e.fabIdx == c.fabIdx && e.srcNodeid == c.srcNodeid) =
      fun e => decide (e.key = c.key) := by
    funext e
    rw [Bool.eq_iff_iff]
    simp [GroupCtrEntry.key, Call.key]
  rw [call, postRecv, hfun]
  cases hfind : store.entries.findIdx? fun e => decide (e.key = c.key) with
  | some i =>
    obtain ⟨e, he, hkey⟩ := Rows.findIdx?_eq_some hfind
    refine .inl ⟨i, e, he, hkey, ?_⟩
    dsimp only
    rw [he]
  | none =>
    have hnew := Rows.findIdx?_eq_none.mp hfind
    refine .inr ?_
    by_cases hroom : store.entries.length < maxGroupCtrEntries
    · exact .inl ⟨hnew, hroom, if_pos hroom⟩
    · exact .inr ⟨hnew, Nat.le_of_not_lt hroom, if_neg hroom⟩

theorem map_key_set {i : ℕ} {e : GroupCtrEntry} {rx : RxCtrState} {t : BitVec 32}
    (he : store.entries[i]? = some e) :
    (store.entries.set i { e with rxCtr := rx, lastUsed := t }).map GroupCtrEntry.key =
      store.entries.map GroupCtrEntry.key := Rows.map_key_set he rfl

/-! ## The last call of a sender -/

section LastHeard

variable {k : ℕ × BitVec 64} {calls : List Call}

theorem lastHeard_snoc (calls : List Call) (c : Call) (k : ℕ × BitVec 64) :
    lastHeard (calls ++ [c]) k = if c.key = k then calls.length + 1 else lastHeard calls k := by
  rw [lastHeard, lastHeard, List.reverse_append, List.reverse_singleton, List.singleton_append,
    List.findIdx_cons, List.length_append, List.length_singleton]
  by_cases hk : c.key = k
  · rw [if_pos hk, beq_iff_eq.mpr hk]
    rfl
  · rw [if_neg hk, beq_eq_false_iff_ne.mpr hk]
    exact Nat.add_sub_add_right ..

theorem lastHeard_append (calls ds : List Call) (k : ℕ × BitVec 64) :
    lastHeard (calls ++ ds) k =
      if k ∈ ds.map Call.key then calls.length + lastHeard ds k else lastHeard calls k := by
  induction ds using List.reverseRecOn with
  | nil => simp
  | append_singleton ds c ih =>
    rw [← List.append_assoc, lastHeard_snoc, ih, lastHeard_snoc]
    by_cases hck : c.key = k
    · simp [hck, Nat.add_assoc]
    · simp [hck, Ne.symm hck]

theorem lastHeard_le (calls : List Call) (k : ℕ × BitVec 64) : lastHeard calls k ≤ calls.length :=
  Nat.sub_le ..

theorem exists_of_lastHeard (hk : k ∈ calls.map Call.key) :
    ∃ c, 0 < lastHeard calls k ∧ calls[lastHeard calls k - 1]? = some c ∧ c.key = k := by
  induction calls using List.reverseRecOn with
  | nil => cases hk
  | append_singleton calls c ih =>
    rw [lastHeard_snoc]
    by_cases hck : c.key = k
    · rw [if_pos hck]
      exact ⟨c, Nat.succ_pos _, by simp, hck⟩
    · rw [if_neg hck]
      have hmem : k ∈ calls.map Call.key := by
        rw [List.map_append, List.mem_append] at hk
        exact hk.resolve_right fun h => hck (List.mem_singleton.mp h).symm
      obtain ⟨d, hpos, hd, hdk⟩ := ih hmem
      refine ⟨d, hpos, ?_, hdk⟩
      rw [List.getElem?_append_left]
      · exact hd
      · have := lastHeard_le calls k
        omega

theorem eq_of_lastHeard_eq {k' : ℕ × BitVec 64} (hk : k ∈ calls.map Call.key)
    (hk' : k' ∈ calls.map Call.key) (h : lastHeard calls k = lastHeard calls k') : k = k' := by
  obtain ⟨c, -, hc, rfl⟩ := exists_of_lastHeard hk
  obtain ⟨c', -, hc', rfl⟩ := exists_of_lastHeard hk'
  rw [h, hc'] at hc
  rw [Option.some.inj hc]

end LastHeard

/-! ## Every run -/

structure Traced (calls : List Call) (store : GroupCtrStore) : Prop where
  size : store.entries.length ≤ maxGroupCtrEntries
  nodup : (store.entries.map GroupCtrEntry.key).Nodup
  clock : store.clock = BitVec.ofNat 32 calls.length
  /-- an entry is for a sender that has called, and has the clock of its last call -/
  heard : ∀ e ∈ store.entries, e.key ∈ calls.map Call.key ∧
    e.lastUsed = BitVec.ofNat 32 (lastHeard calls e.key)

theorem traced_new : Traced [] new where
  size := Nat.zero_le _
  nodup := List.nodup_nil
  clock := rfl
  heard _ h := absurd h List.not_mem_nil

section Run

variable {calls : List Call}

theorem Traced.clock_snoc (h : Traced calls store) :
    store.clock + 1 = BitVec.ofNat 32 (calls ++ [c]).length := by
  rw [h.clock, List.length_append, List.length_singleton, BitVec.ofNat_add]
  rfl

theorem Traced.heard_snoc_of_ne (h : Traced calls store) {e : GroupCtrEntry} (he : e ∈ store.entries)
    (hne : e.key ≠ c.key) : e.key ∈ (calls ++ [c]).map Call.key ∧
      e.lastUsed = BitVec.ofNat 32 (lastHeard (calls ++ [c]) e.key) := by
  obtain ⟨hmem, hlast⟩ := h.heard e he
  refine ⟨?_, ?_⟩
  · rw [List.map_append]
    exact List.mem_append_left _ hmem
  · rw [lastHeard_snoc, if_neg hne.symm, hlast]

theorem Traced.heard_snoc_of_eq (h : Traced calls store) {e : GroupCtrEntry} (hkey : e.key = c.key)
    (hlast : e.lastUsed = store.clock + 1) : e.key ∈ (calls ++ [c]).map Call.key ∧
      e.lastUsed = BitVec.ofNat 32 (lastHeard (calls ++ [c]) e.key) := by
  refine ⟨?_, ?_⟩
  · rw [List.map_append, hkey]
    exact List.mem_append_right _ List.mem_cons_self
  · rw [hlast, h.clock_snoc (c := c), lastHeard_snoc, if_pos hkey.symm, List.length_append,
      List.length_singleton]

theorem Traced.call (h : Traced calls store) (c : Call) : Traced (calls ++ [c]) (store.call c).2 := by
  rcases call_cases store c with ⟨i, e, he, hkey, hcall⟩ | ⟨hnew, hroom, hcall⟩ | ⟨hnew, hfull, hcall⟩ <;>
    rw [hcall]
  · refine ⟨?_, ?_, h.clock_snoc, fun x hx => ?_⟩
    · rw [List.length_set]
      exact h.size
    · rw [map_key_set he]
      exact h.nodup
    · rcases (Rows.mem_set_iff h.nodup he).mp hx with rfl | ⟨hx, hne⟩
      · exact h.heard_snoc_of_eq hkey rfl
      · exact h.heard_snoc_of_ne hx (hkey ▸ hne)
  · refine ⟨?_, Rows.nodup_append h.nodup hnew, h.clock_snoc, fun x hx => ?_⟩
    · rw [List.length_append, List.length_singleton]
      exact hroom
    · rcases List.mem_append.mp hx with hx | hx
      · exact h.heard_snoc_of_ne hx fun hkey => hnew ⟨x, hx, hkey⟩
      · rw [List.mem_singleton.mp hx]
        exact h.heard_snoc_of_eq rfl rfl
  · refine ⟨?_, ?_, h.clock_snoc, fun x hx => ?_⟩
    · rw [List.length_set]
      exact h.size
    · rw [List.map_set]
      exact h.nodup.set fun hmem => hnew (Rows.has_iff_mem.mpr hmem)
    · rcases List.mem_or_eq_of_mem_set hx with hx | rfl
      · exact h.heard_snoc_of_ne hx fun hkey => hnew ⟨x, hx, hkey⟩
      · exact h.heard_snoc_of_eq rfl rfl

theorem traced_after (calls : List Call) : Traced calls (new.after calls) := by
  induction calls using List.reverseRecOn with
  | nil => exact traced_new
  | append_singleton calls c ih =>
    rw [after_append]
    exact ih.call c

end Run

/-! ## Senders on their own -/

def ctrsOf (calls : List Call) (k : ℕ × BitVec 64) : List (BitVec 32) :=
  (calls.filter (·.key == k)).map Call.msgCtr

/-- The state of a sender on its own: the first counter is trusted. -/
def rxOf : List (BitVec 32) → Option RxCtrState
  | [] => none
  | c :: cs => some (RxCtrState.recvAll (.new c) cs)

def answerOf (ctrs : List (BitVec 32)) (ctr : BitVec 32) : Bool :=
  match rxOf ctrs with
  | none => true
  | some rx => (rx.postRecv ctr true).1

def senders (calls : List Call) : Finset (ℕ × BitVec 64) := (calls.map Call.key).toFinset

theorem ctrsOf_snoc_self (calls : List Call) (c : Call) :
    ctrsOf (calls ++ [c]) c.key = ctrsOf calls c.key ++ [c.msgCtr] := by
  simp [ctrsOf]

theorem ctrsOf_snoc_of_ne {calls : List Call} {k : ℕ × BitVec 64} (h : c.key ≠ k) :
    ctrsOf (calls ++ [c]) k = ctrsOf calls k := by
  simp [ctrsOf, h]

theorem ctrsOf_eq_nil {calls : List Call} {k : ℕ × BitVec 64} (h : k ∉ calls.map Call.key) :
    ctrsOf calls k = [] := by
  rw [ctrsOf, List.map_eq_nil_iff, List.filter_eq_nil_iff]
  exact fun c hc hk => h (List.mem_map.mpr ⟨c, hc, eq_of_beq hk⟩)

theorem rxOf_snoc {ctrs : List (BitVec 32)} {rx : RxCtrState} (h : rxOf ctrs = some rx) (ctr : BitVec 32) :
    rxOf (ctrs ++ [ctr]) = some (rx.postRecv ctr true).2 := by
  cases ctrs with
  | nil => cases h
  | cons c cs =>
    obtain rfl := Option.some.inj h
    exact congrArg some (RxCtrState.recvAll_append _ cs [ctr])

/-- Every sender that has called has its entry, with its own counters. -/
structure Own (calls : List Call) (store : GroupCtrStore) : Prop where
  keys : ∀ k, Rows.Has GroupCtrEntry.key store.entries k ↔ k ∈ calls.map Call.key
  own : ∀ e ∈ store.entries, rxOf (ctrsOf calls e.key) = some e.rxCtr

section Senders

variable {calls : List Call}

theorem senders_append (calls ds : List Call) : senders (calls ++ ds) = senders calls ∪ senders ds := by
  rw [senders, List.map_append, List.toFinset_append]
  rfl

theorem Own.length_eq (hO : Own calls store) (hT : Traced calls store) :
    store.entries.length = (senders calls).card := by
  have hsame : (store.entries.map GroupCtrEntry.key).toFinset = senders calls := by
    ext k
    rw [List.mem_toFinset, ← Rows.has_iff_mem, hO.keys k, senders, List.mem_toFinset]
  rw [← hsame, List.toFinset_card_of_nodup hT.nodup, List.length_map]

/-- While the senders fit, the answer is the sender's own, and no entry is lost. -/
theorem Own.call (hO : Own calls store) (hT : Traced calls store)
    (hfew : (senders (calls ++ [c])).card ≤ maxGroupCtrEntries) :
    (store.call c).1 = answerOf (ctrsOf calls c.key) c.msgCtr ∧ Own (calls ++ [c]) (store.call c).2 := by
  have hmem (k : ℕ × BitVec 64) : k ∈ (calls ++ [c]).map Call.key ↔ k ∈ calls.map Call.key ∨ c.key = k := by
    rw [List.map_append, List.mem_append, List.map_singleton, List.mem_singleton]
    exact or_congr_right eq_comm
  have hother (e : GroupCtrEntry) (he : e ∈ store.entries) (hne : e.key ≠ c.key) :
      rxOf (ctrsOf (calls ++ [c]) e.key) = some e.rxCtr := by
    rw [ctrsOf_snoc_of_ne hne.symm]
    exact hO.own e he
  rcases call_cases store c with ⟨i, e, he, hkey, hcall⟩ | ⟨hnew, hroom, hcall⟩ | ⟨hnew, hfull, hcall⟩ <;>
    rw [hcall]
  · -- the sender is known
    have hin := List.mem_of_getElem? he
    have hrx := hO.own e hin
    refine ⟨?_, fun k => ?_, fun x hx => ?_⟩
    · rw [← hkey, answerOf, hrx]
    · rw [Rows.has_congr (map_key_set he), hO.keys k, hmem k, or_iff_left_of_imp]
      rintro rfl
      exact hkey ▸ (hT.heard e hin).1
    · rcases (Rows.mem_set_iff hT.nodup he).mp hx with rfl | ⟨hx, hne⟩
      · change rxOf (ctrsOf (calls ++ [c]) e.key) = _
        rw [hkey, ctrsOf_snoc_self, ← hkey]
        exact rxOf_snoc hrx c.msgCtr
      · exact hother x hx (hkey ▸ hne)
  · -- the sender is new
    have hnil : ctrsOf calls c.key = [] := ctrsOf_eq_nil fun h => hnew ((hO.keys c.key).mpr h)
    refine ⟨?_, fun k => ?_, fun x hx => ?_⟩
    · rw [hnil]
      rfl
    · rw [Rows.has_append, hO.keys k, hmem k]
      rfl
    · rcases List.mem_append.mp hx with hx | hx
      · exact hother x hx fun hxk => hnew ⟨x, hx, hxk⟩
      · rw [List.mem_singleton.mp hx]
        change rxOf (ctrsOf (calls ++ [c]) c.key) = _
        rw [ctrsOf_snoc_self, hnil]
        rfl
  · -- there would be one more sender than entries
    exfalso
    have hout : c.key ∉ senders calls := by
      rw [senders, List.mem_toFinset, ← hO.keys c.key]
      exact hnew
    have hcard : (senders (calls ++ [c])).card = (senders calls).card + 1 := by
      rw [senders_append, show senders [c] = {c.key} from rfl, Finset.union_comm, ← Finset.insert_eq,
        Finset.card_insert_of_notMem hout]
    rw [hcard, ← hO.length_eq hT] at hfew
    omega

theorem own_new : Own [] new where
  keys _ := iff_of_false (fun ⟨_, he, _⟩ => absurd he List.not_mem_nil) List.not_mem_nil
  own _ h := absurd h List.not_mem_nil

theorem card_senders_le {ds : List Call} (h : ds ⊆ calls) : (senders ds).card ≤ (senders calls).card :=
  Finset.card_le_card fun k hk => by
    rw [senders, List.mem_toFinset] at hk ⊢
    exact List.map_subset _ h hk

theorem own_after (hfew : (senders calls).card ≤ maxGroupCtrEntries) : Own calls (new.after calls) := by
  induction calls using List.reverseRecOn with
  | nil => exact own_new
  | append_singleton calls c ih =>
    have hO := ih ((card_senders_le (List.subset_append_left ..)).trans hfew)
    rw [after_append]
    exact (hO.call (traced_after calls) hfew).2

theorem answers_snoc (hfew : (senders (calls ++ [c])).card ≤ maxGroupCtrEntries) :
    new.answers (calls ++ [c]) = new.answers calls ++ [(c, answerOf (ctrsOf calls c.key) c.msgCtr)] := by
  have hO := own_after ((card_senders_le (List.subset_append_left ..)).trans hfew)
  rw [answers_append, ← (hO.call (traced_after calls) hfew).1]
  rfl

/-- **Independence.** -/
theorem filter_answers (hfew : (senders calls).card ≤ maxGroupCtrEntries) (k : ℕ × BitVec 64) :
    (new.answers calls).filter (fun p => p.1.key == k) = new.answers (calls.filter (·.key == k)) := by
  induction calls using List.reverseRecOn with
  | nil => rfl
  | append_singleton calls c ih =>
    rw [answers_snoc hfew, List.filter_append,
      ih ((card_senders_le (List.subset_append_left ..)).trans hfew), List.filter_append]
    by_cases hk : c.key = k
    · have hsub : calls.filter (·.key == k) ++ [c] ⊆ calls ++ [c] :=
        List.append_subset.mpr ⟨fun x hx => List.mem_append_left _ (List.mem_filter.mp hx).1,
          List.subset_append_right ..⟩
      have hown : ctrsOf (calls.filter (·.key == k)) c.key = ctrsOf calls c.key := by
        rw [ctrsOf, ctrsOf, List.filter_filter, hk]
        simp only [Bool.and_self]
      rw [List.filter_cons_of_pos (by simpa using hk), List.filter_cons_of_pos (by simpa using hk),
        List.filter_nil, List.filter_nil, answers_snoc ((card_senders_le hsub).trans hfew), hown]
    · rw [List.filter_cons_of_neg (by simpa using hk), List.filter_cons_of_neg (by simpa using hk),
        List.filter_nil, List.filter_nil, List.append_nil, List.append_nil]

theorem refused_again {m x : BitVec 32} {cs : List (BitVec 32)}
    (h : x = m ∨ (x, true) ∈ RxCtrState.recvRun (.new m) cs) :
    ((RxCtrState.recvAll (.new m) cs).postRecv x true).1 = false := by
  by_contra hacc
  have hrun : RxCtrState.recvRun (.new m) (cs ++ [x]) = RxCtrState.recvRun (.new m) cs ++ [(x, true)] := by
    rw [RxCtrState.recvRun_append, ← Bool.eq_true_of_not_eq_false hacc]
    rfl
  obtain ⟨hcount, habove⟩ := RxCtrState.recvRun_fresh (cs ++ [x]) (RxCtrState.fresh_new m) x
  rw [hrun] at hcount habove
  rcases h with rfl | hmem
  · exact absurd (habove (List.mem_append_right _ List.mem_cons_self)).2 (BitVec.lt_irrefl _)
  · rw [List.count_append, List.count_singleton_self] at hcount
    have := List.count_pos_iff.mpr hmem
    omega

/-- What was accepted is the first counter of its sender, or was accepted by the sender's counters. -/
theorem accepted_cases (hfew : (senders calls).card ≤ maxGroupCtrEntries)
    (hacc : (c, true) ∈ new.answers calls) :
    ∃ m cs, ctrsOf calls c.key = m :: cs ∧
      (c.msgCtr = m ∨ (c.msgCtr, true) ∈ RxCtrState.recvRun (.new m) cs) := by
  induction calls using List.reverseRecOn with
  | nil => exact absurd hacc List.not_mem_nil
  | append_singleton calls d ih =>
    rw [answers_snoc hfew, List.mem_append, List.mem_singleton, Prod.mk.injEq] at hacc
    have hfew' := (card_senders_le (List.subset_append_left ..)).trans hfew
    rcases hacc with hacc | ⟨rfl, hacc⟩
    · obtain ⟨m, cs, hctrs, hcase⟩ := ih hfew' hacc
      by_cases hk : d.key = c.key
      · refine ⟨m, cs ++ [d.msgCtr], ?_, hcase.imp_right fun h => ?_⟩
        · rw [← hk, ctrsOf_snoc_self, hk, hctrs]
          rfl
        · rw [RxCtrState.recvRun_append]
          exact List.mem_append_left _ h
      · exact ⟨m, cs, (ctrsOf_snoc_of_ne hk).trans hctrs, hcase⟩
    · rw [ctrsOf_snoc_self]
      cases hctrs : ctrsOf calls c.key with
      | nil => exact ⟨c.msgCtr, [], rfl, .inl rfl⟩
      | cons m cs =>
        rw [hctrs] at hacc
        refine ⟨m, cs ++ [c.msgCtr], rfl, .inr ?_⟩
        rw [RxCtrState.recvRun_append]
        exact List.mem_append_right _ (List.mem_singleton.mpr (congrArg (c.msgCtr, ·) hacc))

/-- **No replay.** -/
theorem count_answers_le (hfew : (senders calls).card ≤ maxGroupCtrEntries) (c : Call) :
    (new.answers calls).count (c, true) ≤ 1 := by
  induction calls using List.reverseRecOn with
  | nil => exact Nat.zero_le _
  | append_singleton calls d ih =>
    have hfew' := (card_senders_le (List.subset_append_left ..)).trans hfew
    rw [answers_snoc hfew, List.count_append]
    by_cases hacc : (c, true) ∈ new.answers calls
    · have hzero : [(d, answerOf (ctrsOf calls d.key) d.msgCtr)].count (c, true) = 0 := by
        rw [List.count_eq_zero, List.mem_singleton, Prod.mk.injEq]
        rintro ⟨rfl, htrue⟩
        obtain ⟨m, cs, hctrs, hcase⟩ := accepted_cases hfew' hacc
        rw [hctrs] at htrue
        exact absurd htrue (by simpa [answerOf, rxOf] using refused_again hcase)
      rw [hzero]
      exact ih hfew'
    · rw [List.count_eq_zero.mpr hacc, Nat.zero_add]
      exact List.count_le_length

end Senders

/-! ## Who has to go

The entries have the clock of the last calls, which is the number of the call up to a multiple of `2 ^ 32`.
The first entry with the least clock goes. -/

def stamp (calls : List Call) (k : ℕ × BitVec 64) : ℕ := lastHeard calls k % 2 ^ 32

/-- Nobody in the store has been silent for longer. -/
def Oldest (calls : List Call) (store : GroupCtrStore) (e : GroupCtrEntry) : Prop :=
  ∀ e' ∈ store.entries, lastHeard calls e.key ≤ lastHeard calls e'.key

/-- The oldest entry is the first one with the least clock. -/
def InOrder (calls : List Call) (store : GroupCtrStore) : Prop :=
  ∀ (i : ℕ) (e : GroupCtrEntry), store.entries[i]? = some e → Oldest calls store e →
    ∀ (j : ℕ) (e' : GroupCtrEntry), store.entries[j]? = some e' → stamp calls e.key ≤ stamp calls e'.key ∧
      (j < i → stamp calls e.key < stamp calls e'.key)

section Evict

variable {calls : List Call}

theorem Traced.toNat_lastUsed (hT : Traced calls store) {e : GroupCtrEntry} (he : e ∈ store.entries) :
    e.lastUsed.toNat = stamp calls e.key := by
  rw [(hT.heard e he).2, BitVec.toNat_ofNat]
  rfl

theorem Traced.index_eq (hT : Traced calls store) {i j : ℕ} {e : GroupCtrEntry}
    (hi : store.entries[i]? = some e) (hj : store.entries[j]? = some e) : i = j := by
  obtain ⟨hi', hgeti⟩ := List.getElem?_eq_some_iff.mp hi
  obtain ⟨hj', hgetj⟩ := List.getElem?_eq_some_iff.mp hj
  exact (List.Nodup.getElem_inj_iff (List.Nodup.of_map _ hT.nodup)).mp (hgeti.trans hgetj.symm)

theorem Traced.lru_eq_iff (hT : Traced calls store) {i : ℕ} {e : GroupCtrEntry}
    (he : store.entries[i]? = some e) :
    store.lru = i ↔ ∀ (j : ℕ) (e' : GroupCtrEntry), store.entries[j]? = some e' →
      stamp calls e.key ≤ stamp calls e'.key ∧ (j < i → stamp calls e.key < stamp calls e'.key) := by
  obtain ⟨hi, hget⟩ := List.getElem?_eq_some_iff.mp he
  have hin := List.mem_of_getElem? he
  have hleast (x : GroupCtrEntry) (hx : x ∈ store.entries) :
      (store.entries.all fun e' => x.lastUsed ≤ e'.lastUsed) = true ↔
        ∀ e' ∈ store.entries, stamp calls x.key ≤ stamp calls e'.key := by
    rw [List.all_eq_true]
    refine forall₂_congr fun e' he' => ?_
    rw [decide_eq_true_eq, BitVec.le_def, hT.toNat_lastUsed hx, hT.toNat_lastUsed he']
  rw [lru, List.findIdx_eq hi, hget, hleast e hin]
  constructor
  · rintro ⟨hmin, hfirst⟩ j e' hj
    have hmem := List.mem_of_getElem? hj
    refine ⟨hmin e' hmem, fun hlt => Nat.lt_of_not_le fun hle => ?_⟩
    -- an earlier entry that is not greater would be least, too
    obtain ⟨hj', hgetj⟩ := List.getElem?_eq_some_iff.mp hj
    have hno := hfirst j hlt
    rw [hgetj] at hno
    exact Bool.eq_false_iff.mp hno ((hleast e' hmem).mpr fun x hx => hle.trans (hmin x hx))
  · refine fun h => ⟨fun e' he' => ?_, fun j hlt => ?_⟩
    · obtain ⟨j, hj⟩ := List.mem_iff_getElem?.mp he'
      exact (h j e' hj).1
    · rw [Bool.eq_false_iff, Ne, hleast _ (List.getElem_mem _)]
      intro hmin
      have hstrict := (h j _ (List.getElem?_eq_getElem (hlt.trans hi))).2 hlt
      exact absurd (hmin e hin) (Nat.not_le_of_lt hstrict)

theorem exists_oldest (calls : List Call) (hne : store.entries ≠ []) :
    ∃ (i : ℕ) (e : GroupCtrEntry), store.entries[i]? = some e ∧ Oldest calls store e := by
  obtain ⟨e, he, hmin⟩ := store.entries.toFinset.exists_min_image (fun e => lastHeard calls e.key)
    (List.toFinset_nonempty_iff _ |>.mpr hne)
  obtain ⟨i, hi⟩ := List.mem_iff_getElem?.mp (List.mem_toFinset.mp he)
  exact ⟨i, e, hi, fun e' he' => hmin e' (List.mem_toFinset.mpr he')⟩

theorem Traced.oldest_unique (hT : Traced calls store) {e e' : GroupCtrEntry} (he : e ∈ store.entries)
    (he' : e' ∈ store.entries) (ho : Oldest calls store e) (ho' : Oldest calls store e') : e = e' :=
  Rows.eq_of_key_eq hT.nodup he he' <|
    eq_of_lastHeard_eq (hT.heard e he).1 (hT.heard e' he').1 (le_antisymm (ho e' he') (ho' e he))

/-- The entries that a call by a new sender leaves out of a full store. -/
theorem Traced.replaced_iff (hT : Traced calls store) (hfull : store.entries.length = maxGroupCtrEntries)
    (hnew : ¬ Rows.Has GroupCtrEntry.key store.entries c.key) {i : ℕ} {e : GroupCtrEntry}
    (he : store.entries[i]? = some e) :
    ¬ Rows.Has GroupCtrEntry.key (store.call c).2.entries e.key ↔ store.lru = i := by
  have hin := List.mem_of_getElem? he
  have hcall : (store.call c).2.entries = store.entries.set store.lru (store.entryOf c) := by
    rcases call_cases store c with ⟨j, x, hx, hkey, -⟩ | ⟨-, hroom, -⟩ | ⟨-, -, hcall⟩
    · exact absurd ⟨x, List.mem_of_getElem? hx, hkey⟩ hnew
    · omega
    · rw [hcall]
  have hne : e.key ≠ c.key := fun h => hnew ⟨e, hin, h⟩
  rw [hcall]
  constructor
  · intro hgone
    by_contra hlru
    refine hgone ⟨e, List.mem_iff_getElem?.mpr ⟨i, ?_⟩, rfl⟩
    rw [List.getElem?_set_ne hlru, he]
  · rintro rfl ⟨x, hx, hxe⟩
    obtain ⟨j, hj⟩ := List.mem_iff_getElem?.mp hx
    by_cases hji : store.lru = j
    · subst hji
      rw [List.getElem?_set_self (List.getElem?_eq_some_iff.mp he).1] at hj
      obtain rfl := Option.some.inj hj
      exact hne hxe.symm
    · rw [List.getElem?_set_ne hji] at hj
      have hsame := Rows.eq_of_key_eq hT.nodup (List.mem_of_getElem? hj) hin hxe
      subst hsame
      exact hji (hT.index_eq he hj)

/-- **Eviction.** The entry that is replaced is the oldest one exactly if the clock has it first. -/
theorem Traced.evicts_oldest_iff (hT : Traced calls store)
    (hfull : store.entries.length = maxGroupCtrEntries)
    (hnew : ¬ Rows.Has GroupCtrEntry.key store.entries c.key) :
    (∀ e ∈ store.entries, ¬ Rows.Has GroupCtrEntry.key (store.call c).2.entries e.key →
      Oldest calls store e) ↔ InOrder calls store := by
  have hne : store.entries ≠ [] := fun h => by
    rw [h] at hfull
    cases hfull
  obtain ⟨i, o, hi, hoi⟩ := exists_oldest calls hne
  constructor
  · intro hevict i' e he ho
    have hsame := hT.oldest_unique (List.mem_of_getElem? he) (List.mem_of_getElem? hi) ho hoi
    -- some entry goes, and it is the oldest
    have hlt : store.lru < store.entries.length := by
      obtain ⟨m, hm, hmin⟩ := store.entries.toFinset.exists_min_image (fun e => e.lastUsed.toNat)
        (List.toFinset_nonempty_iff _ |>.mpr hne)
      refine List.findIdx_lt_length_of_exists ⟨m, List.mem_toFinset.mp hm, ?_⟩
      rw [List.all_eq_true]
      exact fun x hx => decide_eq_true (hmin x (List.mem_toFinset.mpr hx))
    have hv := List.getElem?_eq_getElem hlt
    have hov := hevict _ (List.mem_of_getElem? hv) ((hT.replaced_iff hfull hnew hv).mpr rfl)
    have hve := hT.oldest_unique (List.mem_of_getElem? hv) (List.mem_of_getElem? he) hov ho
    rw [hve] at hv
    exact (hT.lru_eq_iff he).mp (hT.index_eq hv he)
  · intro horder e he hgone
    obtain ⟨j, hj⟩ := List.mem_iff_getElem?.mp he
    have hlru := (hT.replaced_iff hfull hnew hj).mp hgone
    have hlru' := (hT.lru_eq_iff hi).mpr (horder i o hi hoi)
    obtain rfl : i = j := hlru'.symm.trans hlru
    rw [hi] at hj
    obtain rfl := Option.some.inj hj
    exact hoi

end Evict

/-- **Group replay protection.** There is never more than one entry for a sender, nor more entries than
fit. While no more senders than that have called, no counter of a sender is accepted twice, and the answers
to a sender are those it would get alone. A new sender takes the place of the one that was silent for the
longest time exactly if the clock has them in order. -/
theorem replay_protection (calls : List Call) :
    ((new.after calls).entries.length ≤ maxGroupCtrEntries ∧
      ((new.after calls).entries.map GroupCtrEntry.key).Nodup) ∧
    ((senders calls).card ≤ maxGroupCtrEntries →
      (∀ c, (new.answers calls).count (c, true) ≤ 1) ∧
      ∀ k, (new.answers calls).filter (fun p => p.1.key == k) = new.answers (calls.filter (·.key == k))) ∧
    ∀ c, (new.after calls).entries.length = maxGroupCtrEntries →
      ¬ Rows.Has GroupCtrEntry.key (new.after calls).entries c.key →
      ((∀ e ∈ (new.after calls).entries,
        ¬ Rows.Has GroupCtrEntry.key ((new.after calls).call c).2.entries e.key →
          Oldest calls (new.after calls) e) ↔ InOrder calls (new.after calls)) := by
  have hT := traced_after calls
  exact ⟨⟨hT.size, hT.nodup⟩, fun hfew => ⟨count_answers_le hfew, filter_answers hfew⟩,
    fun c hfull hnew => hT.evicts_oldest_iff hfull hnew⟩

/-! ### The clock goes round -/

theorem after_replicate (c : Call) (n : ℕ) :
    new.after (List.replicate (n + 1) c) =
      ⟨[⟨c.fabIdx, c.srcNodeid, .new c.msgCtr, BitVec.ofNat 32 (n + 1)⟩], BitVec.ofNat 32 (n + 1)⟩ := by
  induction n with
  | zero => rfl
  | succ n ih =>
    rw [List.replicate_succ', after_append, ih]
    have hrx : (RxCtrState.new c.msgCtr).postRecv c.msgCtr true = (false, .new c.msgCtr) := if_pos rfl
    simp [after, call, postRecv, hrx, BitVec.ofNat_add]

def callOf (n : ℕ) : Call := ⟨1, BitVec.ofNat 64 n, 100⟩

/-- One sender calls until the clock is at its last value, then fifteen others call once. -/
def wrappingCalls : List Call := List.replicate (2 ^ 32 - 1) (callOf 0) ++ (List.range' 1 15).map callOf

/-- The seventeenth sender takes the place of the second one, although the first has been silent for
longer. -/
theorem evicts_younger :
    ¬ ∀ (calls : List Call) (c : Call), (new.after calls).entries.length = maxGroupCtrEntries →
      ¬ Rows.Has GroupCtrEntry.key (new.after calls).entries c.key →
      ∀ e ∈ (new.after calls).entries,
        ¬ Rows.Has GroupCtrEntry.key ((new.after calls).call c).2.entries e.key →
          Oldest calls (new.after calls) e := by
  have hafter : new.after wrappingCalls =
      after ⟨[⟨1, 0, .new 100, BitVec.ofNat 32 (2 ^ 32 - 1)⟩], BitVec.ofNat 32 (2 ^ 32 - 1)⟩
        ((List.range' 1 15).map callOf) := by
    have hn : 2 ^ 32 - 1 = 2 ^ 32 - 2 + 1 := by decide
    rw [wrappingCalls, after_append, hn, after_replicate]
    rfl
  have hfirst : lastHeard wrappingCalls (callOf 0).key ≤ 2 ^ 32 - 1 := by
    rw [wrappingCalls, lastHeard_append, if_neg (by decide)]
    refine (lastHeard_le ..).trans_eq ?_
    exact List.length_replicate
  have hsecond : lastHeard wrappingCalls (callOf 1).key = 2 ^ 32 := by
    rw [wrappingCalls, lastHeard_append, if_pos (by decide), List.length_replicate]
    rfl
  intro h
  have holdest := h wrappingCalls (callOf 16)
  rw [hafter] at holdest
  have hle := holdest (by decide +kernel) (Rows.has_iff_mem.not.mpr (by decide +kernel)) ⟨1, 1, .new 100, 0⟩
    (by decide +kernel) (Rows.has_iff_mem.not.mpr (by decide +kernel))
    ⟨1, 0, .new 100, BitVec.ofNat 32 (2 ^ 32 - 1)⟩ (by decide +kernel)
  exact absurd (hsecond ▸ hle.trans hfirst) (by decide)

end GroupCtrStore

end RsMatter
