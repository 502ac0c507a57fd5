import RsMatter.ReportChunks

/-!
# The loops of a chunked report

Each loop tries again what did not fit, in an empty chunk. That is enough if it fits there, and
goes on forever if it does not. The index of a list item has 16 bits; a list that has more items
starts over.
-/

namespace RsMatter

namespace ListAttr

/-- How much room is needed at a position: for the empty list, for each item, and to find the
end. -/
def needAt (l : ListAttr) : Option ℕ → ℕ
  | none => l.empty.need
  | some i => ((l.items[i]?).map Report.need).getD l.endNeed

/-- Is one position after another, or the same? -/
def after : Option ℕ → Option ℕ → Prop
  | none, _ => True
  | some _, none => False
  | some i, some j => i ≤ j

variable {l : ListAttr} {index : Option ℕ} {wb wb' : WriteBuf}

theorem readAt_cases (l : ListAttr) (index : Option ℕ) (wb : WriteBuf) :
    (l.needAt index ≤ wb.room ∧ (∀ i, index = some i → i < l.items.length) ∧
      ∃ bytes, l.readAt index wb = .ok (wb.push bytes)) ∨
    (l.needAt index ≤ wb.room ∧ (∃ i, index = some i ∧ l.items.length ≤ i) ∧
      l.readAt index wb = .error .constraintError) ∨
    (¬ l.needAt index ≤ wb.room ∧ l.readAt index wb = .error .noSpace) := by
  cases index with
  | none =>
    by_cases h : l.empty.need ≤ wb.room
    · exact .inl ⟨h, nofun, _, Report.read_ok h⟩
    · exact .inr (.inr ⟨h, Report.read_error h⟩)
  | some i =>
    rw [needAt, readAt]
    by_cases hi : i < l.items.length
    · rw [List.getElem?_eq_getElem hi]
      by_cases h : l.items[i].need ≤ wb.room
      · refine .inl ⟨h, ?_, _, Report.read_ok h⟩
        rintro j ⟨⟩
        exact hi
      · exact .inr (.inr ⟨h, Report.read_error h⟩)
    · rw [List.getElem?_eq_none (Nat.le_of_not_lt hi)]
      by_cases h : l.endNeed ≤ wb.room
      · exact .inr (.inl ⟨h, ⟨i, rfl, Nat.le_of_not_lt hi⟩, if_pos h⟩)
      · exact .inr (.inr ⟨h, if_neg h⟩)

end ListAttr

namespace ReportFrame

variable {f : ReportFrame} {s : Chunks}

/-! ## Single reports -/

theorem readLoop_stuck (hf : f.Opens) {r : Report} (hr : ¬ r.need ≤ f.room) (fuel : ℕ) :
    ∀ s : Chunks, s.wb.room ≤ f.room → f.readLoop r fuel s = none := by
  induction fuel with
  | zero => exact fun s _ => rfl
  | succ fuel ih =>
    intro s hs
    have hread : r.read s.wb = .error .noSpace := Report.read_error fun h => hr (h.trans hs)
    rw [readLoop, hread, send_attributes hf]
    exact ih _ (Nat.le_refl _)

theorem readLoop_ends (hf : f.Opens) {r : Report} (hr : r.need ≤ f.room) (s : Chunks) :
    (f.readLoop r 2 s).isSome = true := by
  rw [readLoop]
  by_cases h : r.need ≤ s.wb.room
  · rw [Report.read_ok h]
    rfl
  · rw [Report.read_error h, send_attributes hf]
    dsimp only
    rw [readLoop, Report.read_ok hr]
    rfl

/-! ## Lists -/

/-- There is something ahead that does not fit, or the list is too long. -/
def Blocked (f : ReportFrame) (l : ListAttr) (index : Option ℕ) : Prop :=
  2 ^ 16 ≤ l.items.length ∨
    ∃ later, ListAttr.after index later ∧ (∀ j, later = some j → j ≤ l.items.length) ∧
      ¬ l.needAt later ≤ f.room

theorem Blocked.next {l : ListAttr} {index : Option ℕ} (hb : f.Blocked l index)
    (hfit : l.needAt index ≤ f.room) (hlt : ∀ i, index = some i → i < l.items.length) :
    f.Blocked l (some (nextIndex index)) := by
  rcases hb with hlong | ⟨later, hafter, hlater, hneed⟩
  · exact .inl hlong
  · by_cases hlong : 2 ^ 16 ≤ l.items.length
    · exact .inl hlong
    refine .inr ⟨later, ?_, hlater, hneed⟩
    cases later with
    | none =>
      cases index with
      | none => exact absurd hfit hneed
      | some i => exact hafter.elim
    | some j =>
      cases index with
      | none => exact Nat.zero_le j
      | some i =>
        have hi := hlt i rfl
        have hne : i ≠ j := by
          rintro rfl
          exact hneed hfit
        have hij : i ≤ j := hafter
        rw [nextIndex, Nat.mod_eq_of_lt (by omega)]
        exact Nat.lt_of_le_of_ne hij hne

theorem nextIndex_lt (index : Option ℕ) : nextIndex index < 2 ^ 16 := by
  cases index with
  | none => exact Nat.zero_lt_succ _
  | some i => exact Nat.mod_lt _ (Nat.zero_lt_succ _)

theorem sendArrayItems_stuck (hf : f.Opens) {l : ListAttr} (fuel : ℕ) :
    ∀ (index : Option ℕ) (s : Chunks), f.Blocked l index → (∀ i, index = some i → i < 2 ^ 16) →
      s.wb.room ≤ f.room → f.sendArrayItems l fuel index s = none := by
  induction fuel with
  | zero => exact fun index s _ _ _ => rfl
  | succ fuel ih =>
    intro index s hb hindex hs
    rw [sendArrayItems]
    rcases l.readAt_cases index s.wb with
      ⟨hfit, hlt, bytes, hread⟩ | ⟨hfit, ⟨i, rfl, hi⟩, hread⟩ | ⟨-, hread⟩
    · rw [hread]
      refine ih _ _ (hb.next (hfit.trans hs) hlt) ?_ ?_
      · rintro i ⟨⟩
        exact nextIndex_lt index
      · exact (Nat.sub_le _ _).trans hs
    · -- at the end there is nothing ahead
      exfalso
      rcases hb with hlong | ⟨later, hafter, hlater, hneed⟩
      · have := hindex i rfl
        omega
      · cases later with
        | none => exact hafter
        | some j =>
          have hj := hlater j rfl
          have hij : i ≤ j := hafter
          have : i = j := by omega
          subst this
          exact hneed (hfit.trans hs)
    · rw [hread, send_attributes hf]
      exact ih _ _ hb hindex (Nat.le_refl _)

/-- From a position on, a list comes to its end if everything ahead fits. -/
theorem sendArrayItems_ends (hf : f.Opens) {l : ListAttr} (hlong : l.items.length < 2 ^ 16)
    (hfits : ∀ index, l.needAt index ≤ f.room) :
    ∀ (n : ℕ) (index : Option ℕ) (s : Chunks),
      (match index with | none => l.items.length + 1 | some i => l.items.length - i) = n →
      ∃ fuel, (f.sendArrayItems l fuel index s).isSome = true := by
  -- what is read now fits at the second try at the latest, and there is less ahead then
  have hretry : ∀ (index : Option ℕ) (s : Chunks),
      (∀ s : Chunks, l.needAt index ≤ s.wb.room →
        ∃ fuel, (f.sendArrayItems l fuel index s).isSome = true) →
      ∃ fuel, (f.sendArrayItems l fuel index s).isSome = true := by
    intro index s hnow
    by_cases h : l.needAt index ≤ s.wb.room
    · exact hnow s h
    · obtain ⟨fuel, hfuel⟩ := hnow ⟨f.opened ReportDataRespTag.attributeReports,
        s.sent ++ [s.wb.data ++ more], s.isEmpty⟩ (hfits index)
      refine ⟨fuel + 1, ?_⟩
      rcases l.readAt_cases index s.wb with ⟨hfit, -⟩ | ⟨hfit, -⟩ | ⟨-, hread⟩
      · exact absurd hfit h
      · exact absurd hfit h
      · rw [sendArrayItems, hread, send_attributes hf]
        exact hfuel
  intro n
  induction n using Nat.strong_induction_on with
  | _ n ih =>
    intro index s hn
    refine hretry index s fun s hnow => ?_
    rcases l.readAt_cases index s.wb with ⟨-, hlt, bytes, hread⟩ | ⟨-, -, hread⟩ | ⟨hfit, -⟩
    · obtain ⟨fuel, hfuel⟩ := ih (l.items.length - nextIndex index) (by
        cases index with
        | none =>
          dsimp only at hn
          omega
        | some i =>
          have := hlt i rfl
          dsimp only at hn
          rw [nextIndex, Nat.mod_eq_of_lt (by omega)]
          omega) (some (nextIndex index)) ⟨s.wb.push bytes, s.sent, s.isEmpty⟩ rfl
      refine ⟨fuel + 1, ?_⟩
      rw [sendArrayItems, hread]
      exact hfuel
    · refine ⟨1, ?_⟩
      rw [sendArrayItems, hread]
      rfl
    · exact absurd hnow hfit

/-! ## Events -/

def left (events : List StoredEvent) (nextMaxSeen maxSeen : ℕ) : ℕ :=
  events.countP fun e => decide (maxSeen < e.number ∧ e.number ≤ nextMaxSeen)

/-- Where there was no room: something did not fit, and either nothing was done or there is less
left. -/
theorem fetch_false {nextMaxSeen : ℕ} (events : List StoredEvent) :
    ∀ {maxSeen m : ℕ} {s s' : Chunks}, fetch nextMaxSeen events maxSeen s = (false, m, s') →
      maxSeen ≤ m ∧
      (∃ e ∈ events, m < e.number ∧ e.number ≤ nextMaxSeen ∧
        ∃ r, e.report = some r ∧ ¬ r.need ≤ s'.wb.room) ∧
      ((m = maxSeen ∧ s' = s) ∨
        ∃ e ∈ events, maxSeen < e.number ∧ e.number ≤ nextMaxSeen ∧ e.number ≤ m) := by
  induction events with
  | nil =>
    intro maxSeen m s s' h
    cases h
  | cons e es ih =>
    intro maxSeen m s s' h
    -- what is known of the rest, if `e` was seen, holds of the whole
    have hseen : ∀ {t : Chunks}, maxSeen < e.number → e.number ≤ nextMaxSeen →
        fetch nextMaxSeen es e.number t = (false, m, s') →
        maxSeen ≤ m ∧
        (∃ e' ∈ e :: es, m < e'.number ∧ e'.number ≤ nextMaxSeen ∧
          ∃ r, e'.report = some r ∧ ¬ r.need ≤ s'.wb.room) ∧
        ((m = maxSeen ∧ s' = s) ∨
          ∃ e' ∈ e :: es, maxSeen < e'.number ∧ e'.number ≤ nextMaxSeen ∧ e'.number ≤ m) := by
      intro t hlt hle ht
      obtain ⟨hm, ⟨e', he', hblock⟩, -⟩ := ih ht
      exact ⟨by omega, ⟨e', List.mem_cons_of_mem _ he', hblock⟩,
        .inr ⟨e, List.mem_cons_self, hlt, hle, hm⟩⟩
    rw [fetch] at h
    split at h
    · next hrange =>
      split at h
      · exact hseen hrange.1 hrange.2 h
      · next r hr =>
        by_cases hroom : r.need ≤ s.wb.room
        · rw [Report.read_ok hroom] at h
          exact hseen hrange.1 hrange.2 h
        · rw [Report.read_error hroom] at h
          cases h
          exact ⟨Nat.le_refl _, ⟨e, List.mem_cons_self, hrange.1, hrange.2, r, hr, hroom⟩,
            .inl ⟨rfl, rfl⟩⟩
    · obtain ⟨hm, ⟨e', he', hblock⟩, hprogress⟩ := ih h
      refine ⟨hm, ⟨e', List.mem_cons_of_mem _ he', hblock⟩, ?_⟩
      rcases hprogress with hsame | ⟨e'', he'', hless⟩
      · exact .inl hsame
      · exact .inr ⟨e'', List.mem_cons_of_mem _ he'', hless⟩

theorem left_lt {events : List StoredEvent} {nextMaxSeen maxSeen m : ℕ} (hm : maxSeen ≤ m)
    (h : ∃ e ∈ events, maxSeen < e.number ∧ e.number ≤ nextMaxSeen ∧ e.number ≤ m) :
    left events nextMaxSeen m < left events nextMaxSeen maxSeen := by
  obtain ⟨e, he, hlt, hle, hseen⟩ := h
  rw [left, left]
  induction events with
  | nil => cases he
  | cons x xs ih =>
    have hmono : xs.countP (fun e => decide (m < e.number ∧ e.number ≤ nextMaxSeen)) ≤
        xs.countP (fun e => decide (maxSeen < e.number ∧ e.number ≤ nextMaxSeen)) := by
      refine List.countP_mono_left fun y _ hy => ?_
      rw [decide_eq_true_eq] at hy ⊢
      exact ⟨Nat.lt_of_le_of_lt hm hy.1, hy.2⟩
    rw [List.countP_cons, List.countP_cons]
    rcases List.mem_cons.mp he with rfl | he
    · rw [if_neg (by rw [decide_eq_true_eq]; omega), if_pos (by rw [decide_eq_true_eq]; omega)]
      omega
    · have hxs := ih he
      by_cases hx : m < x.number ∧ x.number ≤ nextMaxSeen
      · rw [if_pos (by rw [decide_eq_true_eq]; exact hx),
          if_pos (by rw [decide_eq_true_eq]; omega)]
        omega
      · rw [if_neg (by rw [decide_eq_true_eq]; exact hx)]
        omega

theorem eventsLoop_ends_of_room (hf : f.Opens) {events : List StoredEvent} {nextMaxSeen : ℕ} :
    ∀ (n maxSeen : ℕ) (s : Chunks),
      (∀ e ∈ events, maxSeen < e.number → e.number ≤ nextMaxSeen → ∀ r, e.report = some r →
        r.need ≤ f.room) →
      left events nextMaxSeen maxSeen ≤ n → s.wb.room = f.room →
      ∃ fuel, (f.eventsLoop events nextMaxSeen fuel maxSeen s).isSome = true := by
  intro n
  induction n with
  | zero =>
    intro maxSeen s hfits hleft hs
    refine ⟨1, ?_⟩
    rw [eventsLoop]
    rcases hfetch : fetch nextMaxSeen events maxSeen s with ⟨_ | _, m, s'⟩
    · obtain ⟨hm, ⟨e, he, hlt, hle, r, hr, hblock⟩, hprogress⟩ := fetch_false events hfetch
      rcases hprogress with ⟨rfl, rfl⟩ | hprogress
      · exact absurd (hs ▸ hfits e he hlt hle r hr) hblock
      · have := left_lt hm hprogress
        omega
    · rfl
  | succ n ih =>
    intro maxSeen s hfits hleft hs
    rcases hfetch : fetch nextMaxSeen events maxSeen s with ⟨_ | _, m, s'⟩
    · obtain ⟨hm, ⟨e, he, hlt, hle, r, hr, hblock⟩, hprogress⟩ := fetch_false events hfetch
      rcases hprogress with ⟨rfl, rfl⟩ | hprogress
      · exact absurd (hs ▸ hfits e he hlt hle r hr) hblock
      · have hless := left_lt hm hprogress
        obtain ⟨fuel, hfuel⟩ := ih m ⟨f.opened ReportDataRespTag.eventReports,
          s'.sent ++ [s'.wb.data ++ more], s'.isEmpty⟩
          (fun e he hlt => hfits e he (by omega)) (by omega) rfl
        refine ⟨fuel + 1, ?_⟩
        rw [eventsLoop, hfetch]
        dsimp only
        rw [send_events hf]
        exact hfuel
    · refine ⟨1, ?_⟩
      rw [eventsLoop, hfetch]
      rfl

theorem eventsLoop_ends (hf : f.Opens) {events : List StoredEvent} {nextMaxSeen maxSeen : ℕ}
    (hfits : ∀ e ∈ events, maxSeen < e.number → e.number ≤ nextMaxSeen → ∀ r, e.report = some r →
      r.need ≤ f.room) (s : Chunks) :
    ∃ fuel, (f.eventsLoop events nextMaxSeen fuel maxSeen s).isSome = true := by
  rcases hfetch : fetch nextMaxSeen events maxSeen s with ⟨_ | _, m, s'⟩
  · obtain ⟨hm, -, -⟩ := fetch_false events hfetch
    obtain ⟨fuel, hfuel⟩ := eventsLoop_ends_of_room hf _ m ⟨f.opened ReportDataRespTag.eventReports,
      s'.sent ++ [s'.wb.data ++ more], s'.isEmpty⟩ (fun e he hlt => hfits e he (by omega))
      (Nat.le_refl (left events nextMaxSeen m)) rfl
    refine ⟨fuel + 1, ?_⟩
    rw [eventsLoop, hfetch]
    dsimp only
    rw [send_events hf]
    exact hfuel
  · refine ⟨1, ?_⟩
    rw [eventsLoop, hfetch]
    rfl

theorem fetch_stuck {nextMaxSeen room : ℕ} {e : StoredEvent} {r : Report} (hr : e.report = some r)
    (hneed : ¬ r.need ≤ room) (hle : e.number ≤ nextMaxSeen) (events : List StoredEvent) :
    ∀ {maxSeen : ℕ} {s : Chunks}, events.Pairwise (·.number < ·.number) → e ∈ events →
      maxSeen < e.number → s.wb.room ≤ room →
      ∃ m s', fetch nextMaxSeen events maxSeen s = (false, m, s') ∧ m < e.number := by
  induction events with
  | nil =>
    intro maxSeen s _ he
    cases he
  | cons x xs ih =>
    intro maxSeen s hsorted he hlt hs
    obtain ⟨hx, hsorted⟩ := List.pairwise_cons.mp hsorted
    rw [fetch]
    rcases List.mem_cons.mp he with rfl | he
    · rw [if_pos ⟨hlt, hle⟩, hr]
      dsimp only
      rw [Report.read_error fun h => hneed (h.trans hs)]
      exact ⟨maxSeen, s, rfl, hlt⟩
    · have hxe := hx e he
      split
      · split
        · exact ih hsorted he hxe hs
        · next r' hr' =>
          by_cases hroom : r'.need ≤ s.wb.room
          · rw [Report.read_ok hroom]
            exact ih hsorted he hxe ((Nat.sub_le _ _).trans hs)
          · rw [Report.read_error hroom]
            exact ⟨maxSeen, s, rfl, hlt⟩
      · exact ih hsorted he hlt hs

theorem eventsLoop_stuck (hf : f.Opens) {events : List StoredEvent} {nextMaxSeen : ℕ}
    (hsorted : events.Pairwise (·.number < ·.number)) {e : StoredEvent} (he : e ∈ events)
    (hle : e.number ≤ nextMaxSeen) {r : Report} (hr : e.report = some r)
    (hneed : ¬ r.need ≤ f.room) (fuel : ℕ) :
    ∀ (maxSeen : ℕ) (s : Chunks), maxSeen < e.number → s.wb.room ≤ f.room →
      f.eventsLoop events nextMaxSeen fuel maxSeen s = none := by
  induction fuel with
  | zero => exact fun maxSeen s _ _ => rfl
  | succ fuel ih =>
    intro maxSeen s hlt hs
    obtain ⟨m, s', hfetch, hm⟩ := fetch_stuck hr hneed hle events hsorted he hlt hs
    rw [eventsLoop, hfetch]
    dsimp only
    rw [send_events hf]
    exact ih m _ hm (Nat.le_refl _)

/-! ## All loops -/

theorem sendArrayItems_ends_iff (hf : f.Opens) (hs : s.wb.room ≤ f.room) (l : ListAttr) :
    (∃ fuel, (f.sendArrayItems l fuel none s).isSome = true) ↔
      l.items.length < 2 ^ 16 ∧ l.empty.need ≤ f.room ∧ (∀ item ∈ l.items, item.need ≤ f.room) ∧
        l.endNeed ≤ f.room := by
  constructor
  · rintro ⟨fuel, hfuel⟩
    have hfree : ¬ f.Blocked l none := by
      intro hb
      rw [sendArrayItems_stuck hf fuel none s hb nofun hs] at hfuel
      cases hfuel
    have hfits : ∀ later, (∀ j, later = some j → j ≤ l.items.length) →
        l.needAt later ≤ f.room := by
      intro later hlater
      by_contra hneed
      exact hfree (.inr ⟨later, trivial, hlater, hneed⟩)
    refine ⟨Nat.lt_of_not_le fun hlong => hfree (.inl hlong), hfits none nofun, ?_, ?_⟩
    · intro item hitem
      obtain ⟨i, hi, rfl⟩ := List.getElem_of_mem hitem
      have hfit := hfits (some i) (by
        rintro j ⟨⟩
        exact Nat.le_of_lt hi)
      rwa [ListAttr.needAt, List.getElem?_eq_getElem hi] at hfit
    · have hfit := hfits (some l.items.length) (by
        rintro j ⟨⟩
        exact Nat.le_refl _)
      rwa [ListAttr.needAt, List.getElem?_eq_none (Nat.le_refl _)] at hfit
  · rintro ⟨hlong, hempty, hitems, hend⟩
    refine sendArrayItems_ends hf hlong ?_ _ none s rfl
    intro index
    cases index with
    | none => exact hempty
    | some i =>
      rw [ListAttr.needAt]
      cases hi : l.items[i]? with
      | none => exact hend
      | some item => exact hitems item (List.mem_of_getElem? hi)

/-- **The loops end** if and only if whatever they are about fits into an empty chunk, and a list
does not have too many items. -/
theorem loops_end_iff (hf : f.Opens) (hs : s.wb.room ≤ f.room) :
    (∀ r : Report, (∃ fuel, (f.readLoop r fuel s).isSome = true) ↔ r.need ≤ f.room) ∧
    (∀ l : ListAttr, (∃ fuel, (f.sendArrayItems l fuel none s).isSome = true) ↔
      l.items.length < 2 ^ 16 ∧ l.empty.need ≤ f.room ∧ (∀ item ∈ l.items, item.need ≤ f.room) ∧
        l.endNeed ≤ f.room) ∧
    (∀ (events : List StoredEvent) (nextMaxSeen maxSeen : ℕ),
      events.Pairwise (·.number < ·.number) →
      ((∃ fuel, (f.eventsLoop events nextMaxSeen fuel maxSeen s).isSome = true) ↔
        ∀ e ∈ events, maxSeen < e.number → e.number ≤ nextMaxSeen → ∀ r, e.report = some r →
          r.need ≤ f.room)) := by
  refine ⟨?_, fun l => sendArrayItems_ends_iff hf hs l, ?_⟩
  · intro r
    constructor
    · rintro ⟨fuel, hfuel⟩
      by_contra hr
      rw [readLoop_stuck hf hr fuel s hs] at hfuel
      cases hfuel
    · intro hr
      exact ⟨2, readLoop_ends hf hr s⟩
  · intro events nextMaxSeen maxSeen hsorted
    constructor
    · rintro ⟨fuel, hfuel⟩ e he hlt hle r hr
      by_contra hneed
      rw [eventsLoop_stuck hf hsorted he hle hr hneed fuel maxSeen s hlt hs] at hfuel
      cases hfuel
    · intro hfits
      exact eventsLoop_ends hf hfits s

def small : ReportFrame := ⟨64, none⟩

theorem opens_small : small.Opens := by
  rw [Opens]
  decide

def stringReport (n : ℕ) (h : n < 2 ^ 64) : Report where
  trees := [.leaf .anonymous (.str (List.replicate n 0) (by rwa [List.length_replicate]))]
  need := _
  length_le := Nat.le_refl _

theorem loops_end_small :
    (∃ fuel, (small.readLoop (stringReport 20 (by decide)) fuel
      ⟨small.opened ReportDataRespTag.attributeReports, [], false⟩).isSome = true) ∧
    ¬ ∃ fuel, (small.readLoop (stringReport 50 (by decide)) fuel
      ⟨small.opened ReportDataRespTag.attributeReports, [], false⟩).isSome = true := by
  have hs : (⟨small.opened ReportDataRespTag.attributeReports, [], false⟩ : Chunks).wb.room ≤
      small.room := Nat.le_refl _
  obtain ⟨hread, -, -⟩ := loops_end_iff opens_small hs
  refine ⟨(hread _).mpr ?_, fun h => absurd ((hread _).mp h) ?_⟩
  · decide +kernel
  · decide +kernel

/-- A string of 50 bytes does not fit into a chunk of 37, which is sent forever. -/
theorem loop_forever_small : ¬ ∀ (f : ReportFrame) (r : Report),
    ∃ fuel, (f.readLoop r fuel ⟨f.opened ReportDataRespTag.attributeReports, [], false⟩).isSome =
      true := by
  intro h
  obtain ⟨fuel, hfuel⟩ := h small (stringReport 50 (by decide))
  rw [readLoop_stuck opens_small (by decide +kernel) fuel _ (Nat.le_refl _)] at hfuel
  cases hfuel

end ReportFrame

end RsMatter
