import Mathlib.Data.List.Basic
import Mathlib.Data.List.Nodup

/-!
# Tables of rows with a key

A table is a list whose rows have pairwise distinct keys. A row is changed in place, where it is
found by its key; rows are dropped by a condition; a new row comes at the end. Each of these keeps
the keys distinct, and leaves the rows of the other keys alone.
-/

namespace RsMatter

namespace Rows

variable {ρ κ : Type*} {f : ρ → κ} {rows : List ρ} {k : κ} {i : ℕ} {r entry x : ρ}

def Has (f : ρ → κ) (rows : List ρ) (k : κ) : Prop := ∃ r ∈ rows, f r = k

theorem has_iff_mem : Has f rows k ↔ k ∈ rows.map f := List.mem_map.symm

theorem has_append : Has f (rows ++ [entry]) k ↔ Has f rows k ∨ f entry = k := by
  rw [has_iff_mem, has_iff_mem, List.map_append, List.mem_append, List.map_singleton, List.mem_singleton]
  exact or_congr_right eq_comm

theorem has_congr {rows' : List ρ} (h : rows'.map f = rows.map f) :
    Has f rows' k ↔ Has f rows k := by
  rw [has_iff_mem, has_iff_mem, h]

/-! ## Finding a row -/

theorem findIdx?_eq_some [DecidableEq κ] (h : rows.findIdx? (f · == k) = some i) :
    ∃ r, rows[i]? = some r ∧ f r = k := by
  obtain ⟨hi, hkey, _⟩ := List.findIdx?_eq_some_iff_getElem.mp h
  exact ⟨rows[i], List.getElem?_eq_getElem hi, eq_of_beq hkey⟩

theorem findIdx?_eq_none [DecidableEq κ] :
    rows.findIdx? (f · == k) = none ↔ ¬Has f rows k := by
  rw [List.findIdx?_eq_none_iff]
  exact ⟨fun h ⟨r, hr, hk⟩ => by simpa [hk] using h r hr,
    fun h r hr => beq_false_of_ne fun hk => h ⟨r, hr, hk⟩⟩

theorem find?_eq_some [DecidableEq κ] (h : rows.find? (f · == k) = some r) : r ∈ rows ∧ f r = k :=
  ⟨List.mem_of_find?_eq_some h, eq_of_beq (List.find?_some (p := (f · == k)) h)⟩

theorem isSome_find? [DecidableEq κ] : (rows.find? (f · == k)).isSome ↔ Has f rows k := by
  rw [List.find?_isSome]
  exact exists_congr fun r => and_congr_right fun _ => beq_iff_eq

theorem eq_of_key_eq (hnodup : (rows.map f).Nodup) (hr : r ∈ rows) (hx : x ∈ rows)
    (hkey : f r = f x) : r = x := List.inj_on_of_nodup_map hnodup hr hx hkey

/-! ## Changing a row in place -/

theorem map_key_set (hr : rows[i]? = some r) (hkey : f entry = f r) :
    (rows.set i entry).map f = rows.map f := by
  obtain ⟨hi, rfl⟩ := List.getElem?_eq_some_iff.mp hr
  have hmap : i < (rows.map f).length := by rwa [List.length_map]
  have hself : f rows[i] = (rows.map f)[i] := (List.getElem_map f).symm
  rw [List.map_set, hkey, hself, List.set_getElem_self]

theorem mem_set_cases (hnodup : (rows.map f).Nodup) (hr : rows[i]? = some r)
    (hx : x ∈ rows.set i entry) : x = entry ∨ (x ∈ rows ∧ f x ≠ f r) := by
  obtain ⟨j, hj⟩ := List.mem_iff_getElem?.mp hx
  rw [List.getElem?_set] at hj
  split at hj
  · split at hj
    · exact .inl (Option.some.inj hj).symm
    · cases hj
  · next hij =>
    refine .inr ⟨List.mem_of_getElem? hj, fun hkey => hij ?_⟩
    have hi : i < (rows.map f).length := by
      rw [List.length_map]
      exact (List.getElem?_eq_some_iff.mp hr).1
    refine (List.getElem?_inj hi hnodup).mp ?_
    rw [List.getElem?_map, List.getElem?_map, hr, hj]
    exact congrArg some hkey.symm

theorem mem_set_iff (hnodup : (rows.map f).Nodup) (hr : rows[i]? = some r) :
    x ∈ rows.set i entry ↔ x = entry ∨ (x ∈ rows ∧ f x ≠ f r) := by
  refine ⟨mem_set_cases hnodup hr, ?_⟩
  obtain ⟨hi, hri⟩ := List.getElem?_eq_some_iff.mp hr
  rintro (rfl | ⟨hx, hne⟩)
  · exact List.mem_set hi x
  · obtain ⟨j, hj⟩ := List.mem_iff_getElem?.mp hx
    have hij : i ≠ j := by
      rintro rfl
      exact hne (congrArg f (Option.some.inj (hj.symm.trans hr)))
    exact List.mem_of_getElem? ((List.getElem?_set_ne hij).trans hj)

theorem modify_eq_set (f : ρ → ρ) (hr : rows[i]? = some r) : rows.modify i f = rows.set i (f r) := by
  rw [List.modify_eq_set_getElem?, hr]
  rfl

theorem map_key_modify [DecidableEq κ] {g : ρ → ρ} (hfind : rows.findIdx? (f · == k) = some i)
    (hg : ∀ r, f (g r) = f r) : (rows.modify i g).map f = rows.map f := by
  obtain ⟨r, hr, _⟩ := findIdx?_eq_some hfind
  rw [modify_eq_set g hr]
  exact map_key_set hr (hg r)

/-- A change of the row with a key: the row is changed, and the others are as they were. -/
theorem mem_modify_cases [DecidableEq κ] {g : ρ → ρ} (hnodup : (rows.map f).Nodup)
    (hfind : rows.findIdx? (f · == k) = some i) (hx : x ∈ rows.modify i g) :
    (x ∈ rows ∧ f x ≠ k) ∨ ∃ r ∈ rows, f r = k ∧ x = g r := by
  obtain ⟨r, hr, hk⟩ := findIdx?_eq_some hfind
  rw [modify_eq_set g hr] at hx
  rcases mem_set_cases hnodup hr hx with rfl | ⟨hx, hne⟩
  · exact .inr ⟨r, List.mem_of_getElem? hr, hk, rfl⟩
  · exact .inl ⟨hx, hk ▸ hne⟩

/-! ## Dropping and adding rows -/

theorem nodup_filter (p : ρ → Bool) (hnodup : (rows.map f).Nodup) :
    ((rows.filter p).map f).Nodup := hnodup.sublist (List.filter_sublist.map f)

theorem nodup_append (hnodup : (rows.map f).Nodup) (hnew : ¬Has f rows (f entry)) :
    ((rows ++ [entry]).map f).Nodup := by
  rw [List.map_append, List.map_singleton]
  exact hnodup.append (List.nodup_singleton _) (List.disjoint_singleton.mpr fun h => hnew (has_iff_mem.mpr h))

/-! ## Rows that a condition picks -/

section Filter

variable {p : ρ → Bool}

/-- A change in place that neither takes a row from the others nor adds one to them. -/
theorem filter_map_of {g : ρ → ρ} (hp : ∀ r, p (g r) = p r) (hg : ∀ r, p r = true → g r = r) :
    (rows.map g).filter p = rows.filter p := by
  have hsame : rows.filter (p ∘ g) = rows.filter p := List.filter_congr fun r _ => hp r
  rw [List.filter_map, hsame]
  calc (rows.filter p).map g = (rows.filter p).map id :=
        List.map_congr_left fun r hr => hg r (List.mem_filter.mp hr).2
    _ = rows.filter p := List.map_id _

theorem filter_modify {g : ρ → ρ} (hr : rows[i]? = some r) (hp : p r = false) (hg : p (g r) = false) :
    (rows.modify i g).filter p = rows.filter p := by
  obtain ⟨hi, rfl⟩ := List.getElem?_eq_some_iff.mp hr
  rw [List.modify_eq_take_cons_drop hi, List.filter_append, List.filter_cons_of_neg (by rw [hg]; exact nofun)]
  conv_rhs => rw [← List.take_append_drop i rows, List.filter_append, List.drop_eq_getElem_cons hi,
    List.filter_cons_of_neg (by rw [hp]; exact nofun)]

theorem filter_set (hr : rows[i]? = some r) (hp : p r = false) (hentry : p entry = false) :
    (rows.set i entry).filter p = rows.filter p := by
  rw [← modify_eq_set (fun _ => entry) hr]
  exact filter_modify hr hp hentry

theorem filter_filter_of {q : ρ → Bool} (h : ∀ r ∈ rows, p r = true → q r = true) :
    (rows.filter q).filter p = rows.filter p := by
  rw [List.filter_filter]
  refine List.filter_congr fun r hr => ?_
  cases hp : p r with
  | true => rw [h r hr hp]; rfl
  | false => rfl

end Filter

/-! ## Looking a row up -/

section Lookup

variable [DecidableEq κ]

theorem find?_eq_some_iff (hnodup : (rows.map f).Nodup) :
    rows.find? (f · == k) = some r ↔ r ∈ rows ∧ f r = k := by
  refine ⟨find?_eq_some, fun ⟨hr, hk⟩ => ?_⟩
  cases hfind : rows.find? (f · == k) with
  | none => exact absurd hk (by simpa using List.find?_eq_none.mp hfind r hr)
  | some r' =>
    obtain ⟨hr', hk'⟩ := find?_eq_some hfind
    exact congrArg some (eq_of_key_eq hnodup hr' hr (hk'.trans hk.symm))

theorem find?_eq_none : rows.find? (f · == k) = none ↔ ¬Has f rows k := by
  rw [← isSome_find?, Option.not_isSome_iff_eq_none]

/-- Two tables look alike under a key if they have the same row there. -/
theorem find?_congr {rows' : List ρ} (hnodup : (rows.map f).Nodup) (hnodup' : (rows'.map f).Nodup)
    (h : ∀ r, f r = k → (r ∈ rows' ↔ r ∈ rows)) : rows'.find? (f · == k) = rows.find? (f · == k) := by
  refine Option.ext fun r => ?_
  rw [find?_eq_some_iff hnodup, find?_eq_some_iff hnodup']
  exact and_congr_left (h r)

theorem find?_append (hnodup : (rows.map f).Nodup) (hnew : ¬Has f rows (f entry)) :
    (rows ++ [entry]).find? (f · == k) = if k = f entry then some entry else rows.find? (f · == k) := by
  have hnodup' := nodup_append hnodup hnew
  split
  · next h =>
    exact (find?_eq_some_iff hnodup').mpr ⟨List.mem_append_right _ (List.mem_singleton.mpr rfl), h.symm⟩
  · next h =>
    refine find?_congr hnodup hnodup' fun r hr => ?_
    rw [List.mem_append, List.mem_singleton]
    exact or_iff_left fun heq => h (heq ▸ hr.symm)

theorem find?_set (hnodup : (rows.map f).Nodup) (hr : rows[i]? = some r) (hkey : f entry = f r) :
    (rows.set i entry).find? (f · == k) = if k = f r then some entry else rows.find? (f · == k) := by
  have hnodup' : ((rows.set i entry).map f).Nodup := (map_key_set hr hkey).symm ▸ hnodup
  split
  · next h =>
    exact (find?_eq_some_iff hnodup').mpr ⟨(mem_set_iff hnodup hr).mpr (.inl rfl), hkey.trans h.symm⟩
  · next h =>
    refine find?_congr hnodup hnodup' fun x hx => ?_
    have hother : x ≠ entry := fun heq => h (hx.symm.trans ((congrArg f heq).trans hkey))
    rw [mem_set_iff hnodup hr, or_iff_right hother]
    exact and_iff_left fun heq => h (hx.symm.trans heq)

theorem find?_filter_ne (hnodup : (rows.map f).Nodup) (k' : κ) :
    (rows.filter (f · != k')).find? (f · == k) = if k = k' then none else rows.find? (f · == k) := by
  split
  · next h =>
    refine List.find?_eq_none.mpr fun r hr heq => ?_
    exact bne_iff_ne.mp (List.mem_filter.mp hr).2 ((eq_of_beq heq).trans h)
  · next h =>
    refine find?_congr hnodup (nodup_filter _ hnodup) fun r hr => ?_
    rw [List.mem_filter]
    exact and_iff_left (bne_iff_ne.mpr fun heq => h (hr.symm.trans heq))

end Lookup

end Rows

end RsMatter
