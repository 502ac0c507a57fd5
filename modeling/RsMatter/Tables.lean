import RsMatter.Effects

/-!
# The tables of a node

What every node that can be reached has in common, however often storage has failed
on the way: the fabrics fit into their table and have indices of their own, and a
stored fabric is stored under its own index.
-/

namespace RsMatter

namespace Device

structure WellFormed (d : Device) : Prop where
  room : d.fabrics.length ≤ maxFabrics
  nodup : (d.fabrics.map Fabric.fabIdx).Nodup
  /-- no fabric has the index that stands for none -/
  pos : 0 ∉ d.fabrics.map Fabric.fabIdx
  /-- a stored fabric is under its own index -/
  stored : ∀ i fabric, d.kv.fabrics i = some fabric → fabric.fabIdx = i ∧ i ≠ 0

theorem wellFormed_factoryNew : factoryNew.WellFormed where
  room := Nat.zero_le _
  nodup := List.nodup_nil
  pos := List.not_mem_nil
  stored := by
    intro i fabric h
    cases h

variable {crypto : Crypto} {a : Action} {d d' : Device} {fabIdx : ℕ}

/-- The fabrics after one has been taken out and another one has been put in its place. -/
theorem WellFormed.replaced (h : d.WellFormed) (fabric : Option Fabric)
    (hfabric : ∀ x ∈ fabric, x.fabIdx = fabIdx ∧ fabIdx ≠ 0) (hget : Fabrics.get d.fabrics fabIdx ≠ none) :
    (d.replaced fabIdx fabric).WellFormed := by
  have hsub : ((removeKey Fabric.fabIdx d.fabrics fabIdx).map Fabric.fabIdx).Sublist
      (d.fabrics.map Fabric.fabIdx) := removeKey_sublist.map _
  have hlen := length_removeKey_lt hget
  cases fabric with
  | none =>
    have hfab : (d.replaced fabIdx none).fabrics = removeKey Fabric.fabIdx d.fabrics fabIdx :=
      List.append_nil _
    refine ⟨?_, ?_, ?_, h.stored⟩
    · rw [hfab]
      exact hlen.le.trans h.room
    · rw [hfab]
      exact h.nodup.sublist hsub
    · rw [hfab]
      exact fun h0 => h.pos (hsub.mem h0)
  | some x =>
    obtain ⟨rfl, h0⟩ := hfabric x rfl
    refine ⟨?_, ?_, ?_, h.stored⟩
    · show (removeKey Fabric.fabIdx d.fabrics x.fabIdx ++ [x]).length ≤ maxFabrics
      rw [List.length_append]
      exact hlen.trans_le h.room
    · exact nodup_map_append (h.nodup.sublist hsub) lookup_removeKey_self
    · show 0 ∉ (removeKey Fabric.fabIdx d.fabrics x.fabIdx ++ [x]).map Fabric.fabIdx
      rw [List.map_append, List.mem_append, List.map_singleton, List.mem_singleton, not_or]
      exact ⟨fun h0 => h.pos (hsub.mem h0), h0.symm⟩

theorem WellFormed.congr (h : d.WellFormed) (hfab : d'.fabrics = d.fabrics)
    (hkv : d'.kv.fabrics = d.kv.fabrics) : d'.WellFormed := by
  obtain ⟨h1, h2, h3, h4⟩ := h
  refine ⟨?_, ?_, ?_, ?_⟩
  · rwa [hfab]
  · rwa [hfab]
  · rwa [hfab]
  · rwa [hkv]

theorem stored_update {stored stored' : ℕ → Option Fabric} {fabric : Fabric} (h0 : fabric.fabIdx ≠ 0)
    (h : ∀ i x, stored i = some x → x.fabIdx = i ∧ i ≠ 0)
    (h' : stored' = stored ∨ stored' = Function.update stored fabric.fabIdx (some fabric)) :
    ∀ i x, stored' i = some x → x.fabIdx = i ∧ i ≠ 0 := by
  rcases h' with rfl | rfl
  · exact h
  intro i x hx
  by_cases hi : i = fabric.fabIdx
  · subst hi
    rw [Function.update_self, Option.some_inj] at hx
    subst hx
    exact ⟨rfl, h0⟩
  · rw [Function.update_of_ne hi] at hx
    exact h i x hx

/-- The index of a fabric in the table is not the one that stands for none. -/
theorem WellFormed.ne_zero (h : d.WellFormed) (hget : Fabrics.get d.fabrics fabIdx ≠ none) : fabIdx ≠ 0 := by
  rintro rfl
  exact h.pos (lookup_ne_none.mp hget)

theorem wellFormed_of_stored {stored : ℕ → Option Fabric}
    (h : ∀ i x, stored i = some x → x.fabIdx = i ∧ i ≠ 0) (l : List ℕ) :
    ((l.filterMap stored).map Fabric.fabIdx).Sublist l ∧
      0 ∉ (l.filterMap stored).map Fabric.fabIdx := by
  induction l with
  | nil => exact ⟨List.Sublist.refl _, List.not_mem_nil⟩
  | cons i l ih =>
    cases hi : stored i with
    | none =>
      rw [List.filterMap_cons_none hi]
      exact ⟨ih.1.cons i, ih.2⟩
    | some x =>
      obtain ⟨rfl, h0⟩ := h i x hi
      rw [List.filterMap_cons_some hi, List.map_cons]
      exact ⟨ih.1.cons_cons _, List.not_mem_cons_of_ne_of_not_mem h0.symm ih.2⟩

/-- **A step keeps the tables in order.** -/
theorem WellFormed.step (h : d.WellFormed) (heff : Effect a d d') : d'.WellFormed := by
  cases heff with
  | quiet hfab hkv => exact h.congr hfab hkv
  | edited fabric hfrom hget hfab hkv =>
    have hkeys : d'.fabrics.map Fabric.fabIdx = d.fabrics.map Fabric.fabIdx := by
      rw [hfab]
      exact map_key_replaceKey rfl
    refine ⟨?_, hkeys ▸ h.nodup, hkeys ▸ h.pos, ?_⟩
    · have hlen := congrArg List.length hkeys
      rw [List.length_map, List.length_map] at hlen
      rw [hlen]
      exact h.room
    · exact stored_update (h.ne_zero hget) h.stored (hkv.imp_right And.left)
  | removed id env fabIdx sess ha hsess hidx hget hfab hkv =>
    have hrem := h.replaced none (by simp) hget
    have hfab' : d'.fabrics = (d.replaced fabIdx none).fabrics := hfab.trans (List.append_nil _).symm
    refine ⟨hfab' ▸ hrem.room, hfab' ▸ hrem.nodup, hfab' ▸ hrem.pos, fun i x hx => ?_⟩
    rw [hkv] at hx
    split_ifs at hx
    · by_cases hi : i = fabIdx
      · rw [hi, Function.update_self] at hx
        cases hx
      · rw [Function.update_of_ne hi] at hx
        exact h.stored i x hx
    · exact h.stored i x hx
  | added fabric hadd hctx hctx' hfree hlo hhi hlen hfab hkv =>
    refine ⟨?_, ?_, ?_, hkv ▸ h.stored⟩
    · rw [hfab, List.length_append]
      exact hlen
    · rw [hfab]
      exact nodup_map_append h.nodup hfree
    · rw [hfab, List.map_append, List.mem_append, List.map_singleton, List.mem_singleton, not_or]
      exact ⟨h.pos, (Nat.ne_of_gt hlo).symm⟩
  | dropped fabIdx hctx hctx' hfree hfab hkv => exact h.congr hfab hkv
  | armed fabIdx hctx hctx' hfab hkv => exact h.congr hfab hkv
  | ended env id hends hctx hctx' hfab hkv => exact h.congr hfab hkv
  | rolledBack env id fabIdx hends hidx hctx hget hctx' hfab hkv =>
    exact (h.replaced _ (h.stored fabIdx) hget).congr hfab hkv
  | failed env id fabIdx restored hends hworks hidx hctx hget hctx' hres hfab hkv =>
    refine (h.replaced restored ?_ hget).congr hfab hkv
    rcases hres with rfl | rfl
    · simp
    · exact h.stored fabIdx
  | committed fabric ha hctx hget hctx' hfab hkv =>
    refine ⟨hfab ▸ h.room, hfab ▸ h.nodup, hfab ▸ h.pos, ?_⟩
    exact stored_update (h.ne_zero (hget ▸ Option.some_ne_none _)) h.stored hkv
  | restarted ha hctx' hfab hlen hkv =>
    obtain ⟨hsub, hpos⟩ := wellFormed_of_stored h.stored (List.range' 1 255)
    exact ⟨hlen, hfab ▸ (List.nodup_range').sublist hsub, hfab ▸ hpos, hkv ▸ h.stored⟩

/-- **Every node that can be reached has its tables in order.** -/
theorem wellFormed_of_reachable (h : (machine crypto).Reachable (· = factoryNew) d) : d.WellFormed := by
  refine Machine.invariant_of_reachable ?_ ?_ h
  · rintro s rfl
    exact wellFormed_factoryNew
  · intro s a s' hs hstep
    exact hs.step (step_effect hs.room hstep)

end Device

end RsMatter
