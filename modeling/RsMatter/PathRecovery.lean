import Mathlib.Data.Prod.Lex
import RsMatter.PathExpansion

/-!
# Path expansion while the node changes

Between two calls of the expander, endpoints may come and go. Each leaf has a spot: the id
of its endpoint, the position of its cluster and its own position. These stay what they
are while the clusters of an endpoint id do not change, and the cursor always stands at
a spot: one call finds the first leaf from there on that is granted (`nextForPath_spot`),
whatever has become of the node. So the spots that are yielded ascend, and no spot of an
endpoint that is always there is passed over.
-/

namespace RsMatter

open PathExpansionItem PathSpec

/-! ## Spots -/

abbrev Place := ℕ ×ₗ ℕ

/-- The place of a leaf, from the position of its cluster and its own. -/
def place (k j : ℕ) : Place := toLex (k, j)

abbrev Spot := ℕ ×ₗ Place

/-- The spot of a leaf, from the id of its endpoint and its place there. -/
def spot (id : EndptId) (p : Place) : Spot := toLex (id.toNat, p)

theorem place_le_place {k j k' j' : ℕ} : place k j ≤ place k' j' ↔ k < k' ∨ k = k' ∧ j ≤ j' :=
  Prod.Lex.toLex_le_toLex

theorem place_lt_place {k j k' j' : ℕ} : place k j < place k' j' ↔ k < k' ∨ k = k' ∧ j < j' :=
  Prod.Lex.toLex_lt_toLex

theorem spot_le_spot {id id' : EndptId} {p p' : Place} :
    spot id p ≤ spot id' p' ↔ id.toNat < id'.toNat ∨ id.toNat = id'.toNat ∧ p ≤ p' :=
  Prod.Lex.toLex_le_toLex

theorem spot_lt_spot {id id' : EndptId} {p p' : Place} :
    spot id p < spot id' p' ↔ id.toNat < id'.toNat ∨ id.toNat = id'.toNat ∧ p < p' :=
  Prod.Lex.toLex_lt_toLex

theorem place_zero_le (p : Place) : place 0 0 ≤ p := by
  obtain ⟨k, j, rfl⟩ : ∃ k j, p = place k j := ⟨(ofLex p).1, (ofLex p).2, rfl⟩
  rw [place_le_place]
  omega

theorem place_lt_succ {p : Place} {k j : ℕ} : p < place k (j + 1) ↔ p ≤ place k j := by
  obtain ⟨k', j', rfl⟩ : ∃ k' j', p = place k' j' := ⟨(ofLex p).1, (ofLex p).2, rfl⟩
  rw [place_lt_place, place_le_place]
  omega

/-- A leaf that matches a path, at a place of an endpoint. -/
structure LeafAt (op : Operation) (path : GenericPath) (e : Endpoint) (k j : ℕ) (x : Candidate) : Prop where
  endpoint : x.endpoint = e
  cluster : e.clusters[k]? = some x.cluster
  leaf : (op.leaves x.cluster)[j]? = some x.leafId
  clusterMatches : clusterMatches path x.cluster = true
  leafMatches : leafMatches path x.leafId = true

/-- At some places of an endpoint no leaf is granted. -/
def Barred (op : Operation) (ctx : ExpandCtx) (path : GenericPath)
    (last : Option (EndptId × ClusterId × BitVec 32)) (e : Endpoint) (P : Place → Prop) : Prop :=
  ∀ k j x, P (place k j) → LeafAt op path e k j x → granted op ctx last x = false

namespace PathExpander

theorem drop_eq_cons {α : Type} {as bs : List α} {a : α} {n : ℕ} (h : as.drop n = a :: bs) :
    as[n]? = some a ∧ as.drop (n + 1) = bs := by
  refine ⟨?_, ?_⟩
  · have hget : (as.drop n)[0]? = as[n + 0]? := List.getElem?_drop
    rw [h] at hget
    simpa using hget.symm
  · rw [← List.drop_drop, h, List.drop_one, List.tail_cons]

section Loops

variable {op : Operation} {ctx : ExpandCtx} {path : GenericPath} (hw : path.isWildcard = true)
include hw

/-- The loop over the leaves stops at the first one that is granted. -/
theorem leafLoop_at (e : Endpoint) (cl : Cluster) (c : Cursor) :
    ((∃ n, leafLoop op ctx path e cl ((op.leaves cl).drop c.leafIndex) c = .past { c with leafIndex := n }) ∧
      ∀ j l, c.leafIndex ≤ j → (op.leaves cl)[j]? = some l → leafMatches path l = true →
        granted op ctx c.lastAuthorized ⟨e, cl, l⟩ = false) ∨
    ∃ j l, c.leafIndex ≤ j ∧ (op.leaves cl)[j]? = some l ∧ leafMatches path l = true ∧
      granted op ctx c.lastAuthorized ⟨e, cl, l⟩ = true ∧
      (∀ i l', c.leafIndex ≤ i → i < j → (op.leaves cl)[i]? = some l' → leafMatches path l' = true →
        granted op ctx c.lastAuthorized ⟨e, cl, l'⟩ = false) ∧
      leafLoop op ctx path e cl ((op.leaves cl).drop c.leafIndex) c =
        .done (.ok (some (hit op ⟨e, cl, l⟩)))
          { c with leafIndex := j + 1, lastAuthorized := some (e.id, cl.id, l) } := by
  generalize hdrop : (op.leaves cl).drop c.leafIndex = leaves
  induction leaves generalizing c with
  | nil =>
    refine .inl ⟨⟨c.leafIndex, rfl⟩, fun j l hj hl => ?_⟩
    have hlen := List.drop_eq_nil_iff.mp hdrop
    rw [List.getElem?_eq_none (by omega)] at hl
    cases hl
  | cons l leaves ih =>
    obtain ⟨hget, hrest⟩ := drop_eq_cons hdrop
    by_cases hl : leafMatches path l = true ∧ granted op ctx c.lastAuthorized ⟨e, cl, l⟩ = true
    · obtain ⟨hm, hg⟩ := hl
      refine .inr ⟨c.leafIndex, l, le_rfl, hget, hm, hg, fun i l' hi hlt => by omega, ?_⟩
      have hcheck : checkLeaf op ctx e cl l c.lastAuthorized = .ok true := by
        simp only [granted] at hg
        cases h : checkLeaf op ctx e cl l c.lastAuthorized with
        | error status => simp [h] at hg
        | ok b => simpa [h] using hg
      rw [leafLoop, ← PathSpec.leafMatches, if_pos hm, hcheck]
      rfl
    · have hskip : leafMatches path l = true → granted op ctx c.lastAuthorized ⟨e, cl, l⟩ = false := by
        intro hm
        simpa using fun hg => hl ⟨hm, hg⟩
      -- the leaf at the cursor is not granted, so what holds behind it holds from it on
      have hfirst : ∀ j l', c.leafIndex ≤ j → (op.leaves cl)[j]? = some l' → leafMatches path l' = true →
          (c.leafIndex + 1 ≤ j → granted op ctx c.lastAuthorized ⟨e, cl, l'⟩ = false) →
          granted op ctx c.lastAuthorized ⟨e, cl, l'⟩ = false := by
        intro j l' hj hl' hm hlater
        rcases Nat.lt_or_eq_of_le hj with hlt | rfl
        · exact hlater hlt
        · rw [hget, Option.some_inj] at hl'
          subst hl'
          exact hskip hm
      rw [leafLoop_skip hw e cl l leaves c hskip]
      rcases ih { c with leafIndex := c.leafIndex + 1 } hrest with
        ⟨⟨n, hloop⟩, hnone⟩ | ⟨j, l₂, hj, hl₂, hm, hg, hnone, hloop⟩
      · refine .inl ⟨⟨n, hloop⟩, fun j l' hj hl' hm => ?_⟩
        exact hfirst j l' hj hl' hm fun hlt => hnone j l' hlt hl' hm
      · refine .inr ⟨j, l₂, (Nat.le_succ _).trans hj, hl₂, hm, hg, fun i l' hi hlt hl' hm' => ?_, hloop⟩
        exact hfirst i l' hi hl' hm' fun hle => hnone i l' hle hlt hl' hm'

/-- The loop over the clusters stops at the first leaf that is granted. -/
theorem clusterLoop_at (e : Endpoint) (c : Cursor)
    (hc : AtCluster path (e.clusters.drop c.clusterIndex) c.leafIndex) :
    ((∃ n, clusterLoop op ctx path e (e.clusters.drop c.clusterIndex) c =
        .past { c with clusterIndex := n, leafIndex := 0 }) ∧
      Barred op ctx path c.lastAuthorized e (place c.clusterIndex c.leafIndex ≤ ·)) ∨
    ∃ k j x, place c.clusterIndex c.leafIndex ≤ place k j ∧ LeafAt op path e k j x ∧
      granted op ctx c.lastAuthorized x = true ∧
      Barred op ctx path c.lastAuthorized e
        (fun p => place c.clusterIndex c.leafIndex ≤ p ∧ p < place k j) ∧
      clusterLoop op ctx path e (e.clusters.drop c.clusterIndex) c =
        .done (.ok (some (hit op x)))
          { c with clusterIndex := k, leafIndex := j + 1, lastAuthorized := some x.triple } := by
  generalize hdrop : e.clusters.drop c.clusterIndex = clusters at hc
  induction clusters generalizing c with
  | nil =>
    obtain hc | ⟨cl, rest, hnil, -⟩ := hc
    · refine .inl ⟨⟨c.clusterIndex, ?_⟩, fun k j x hp hx => ?_⟩
      · rw [clusterLoop, ← hc]
      · have hlen := List.drop_eq_nil_iff.mp hdrop
        have hp := place_le_place.mp hp
        have hcl := hx.cluster
        rw [List.getElem?_eq_none (by omega)] at hcl
        cases hcl
    · cases hnil
  | cons cl clusters ih =>
    obtain ⟨hget, hrest⟩ := drop_eq_cons hdrop
    -- behind this cluster the places start over
    have hbarred : ∀ {P Q : Place → Prop},
        (∀ j x, Q (place c.clusterIndex j) → LeafAt op path e c.clusterIndex j x →
          granted op ctx c.lastAuthorized x = false) →
        Barred op ctx path c.lastAuthorized e P →
        (∀ k j, Q (place k j) → k = c.clusterIndex ∨ P (place k j)) →
        Barred op ctx path c.lastAuthorized e Q := by
      intro P Q hhere hlater hsplit k j x hq hx
      rcases hsplit k j hq with rfl | hp
      · exact hhere j x hq hx
      · exact hlater k j x hp hx
    rw [clusterLoop, ← PathSpec.clusterMatches]
    by_cases hm : clusterMatches path cl = true
    · rw [if_pos hm]
      rcases leafLoop_at hw e cl c with ⟨⟨n, hloop⟩, hnone⟩ | ⟨j, l, hj, hl, hlm, hg, hnone, hloop⟩
      · have hhere : ∀ j x, place c.clusterIndex c.leafIndex ≤ place c.clusterIndex j →
            LeafAt op path e c.clusterIndex j x → granted op ctx c.lastAuthorized x = false := by
          intro j x hp hx
          obtain ⟨e', cl', l'⟩ := x
          obtain rfl : e' = e := hx.endpoint
          obtain rfl : cl = cl' := Option.some.inj (hget.symm.trans hx.cluster)
          rw [place_le_place] at hp
          exact hnone j l' (by omega) hx.leaf hx.leafMatches
        rw [hloop]
        simp only [hw, Bool.not_true, Bool.false_eq_true, if_false]
        rcases ih { c with leafIndex := 0, clusterIndex := c.clusterIndex + 1 } hrest (.inl rfl) with
          ⟨⟨n', hloop'⟩, hnone'⟩ | ⟨k, j, x, hp, hx, hg, hnone', hloop'⟩
        · refine .inl ⟨⟨n', hloop'⟩, hbarred hhere hnone' fun k j hq => ?_⟩
          simp only [place_le_place] at hq ⊢
          omega
        · have hle : place c.clusterIndex c.leafIndex ≤ place k j := by
            simp only [place_le_place] at hp ⊢
            omega
          refine .inr ⟨k, j, x, hle, hx, hg, hbarred (fun i y hq => hhere i y hq.1) hnone' fun k' j' hq => ?_,
            hloop'⟩
          simp only [place_le_place, place_lt_place] at hq ⊢
          omega
      · rw [hloop]
        refine .inr ⟨c.clusterIndex, j, ⟨e, cl, l⟩, ?_, ⟨rfl, hget, hl, hm, hlm⟩, hg, ?_, rfl⟩
        · rw [place_le_place]
          omega
        · intro k i x hp hx
          simp only [place_le_place, place_lt_place] at hp
          obtain ⟨e', cl', l'⟩ := x
          obtain rfl : e' = e := hx.endpoint
          obtain rfl : k = c.clusterIndex := by omega
          obtain rfl : cl = cl' := Option.some.inj (hget.symm.trans hx.cluster)
          exact hnone i l' (by omega) (by omega) hx.leaf hx.leafMatches
    · have hleaf : c.leafIndex = 0 := by
        obtain hc | ⟨cl', rest, heq, hm'⟩ := hc
        · exact hc
        · obtain ⟨rfl, -⟩ := List.cons.inj heq
          exact absurd hm' hm
      have hhere : ∀ j x, LeafAt op path e c.clusterIndex j x → granted op ctx c.lastAuthorized x = false := by
        intro j x hx
        rw [Option.some.inj (hget.symm.trans hx.cluster)] at hm
        exact absurd hx.clusterMatches hm
      rw [if_neg hm]
      rcases ih { c with clusterIndex := c.clusterIndex + 1 } hrest (.inl hleaf) with
        ⟨⟨n', hloop'⟩, hnone'⟩ | ⟨k, j, x, hp, hx, hg, hnone', hloop'⟩
      · refine .inl ⟨⟨n', hloop'⟩, hbarred (fun j x _ hx => hhere j x hx) hnone' fun k j hq => ?_⟩
        simp only [place_le_place] at hq ⊢
        omega
      · have hle : place c.clusterIndex c.leafIndex ≤ place k j := by
          simp only [place_le_place] at hp ⊢
          omega
        refine .inr ⟨k, j, x, hle, hx, hg, hbarred (fun i y _ hy => hhere i y hy) hnone' fun k' j' hq => ?_,
          hloop'⟩
        simp only [place_le_place, place_lt_place] at hq ⊢
        omega

/-- The loop over the endpoints stops at the first leaf that is granted. `from` is the spot it
starts at. -/
theorem endpointLoop_at (endpoints : List Endpoint) (hasc : endpoints.Pairwise (·.id < ·.id)) (c : Cursor)
    (hc : AtEndpoint ctx path endpoints c.clusterIndex c.leafIndex) :
    ((∃ c', endpointLoop op ctx path endpoints c = (.ok none, c') ∧ c'.lastAuthorized = c.lastAuthorized) ∧
      ∀ e ∈ endpoints, endpointMatches ctx path e = true → Barred op ctx path c.lastAuthorized e
        (fun p => endpoints.head? = some e → place c.clusterIndex c.leafIndex ≤ p)) ∨
    ∃ e ∈ endpoints, endpointMatches ctx path e = true ∧ ∃ k j x,
      (endpoints.head? = some e → place c.clusterIndex c.leafIndex ≤ place k j) ∧ LeafAt op path e k j x ∧
      granted op ctx c.lastAuthorized x = true ∧
      (∀ e' ∈ endpoints, endpointMatches ctx path e' = true → Barred op ctx path c.lastAuthorized e'
        (fun p => (endpoints.head? = some e' → place c.clusterIndex c.leafIndex ≤ p) ∧
          spot e'.id p < spot e.id (place k j))) ∧
      endpointLoop op ctx path endpoints c =
        (.ok (some (hit op x)), ⟨some e.id, k, j + 1, some x.triple⟩) := by
  induction endpoints generalizing c with
  | nil =>
    refine .inl ⟨⟨c, ?_, rfl⟩, nofun⟩
    rw [endpointLoop, hw]
    rfl
  | cons e endpoints ih =>
    obtain ⟨hlt, hasc⟩ := List.pairwise_cons.mp hasc
    have hne : ∀ e' ∈ endpoints, e ≠ e' := fun e' he' heq => BitVec.lt_irrefl _ (heq ▸ hlt e' he')
    rw [endpointLoop, ← PathSpec.endpointMatches]
    by_cases hm : endpointMatches ctx path e = true
    · have hat : AtCluster path (e.clusters.drop c.clusterIndex) c.leafIndex := by
        obtain ⟨-, hc⟩ | ⟨e', rest, heq, -, hc⟩ := hc
        · exact .inl hc
        · obtain ⟨rfl, -⟩ := List.cons.inj heq
          exact hc
      simp only [hm, if_true]
      rcases clusterLoop_at hw e { c with endpointId := some e.id } hat with
        ⟨⟨n, hloop⟩, hnone⟩ | ⟨k, j, x, hp, hx, hg, hnone, hloop⟩
      · rw [hloop]
        simp only [hw, Bool.not_true, Bool.false_eq_true, if_false]
        rcases ih hasc { c with endpointId := some e.id, clusterIndex := 0, leafIndex := 0 } (.inl ⟨rfl, rfl⟩)
          with ⟨hend, hnone'⟩ | ⟨e', he', hm', k, j, x, -, hx, hg, hnone', hend⟩
        · refine .inl ⟨hend, fun e' he' hm' => ?_⟩
          rcases List.mem_cons.mp he' with rfl | he'
          · exact fun k j x hp hx => hnone k j x (hp rfl) hx
          · exact fun k j x _ hx => hnone' e' he' hm' k j x (fun _ => place_zero_le _) hx
        · refine .inr ⟨e', List.mem_cons_of_mem e he', hm', k, j, x, fun heq => ?_, hx, hg, ?_, hend⟩
          · exact absurd (Option.some.inj heq) (hne e' he')
          · intro e₂ he₂ hm₂
            rcases List.mem_cons.mp he₂ with rfl | he₂
            · exact fun k j x hp hx => hnone k j x (hp.1 rfl) hx
            · exact fun k j x hp hx =>
                hnone' e₂ he₂ hm₂ k j x ⟨fun _ => place_zero_le _, hp.2⟩ hx
      · rw [hloop]
        refine .inr ⟨e, List.mem_cons_self, hm, k, j, x, fun _ => hp, hx, hg, ?_, rfl⟩
        intro e₂ he₂ hm₂ k' j' y hq hy
        have hlt₂ := spot_lt_spot.mp hq.2
        rcases List.mem_cons.mp he₂ with rfl | he₂
        · exact hnone k' j' y ⟨hq.1 rfl, by simpa using hlt₂⟩ hy
        · have hgt := BitVec.lt_def.mp (hlt e₂ he₂)
          omega
    · have hzero : c.clusterIndex = 0 ∧ c.leafIndex = 0 := by
        obtain hc | ⟨e', rest, heq, hm', -⟩ := hc
        · exact hc
        · obtain ⟨rfl, -⟩ := List.cons.inj heq
          exact absurd hm' hm
      have hstart : ∀ p : Place, place c.clusterIndex c.leafIndex ≤ p := by
        rw [hzero.1, hzero.2]
        exact place_zero_le
      rw [if_neg hm]
      rcases ih hasc { c with endpointId := some e.id } (.inl hzero) with
        ⟨hend, hnone'⟩ | ⟨e', he', hm', k, j, x, -, hx, hg, hnone', hend⟩
      · refine .inl ⟨hend, fun e' he' hm' => ?_⟩
        rcases List.mem_cons.mp he' with rfl | he'
        · exact absurd hm' hm
        · exact fun k j x _ hx => hnone' e' he' hm' k j x (fun _ => hstart _) hx
      · refine .inr ⟨e', List.mem_cons_of_mem e he', hm', k, j, x, fun _ => hstart _, hx, hg, ?_, hend⟩
        intro e₂ he₂ hm₂
        rcases List.mem_cons.mp he₂ with rfl | he₂
        · exact absurd hm₂ hm
        · exact fun k j x hp hx => hnone' e₂ he₂ hm₂ k j x ⟨fun _ => hstart _, hp.2⟩ hx

end Loops

/-! ## One call -/

def Cursor.Reaches (c : Cursor) (s : Spot) : Prop :=
  match c.endpointId with
  | none => True
  | some id => spot id (place c.clusterIndex c.leafIndex) ≤ s

/-- The cursor is one the expander leaves behind, where the endpoints have these clusters. -/
def Cursor.Standing (ctx : ExpandCtx) (path : GenericPath) (shape : EndptId → List Cluster) (c : Cursor) : Prop :=
  match c.endpointId with
  | none => c.clusterIndex = 0 ∧ c.leafIndex = 0
  | some id =>
    (∀ e : Endpoint, e.id = id → endpointMatches ctx path e = true) ∧
      AtCluster path ((shape id).drop c.clusterIndex) c.leafIndex

section Call

variable {op : Operation} {ctx : ExpandCtx} {path : GenericPath} {node : Node} {shape : EndptId → List Cluster}
  {c : Cursor}

/-- Resuming: the cursor stands at the first endpoint from some position on, and everything
before it is out of reach. -/
theorem resumeEndpointIndex_spot (hshape : ∀ e ∈ node.endpoints, e.clusters = shape e.id)
    (hc : Cursor.Standing ctx path shape c) :
    ∃ i c', resumeEndpointIndex node c = (i, c') ∧ c'.lastAuthorized = c.lastAuthorized ∧
      AtEndpoint ctx path (node.endpoints.drop i) c'.clusterIndex c'.leafIndex ∧
      ∀ e ∈ node.endpoints, ∀ p, Cursor.Reaches c (spot e.id p) ↔
        e ∈ node.endpoints.drop i ∧
          ((node.endpoints.drop i).head? = some e → place c'.clusterIndex c'.leafIndex ≤ p) := by
  have hids : ∀ {before after : List Endpoint} {e : Endpoint}, node.endpoints = before ++ e :: after →
      (∀ e' ∈ before, e'.id < e.id) ∧ ∀ e' ∈ after, e.id < e'.id := by
    intro before after e heq
    have hasc := node.ascending
    rw [heq, List.pairwise_append] at hasc
    exact ⟨fun e' he' => hasc.2.2 e' he' e List.mem_cons_self, (List.pairwise_cons.mp hasc.2.1).1⟩
  cases hid : c.endpointId with
  | none =>
    simp only [Cursor.Standing, hid] at hc
    refine ⟨0, c, ?_, rfl, .inl hc, fun e he p => ?_⟩
    · rw [resumeEndpointIndex, hid]
    · simp only [Cursor.Reaches, hid, List.drop_zero, true_iff, hc]
      exact ⟨he, fun _ => place_zero_le p⟩
  | some id =>
    simp only [Cursor.Standing, hid] at hc
    simp only [Cursor.Reaches, hid]
    cases hsearch : binarySearch (node.endpoints.map (·.id.toNat)) id.toNat with
    | ok i =>
      -- the endpoint is still there
      obtain ⟨e, he, heid⟩ := List.mem_map.mp (List.mem_of_getElem? (getElem?_of_binarySearch hsearch))
      have heid : e.id = id := BitVec.eq_of_toNat_eq heid
      obtain ⟨before, after, heq⟩ := List.append_of_mem he
      obtain ⟨hlt, hgt⟩ := hids heq
      have hdrop : node.endpoints.drop before.length = e :: after := by rw [heq, List.drop_left]
      refine ⟨before.length, c, resumeEndpointIndex_eq heq (hid.trans (by rw [heid])), rfl, ?_, ?_⟩
      · rw [hdrop]
        refine .inr ⟨e, after, rfl, hc.1 e heid, ?_⟩
        rw [hshape e he, heid]
        exact hc.2
      · intro e' he' p
        rw [hdrop, spot_le_spot, ← heid]
        rw [heq] at he'
        rcases List.mem_append.mp he' with he' | he'
        · have hlt := BitVec.lt_def.mp (hlt e' he')
          refine ⟨fun hle => by omega, fun hmem => ?_⟩
          rcases List.mem_cons.mp hmem.1 with rfl | hmem
          · omega
          · have hgt := BitVec.lt_def.mp (hgt e' hmem)
            omega
        · rcases List.mem_cons.mp he' with rfl | he'
          · simp
          · have hgt := BitVec.lt_def.mp (hgt e' he')
            refine ⟨fun _ => ⟨List.mem_cons_of_mem e he', fun heq => ?_⟩, fun _ => .inl hgt⟩
            obtain rfl : e = e' := Option.some.inj heq
            omega
    | error i =>
      -- the endpoint is gone
      obtain ⟨hbefore, hafter⟩ := binarySearch_eq_error (pairwise_endpoint_ids node) hsearch
      rw [← List.map_take] at hbefore
      rw [← List.map_drop] at hafter
      refine ⟨i, { c with clusterIndex := 0, leafIndex := 0, endpointId := none }, ?_, rfl, .inl ⟨rfl, rfl⟩,
        fun e he p => ?_⟩
      · rw [resumeEndpointIndex, hid]
        simp only [hsearch]
      · rw [spot_le_spot]
        rw [← List.take_append_drop i node.endpoints] at he
        rcases List.mem_append.mp he with he | he
        · have hlt := hbefore _ (List.mem_map_of_mem he)
          refine ⟨fun hle => by omega, fun hmem => ?_⟩
          have hgt := hafter _ (List.mem_map_of_mem hmem.1)
          omega
        · have hgt := hafter _ (List.mem_map_of_mem he)
          exact ⟨fun _ => ⟨he, fun _ => place_zero_le p⟩, fun _ => .inl hgt⟩

/-- **One call** finds the first leaf that the cursor reaches and that is granted. -/
theorem nextForPath_spot (hw : path.isWildcard = true) (hs : Supported op path)
    (hshape : ∀ e ∈ node.endpoints, e.clusters = shape e.id) (hc : Cursor.Standing ctx path shape c) :
    ((∃ c', nextForPath op ctx node path c = (.ok none, c') ∧ c'.lastAuthorized = c.lastAuthorized) ∧
      ∀ e ∈ node.endpoints, endpointMatches ctx path e = true →
        Barred op ctx path c.lastAuthorized e (fun p => Cursor.Reaches c (spot e.id p))) ∨
    ∃ e ∈ node.endpoints, endpointMatches ctx path e = true ∧ ∃ k j x,
      Cursor.Reaches c (spot e.id (place k j)) ∧ LeafAt op path e k j x ∧
      granted op ctx c.lastAuthorized x = true ∧
      (∀ e' ∈ node.endpoints, endpointMatches ctx path e' = true → Barred op ctx path c.lastAuthorized e'
        (fun p => Cursor.Reaches c (spot e'.id p) ∧ spot e'.id p < spot e.id (place k j))) ∧
      nextForPath op ctx node path c = (.ok (some (hit op x)), ⟨some e.id, k, j + 1, some x.triple⟩) := by
  obtain ⟨i, c', hresume, hlast, hat, hreach⟩ := resumeEndpointIndex_spot hshape hc
  have hmem : ∀ {e}, e ∈ node.endpoints.drop i → e ∈ node.endpoints := fun he => List.mem_of_mem_drop he
  have hasc : (node.endpoints.drop i).Pairwise (·.id < ·.id) := node.ascending.sublist (List.drop_sublist _ _)
  rw [nextForPath, if_neg hs.1, if_neg hs.2, hresume]
  rcases endpointLoop_at hw _ hasc c' hat with
    ⟨⟨c₂, hend, hlast₂⟩, hnone⟩ | ⟨e, he, hm, k, j, x, hp, hx, hg, hnone, hend⟩
  · refine .inl ⟨⟨c₂, hend, hlast₂.trans hlast⟩, fun e he hm k j x hp hx => ?_⟩
    obtain ⟨hd, hle⟩ := (hreach e he _).mp hp
    rw [← hlast]
    exact hnone e hd hm k j x hle hx
  · rw [hlast] at hg hnone
    refine .inr ⟨e, hmem he, hm, k, j, x, (hreach e (hmem he) _).mpr ⟨he, hp⟩, hx, hg, ?_, hend⟩
    intro e' he' hm' k' j' y hq hy
    obtain ⟨hd, hle⟩ := (hreach e' he' _).mp hq.1
    exact hnone e' hd hm' k' j' y ⟨hle, hq.2⟩ hy

theorem standing_of_leafAt {e : Endpoint} {k j : ℕ} {x : Candidate} (hshape : e.clusters = shape e.id)
    (hm : endpointMatches ctx path e = true) (hx : LeafAt op path e k j x) :
    Cursor.Standing ctx path shape ⟨some e.id, k, j + 1, some x.triple⟩ := by
  refine ⟨fun e' he' => ?_, .inr ⟨x.cluster, (e.clusters.drop (k + 1)), ?_, hx.clusterMatches⟩⟩
  · rw [PathSpec.endpointMatches, he']
    exact hm
  · obtain ⟨hlt, hget⟩ := List.getElem?_eq_some_iff.mp hx.cluster
    rw [← hshape, List.drop_eq_getElem_cons hlt, hget]

theorem Cursor.Reaches.mono {s s' : Spot} (h : Cursor.Reaches c s) (hle : s ≤ s') : Cursor.Reaches c s' := by
  rw [Cursor.Reaches] at h ⊢
  split
  · trivial
  · next id hid =>
    simp only [hid] at h
    exact h.trans hle

theorem reaches_succ {id : EndptId} {k j : ℕ} {last : Option (EndptId × ClusterId × BitVec 32)} {s : Spot} :
    Cursor.Reaches ⟨some id, k, j + 1, last⟩ s ↔ spot id (place k j) < s := by
  obtain ⟨n, p, rfl⟩ : ∃ n p, s = toLex (n, p) := ⟨(ofLex s).1, (ofLex s).2, rfl⟩
  have hsucc : place k (j + 1) ≤ p ↔ place k j < p := by
    rw [← not_lt, place_lt_succ, not_le]
  simp only [Cursor.Reaches, spot, Prod.Lex.toLex_le_toLex, Prod.Lex.toLex_lt_toLex, hsucc]

end Call

/-! ## Whole expansions -/

section Runs

variable {T : Type} [PathExpansionItem T]

/-- What the iterator yields for one item, called with one node after the other, and whether
the item is done then. It is done when the iterator ends or takes one of the `later` items. -/
def collectItem (ctx : ExpandCtx) (later : ℕ) : List Node → PathExpander T → List (Item T) × Bool
  | [], _ => ([], false)
  | node :: nodes, e =>
    match next ctx node e with
    | (none, _) => ([], true)
    | (some out, e) =>
      if e.items.length < later then ([], true)
      else (out :: (collectItem ctx later nodes e).1, (collectItem ctx later nodes e).2)

/-- A leaf of a matching endpoint of a node, at a spot. -/
def FoundIn (op : Operation) (ctx : ExpandCtx) (path : GenericPath) (node : Node) (s : Spot) (x : Candidate) :
    Prop :=
  ∃ k j, s = spot x.endpoint.id (place k j) ∧ x.endpoint ∈ node.endpoints ∧
    endpointMatches ctx path x.endpoint = true ∧ LeafAt op path x.endpoint k j x

/-- At a spot, every node has a leaf that matches, passes the filter and is accessible. -/
def AlwaysServed (op : Operation) (ctx : ExpandCtx) (path : GenericPath) (nodes : List Node) (s : Spot) : Prop :=
  ∀ node ∈ nodes, ∃ x, FoundIn op ctx path node s x ∧ passes ctx x = true ∧ accessible op ctx x = true

theorem granted_of_accessible {op : Operation} {ctx : ExpandCtx}
    {last : Option (EndptId × ClusterId × BitVec 32)} {x : Candidate} (hpass : passes ctx x = true)
    (hacc : accessible op ctx x = true) : granted op ctx last x = true := by
  rw [passes] at hpass
  rw [accessible] at hacc
  rw [granted, checkLeaf, if_pos hpass]
  split
  · next hcheck =>
    split at hcheck
    · exact (Except.ok.inj hcheck).symm
    · cases hop : op.checkAccess ctx x.endpoint x.cluster x.leafId with
      | ok _ =>
        rw [hop] at hcheck
        exact (Except.ok.inj hcheck).symm
      | error status => simp [hop] at hacc
  · next hcheck =>
    split at hcheck
    · cases hcheck
    · cases hop : op.checkAccess ctx x.endpoint x.cluster x.leafId with
      | ok _ =>
        rw [hop] at hcheck
        cases hcheck
      | error status => simp [hop] at hacc

theorem nextItems_length (ctx : ExpandCtx) (node : Node) (items : List (Except ErrorCode T)) (c : Cursor) :
    (nextItems ctx node items c).1 = none ∨ (nextItems ctx node items c).2.items.length < items.length := by
  induction items generalizing c with
  | nil => exact .inl rfl
  | cons item items ih =>
    cases item with
    | error err => exact .inr (Nat.lt_succ_self _)
    | ok item =>
      rw [nextItems]
      split
      · exact .inr (Nat.lt_succ_self _)
      · next c' _ => exact (ih c').imp_right fun h => h.trans (Nat.lt_succ_self _)

variable {ctx : ExpandCtx} {item : T} {nodes : List Node}
  {shape : EndptId → List Cluster} {c : Cursor}

/-- What has been found when the item has been served on some nodes. -/
structure Served (ctx : ExpandCtx) (item : T) (nodes : List Node) (c : Cursor)
    (result : List (Item T) × Bool) (found : List (Spot × Candidate)) : Prop where
  outs : result.1 = found.map fun f => yielded ctx item f.2
  reached : ∀ f ∈ found, Cursor.Reaches c f.1
  there : ∀ f ∈ found, ∃ node ∈ nodes, FoundIn (operation T) ctx (path item) node f.1 f.2
  ascending : found.Pairwise (·.1 < ·.1)
  complete : result.2 = true → ∀ s, Cursor.Reaches c s →
    AlwaysServed (operation T) ctx (path item) nodes s → s ∈ found.map Prod.fst
  /-- every call but the last one finds something -/
  each : result.2 = false → found.length = nodes.length

/-- An item is served by what it finds on one node after the other. -/
theorem exists_served (items : List (Except ErrorCode T)) (hw : (path item).isWildcard = true) (hs : Supported (operation T) (path item))
    (hshape : ∀ node ∈ nodes, ∀ e ∈ node.endpoints, e.clusters = shape e.id)
    (hc : Cursor.Standing ctx (path item) shape c) :
    ∃ found, Served ctx item nodes c (collectItem ctx items.length nodes ⟨items, some item, c⟩) found := by
  induction nodes generalizing c with
  | nil => exact ⟨[], rfl, List.forall_mem_nil _, List.forall_mem_nil _, .nil, by rintro ⟨⟩, fun _ => rfl⟩
  | cons node nodes ih =>
    obtain ⟨hhere, hrest⟩ := List.forall_mem_cons.mp hshape
    rcases nextForPath_spot hw hs hhere hc with
      ⟨⟨c', hnext, -⟩, hnone⟩ | ⟨e, he, hm, k, j, x, hreach, hx, hg, hnone, hnext⟩
    · have hdone : collectItem ctx items.length (node :: nodes) ⟨items, some item, c⟩ = ([], true) := by
        have hstep : next ctx node ⟨items, some item, c⟩ = nextItems ctx node items c' := by
          simp only [next, stepItem, hnext]
        rw [collectItem, hstep]
        rcases hitems : nextItems ctx node items c' with ⟨_ | out, e'⟩
        · rfl
        · have hlen := nextItems_length ctx node items c'
          rw [hitems] at hlen
          obtain hout | hlen := hlen
          · cases hout
          · exact if_pos hlen
      rw [hdone]
      refine ⟨[], rfl, List.forall_mem_nil _, List.forall_mem_nil _, .nil, fun _ s hs hserved => ?_, by rintro ⟨⟩⟩
      obtain ⟨x, ⟨k, j, rfl, hmem, hm, hx⟩, hpass, hacc⟩ := hserved node List.mem_cons_self
      have hdenied := hnone x.endpoint hmem hm k j x hs hx
      rw [granted_of_accessible hpass hacc] at hdenied
      cases hdenied
    · obtain ⟨found, hfound⟩ := ih hrest (standing_of_leafAt (hhere e he) hm hx)
      have hstep : next ctx node ⟨items, some item, c⟩ =
          (some (yielded ctx item x), ⟨items, some item, ⟨some e.id, k, j + 1, some x.triple⟩⟩) := by
        simp only [next, stepItem, hnext, hit, hw]
        rfl
      obtain rfl : e = x.endpoint := hx.endpoint.symm
      rw [collectItem, hstep]
      simp only [lt_irrefl, if_false]
      have hlater : ∀ f ∈ found, spot x.endpoint.id (place k j) < f.1 := fun f hf =>
        reaches_succ.mp (hfound.reached f hf)
      refine ⟨(spot x.endpoint.id (place k j), x) :: found, ?_, ?_, ?_, ?_, ?_, ?_⟩
      · exact congrArg _ hfound.outs
      · refine List.forall_mem_cons.mpr ⟨hreach, fun f hf => ?_⟩
        exact hreach.mono (hlater f hf).le
      · refine List.forall_mem_cons.mpr ⟨⟨node, List.mem_cons_self, k, j, rfl, he, hm, hx⟩, fun f hf => ?_⟩
        obtain ⟨node', hmem, hf⟩ := hfound.there f hf
        exact ⟨node', List.mem_cons_of_mem node hmem, hf⟩
      · exact List.pairwise_cons.mpr ⟨hlater, hfound.ascending⟩
      · intro hdone s hs hserved
        rw [List.map_cons, List.mem_cons]
        rcases lt_trichotomy s (spot x.endpoint.id (place k j)) with hlt | rfl | hgt
        · -- it would have been found now
          obtain ⟨y, ⟨k', j', rfl, hmem, hm', hy⟩, hpass, hacc⟩ := hserved node List.mem_cons_self
          have hdenied := hnone y.endpoint hmem hm' k' j' y ⟨hs, hlt⟩ hy
          rw [granted_of_accessible hpass hacc] at hdenied
          cases hdenied
        · exact .inl rfl
        · refine .inr (hfound.complete hdone s (reaches_succ.mpr hgt) fun node' hmem => ?_)
          exact hserved node' (List.mem_cons_of_mem node hmem)
      · intro hdone
        rw [List.length_cons, List.length_cons, hfound.each hdone]

theorem length_found_le {found : List (Spot × Candidate)} {op : Operation} {path : GenericPath}
    (hthere : ∀ f ∈ found, ∃ node ∈ nodes, FoundIn op ctx path node f.1 f.2)
    (hasc : found.Pairwise (·.1 < ·.1)) : found.length ≤ 2 ^ 48 := by
  let code : Spot → ℕ := fun s => (ofLex s).1 * 2 ^ 32 + (ofLex (ofLex s).2).1 * 2 ^ 16 + (ofLex (ofLex s).2).2
  have hlt : ∀ f ∈ found, (ofLex f.1).1 < 2 ^ 16 ∧ (ofLex (ofLex f.1).2).1 < 2 ^ 16 ∧
      (ofLex (ofLex f.1).2).2 < 2 ^ 16 := by
    intro f hf
    obtain ⟨node, -, k, j, hspot, hmem, -, hx⟩ := hthere f hf
    rw [hspot]
    have hk := node.length_clusters _ hmem
    obtain ⟨hklt, -⟩ := List.getElem?_eq_some_iff.mp hx.cluster
    obtain ⟨hjlt, -⟩ := List.getElem?_eq_some_iff.mp hx.leaf
    have hj := node.length_leaves _ hmem _ (List.mem_of_getElem? hx.cluster)
    have hleaves : (op.leaves f.2.cluster).length < 2 ^ 16 := by
      cases op <;> simp only [Operation.leaves, List.length_map] <;> omega
    exact ⟨f.2.endpoint.id.isLt, hklt.trans hk, hjlt.trans hleaves⟩
  have hinj : (found.map fun f => code f.1).Nodup := by
    rw [List.Nodup, List.pairwise_map]
    refine hasc.imp_of_mem fun {f g} hf hg hfg => ?_
    obtain ⟨hf₁, hf₂, hf₃⟩ := hlt f hf
    obtain ⟨hg₁, hg₂, hg₃⟩ := hlt g hg
    have hfg := Prod.Lex.lt_iff.mp hfg
    simp only [Prod.Lex.lt_iff] at hfg
    simp only [code]
    omega
  have hsub : (found.map fun f => code f.1) ⊆ List.range (2 ^ 48) := by
    intro n hn
    obtain ⟨f, hf, rfl⟩ := List.mem_map.mp hn
    obtain ⟨hf₁, hf₂, hf₃⟩ := hlt f hf
    rw [List.mem_range]
    simp only [code]
    omega
  have hlen := (hinj.subperm hsub).length_le
  rwa [List.length_map, List.length_range] at hlen

theorem nodup_triples {found : List (Spot × Candidate)} {op : Operation} {path : GenericPath}
    (hshape : ∀ node ∈ nodes, ∀ e ∈ node.endpoints, e.clusters = shape e.id)
    (hids : ∀ id, ((shape id).map (·.id)).Nodup ∧ ∀ cl ∈ shape id, (op.leaves cl).Nodup)
    (hthere : ∀ f ∈ found, ∃ node ∈ nodes, FoundIn op ctx path node f.1 f.2)
    (hasc : found.Pairwise (·.1 < ·.1)) : (found.map (·.2.triple)).Nodup := by
  rw [List.Nodup, List.pairwise_map]
  refine hasc.imp_of_mem fun {f g} hf hg hfg heq => ?_
  obtain ⟨node, hnode, k, j, hspot, hmem, -, hx⟩ := hthere f hf
  obtain ⟨node', hnode', k', j', hspot', hmem', -, hx'⟩ := hthere g hg
  rw [Candidate.triple, Candidate.triple, Prod.mk.injEq, Prod.mk.injEq] at heq
  obtain ⟨hid, hcl, hl⟩ := heq
  have hget := hx.cluster
  have hget' := hx'.cluster
  rw [hshape node hnode _ hmem] at hget
  rw [hshape node' hnode' _ hmem', ← hid] at hget'
  obtain ⟨hnodup, hleaves⟩ := hids f.2.endpoint.id
  obtain rfl : k = k' := by
    obtain ⟨hk, -⟩ := List.getElem?_eq_some_iff.mp hget
    refine (List.getElem?_inj (by rwa [List.length_map]) hnodup).mp ?_
    rw [List.getElem?_map, List.getElem?_map, hget, hget', Option.map_some, Option.map_some, hcl]
  have hsame : f.2.cluster = g.2.cluster := Option.some.inj (hget.symm.trans hget')
  have hleaf := hx.leaf
  have hleaf' := hx'.leaf
  rw [← hsame, ← hl] at hleaf'
  obtain ⟨hj, -⟩ := List.getElem?_eq_some_iff.mp hleaf
  obtain rfl : j = j' :=
    (List.getElem?_inj hj (hleaves _ (List.mem_of_getElem? hget))).mp (hleaf.trans hleaf'.symm)
  rw [hspot, hspot', hid] at hfg
  exact lt_irrefl _ hfg

theorem collectItem_fetch (items : List (Except ErrorCode T)) (c : Cursor) :
    collectItem ctx items.length nodes ⟨.ok item :: items, none, c⟩ =
      collectItem ctx items.length nodes ⟨items, some item, Cursor.start c.lastAuthorized⟩ := by
  cases nodes with
  | nil => rfl
  | cons node nodes =>
    have hnext : next ctx node ⟨.ok item :: items, none, c⟩ =
        next ctx node ⟨items, some item, Cursor.start c.lastAuthorized⟩ := rfl
    rw [collectItem, collectItem, hnext]

/-- **Path expansion while the node changes.** An item with a supported wildcard is served
on any sequence of nodes, where an endpoint id always has the same clusters. What is yielded
is found at spots that ascend, and so in the order of the endpoints; where the ids of
clusters and leaves are distinct, no triple is yielded twice. Once the item is done, every
spot that matches and is accessible in all of the nodes has been yielded exactly once. And
the item is done before 2^48 calls have yielded something. -/
theorem collectItem_once (ctx : ExpandCtx) (item : T) (items : List (Except ErrorCode T)) (c : Cursor)
    (nodes : List Node) (shape : EndptId → List Cluster) (hw : (path item).isWildcard = true)
    (hs : Supported (operation T) (path item))
    (hshape : ∀ node ∈ nodes, ∀ e ∈ node.endpoints, e.clusters = shape e.id) :
    ∃ found : List (Spot × Candidate),
      (collectItem ctx items.length nodes ⟨.ok item :: items, none, c⟩).1 =
        found.map (fun f => yielded ctx item f.2) ∧
      (∀ f ∈ found, ∃ node ∈ nodes, FoundIn (operation T) ctx (path item) node f.1 f.2) ∧
      found.Pairwise (·.1 < ·.1) ∧
      ((∀ id, ((shape id).map (·.id)).Nodup ∧ ∀ cl ∈ shape id, ((operation T).leaves cl).Nodup) →
        (found.map (·.2.triple)).Nodup) ∧
      ((collectItem ctx items.length nodes ⟨.ok item :: items, none, c⟩).2 = true →
        ∀ s, AlwaysServed (operation T) ctx (path item) nodes s → (found.map Prod.fst).count s = 1) ∧
      (2 ^ 48 < nodes.length →
        (collectItem ctx items.length nodes ⟨.ok item :: items, none, c⟩).2 = true) := by
  rw [collectItem_fetch]
  obtain ⟨found, hfound⟩ := exists_served items hw hs hshape
    (c := Cursor.start c.lastAuthorized) ⟨rfl, rfl⟩
  refine ⟨found, hfound.outs, hfound.there, hfound.ascending, fun hids => ?_, fun hdone s hserved => ?_,
    fun hlong => ?_⟩
  · exact nodup_triples hshape hids hfound.there hfound.ascending
  · refine List.count_eq_one_of_mem ?_ (hfound.complete hdone s trivial hserved)
    rw [List.Nodup, List.pairwise_map]
    exact hfound.ascending.imp ne_of_lt
  · by_contra hdone
    have heach := hfound.each (by simpa using hdone)
    have hle := length_found_le hfound.there hfound.ascending
    omega

end Runs

/-- The endpoints of a node with these ids, each with the same clusters. -/
def endpointsOf (clusters : List Cluster) (ids : List EndptId) : List Endpoint := ids.map (⟨·, [], clusters⟩)

/-- A cluster with one attribute, which can be read and written. -/
def oneAttr : Cluster :=
  ⟨6, 1, 0, [⟨0, Access.read ||| Access.write ||| 0x3#16, 0⟩], [], fun _ _ _ => true, fun _ _ _ => true⟩

/-- A node with these endpoints, each with one attribute. -/
def nodeOf (ids : List EndptId) (h : ids.Pairwise (· < ·)) : Node where
  endpoints := endpointsOf [oneAttr] ids
  ascending := List.pairwise_map.mpr h
  length_clusters := by simp [endpointsOf]
  length_leaves := by simp [endpointsOf, oneAttr, Cluster.attributes, Cluster.commands]

/-- Endpoint 5 goes while it is being served, and 9 comes. -/
def changingNodes : List Node :=
  [nodeOf [0, 5, 7] (by decide), nodeOf [0, 5, 7] (by decide), nodeOf [0, 7] (by decide),
    nodeOf [0, 7, 9] (by decide), nodeOf [0, 7, 9] (by decide)]

theorem collectItem_changingNodes :
    (collectItem paseCtx 0 changingNodes (.new [.ok readAll])).2 = true ∧
      AlwaysServed .read paseCtx (path readAll) changingNodes (spot 7 (place 0 0)) ∧
      ∃ found : List (Spot × Candidate),
        (collectItem paseCtx 0 changingNodes (.new [.ok readAll])).1 =
          found.map (fun f => yielded paseCtx readAll f.2) ∧
        (found.map Prod.fst).count (spot 7 (place 0 0)) = 1 := by
  have hdone : (collectItem paseCtx 0 changingNodes (.new [.ok readAll])).2 = true := rfl
  have hserved : AlwaysServed .read paseCtx (path readAll) changingNodes (spot 7 (place 0 0)) := by
    have hat : LeafAt .read (path readAll) ⟨7, [], [oneAttr]⟩ 0 0 ⟨⟨7, [], [oneAttr]⟩, oneAttr, 0⟩ :=
      ⟨rfl, rfl, rfl, rfl, rfl⟩
    intro node hnode
    refine ⟨⟨⟨7, [], [oneAttr]⟩, oneAttr, 0⟩, ⟨0, 0, rfl, ?_, rfl, hat⟩, rfl, rfl⟩
    have hmem : ∀ {ids : List EndptId}, 7 ∈ ids → (⟨7, [], [oneAttr]⟩ : Endpoint) ∈ endpointsOf [oneAttr] ids :=
      fun h => List.mem_map_of_mem h
    simp only [changingNodes, List.mem_cons, List.not_mem_nil, or_false] at hnode
    rcases hnode with rfl | rfl | rfl | rfl | rfl <;> exact hmem (by decide)
  obtain ⟨found, houts, -, -, -, hcount, -⟩ := collectItem_once paseCtx readAll [] (Cursor.start none)
    changingNodes (fun _ => [oneAttr]) rfl ⟨by decide, by decide⟩ (by
      intro node hnode e he
      simp only [changingNodes, List.mem_cons, List.not_mem_nil, or_false] at hnode
      rcases hnode with rfl | rfl | rfl | rfl | rfl <;>
        simp only [nodeOf, endpointsOf, List.mem_map] at he <;> obtain ⟨id, -, rfl⟩ := he <;> rfl)
  exact ⟨hdone, hserved, found, houts, hcount hdone _ hserved⟩

/-- A node whose only endpoint has the same cluster twice. -/
def twiceNode : Node where
  endpoints := endpointsOf [oneAttr, oneAttr] [0]
  ascending := List.pairwise_singleton ..
  length_clusters := by simp [endpointsOf]
  length_leaves := by simp [endpointsOf, oneAttr, Cluster.attributes, Cluster.commands]

/-- A wildcard cluster is not supported for writes: a leaf that matches and is accessible all
the time is not yielded. And where an endpoint has a cluster id twice, a triple is yielded
twice. -/
theorem not_collectItem_once :
    ((path writeAll).isWildcard = true ∧
      AlwaysServed .write paseCtx (path writeAll) [oneAttrNode, oneAttrNode] (spot 0 (place 0 0)) ∧
      collectItem paseCtx 0 [oneAttrNode, oneAttrNode] (.new [.ok writeAll]) =
        ([.ok (.error ⟨writeAll.path, .unsupportedCluster⟩)], true)) ∧
    ((path readAll).isWildcard = true ∧
      collectItem paseCtx 0 [twiceNode, twiceNode, twiceNode] (.new [.ok readAll]) =
        (List.replicate 2 (.ok (.ok ⟨0, 6, 0, true, none, 0, false, none, false⟩)), true)) := by
  refine ⟨⟨rfl, ?_, rfl⟩, rfl, rfl⟩
  have hat : LeafAt .write (path writeAll) ⟨0, [], [oneAttr]⟩ 0 0 ⟨⟨0, [], [oneAttr]⟩, oneAttr, 0⟩ :=
    ⟨rfl, rfl, rfl, rfl, rfl⟩
  intro node hnode
  refine ⟨⟨⟨0, [], [oneAttr]⟩, oneAttr, 0⟩, ⟨0, 0, rfl, ?_, rfl, hat⟩, rfl, rfl⟩
  have hnode : node = oneAttrNode := by simpa using hnode
  rw [hnode]
  exact List.mem_singleton.mpr rfl

end PathExpander

end RsMatter
