import RsMatter.FabricEdits

/-!
# What tells the fabrics of the table apart

No two fabrics have the same index, and `AddNOC` refuses a fabric that is there already, as
`UpdateFabricLabel` refuses the label of another fabric. Both look at the table in memory.
Storage may hold an older copy of a fabric, with a label that it has given up since, and the
end of the fail-safe or a restart brings that copy back: the fabrics stay apart as long as what
they are given is not claimed by a stored copy of another fabric either (`Device.Unclaimed`,
`Device.fabricTable_of_run`).
-/

namespace RsMatter

namespace Fabric

open Prog

/-- The same fabric to the outside: the id and the public key of the root are the same. -/
def SameFabric (crypto : Crypto) (f g : Fabric) : Prop :=
  f.fabricId = g.fabricId ∧ ∃ pub, crypto.pubkey f.rootCa = .ok pub ∧ crypto.pubkey g.rootCa = .ok pub

structure Apart (crypto : Crypto) (f g : Fabric) : Prop where
  label : f.label = g.label → f.label = []
  identity : ¬ SameFabric crypto f g

/-- What a fabric is called: by its index, its label, its id and its root. -/
def name (f : Fabric) : ℕ × List UInt8 × BitVec 64 × List UInt8 := (f.fabIdx, f.label, f.fabricId, f.rootCa)

variable {crypto : Crypto} {f g f' g' : Fabric}

theorem SameFabric.symm (h : SameFabric crypto f g) : SameFabric crypto g f := by
  obtain ⟨hid, pub, hf, hg⟩ := h
  exact ⟨hid.symm, pub, hg, hf⟩

theorem Apart.symm (h : Apart crypto f g) : Apart crypto g f := by
  refine ⟨fun heq => ?_, fun hsame => h.identity hsame.symm⟩
  rw [heq]
  exact h.label heq.symm

/-- A certificate for the same fabric id leaves the name of the fabric alone. -/
theorem name_update {noc : List UInt8} (h : crypto.getFabricId noc = .ok f.fabricId)
    (icac secretKey : List UInt8) :
    ((update crypto none noc icac secretKey none none none).run f).1.name = f.name := by
  have hload {put : Fabric → List UInt8 → Fabric} (h : ∀ f b, (put f b).name = f.name) (max : ℕ)
      (data : List UInt8) (e : ErrorCode) : Maintains (fun g : Fabric => g.name = f.name) (load put max data e) :=
    maintains_of_keeps (keeps_load h max data e) fun _ _ heq hs => heq.trans hs
  have hput {put : Fabric → Fabric} (h : ∀ f, (put f).name = f.name) :
      Maintains (fun g : Fabric => g.name = f.name) (modify put : Prog ErrorCode Fabric Unit) :=
    maintains_modify fun g hg => (h g).trans hg
  have hmaintains : Maintains (fun g : Fabric => g.name = f.name)
      (update crypto none noc icac secretKey none none none) := by
    refine maintains_bind (maintains_pure _) fun _ => ?_
    refine maintains_bind (hload (by intros; rfl) _ _ _) fun _ => ?_
    refine maintains_bind (hput fun _ => rfl) fun _ => ?_
    refine maintains_bind (hload (by intros; rfl) _ _ _) fun _ => ?_
    refine maintains_bind (maintains_ofExcept _) fun nodeId => maintains_bind (hput fun _ => rfl) fun _ => ?_
    -- the new id is the old one
    refine maintains_ofExcept_bind fun fabricId hfabricId => maintains_bind ?_ fun _ => ?_
    · refine maintains_modify fun g hg => ?_
      rw [h] at hfabricId
      cases hfabricId
      simp only [name, Prod.mk.injEq] at hg ⊢
      exact ⟨hg.1, hg.2.1, trivial, hg.2.2.2⟩
    refine maintains_get_bind fun _ _ => maintains_bind (maintains_ofExcept _) fun _ => ?_
    refine maintains_bind (hput fun _ => rfl) fun _ => ?_
    refine maintains_bind (maintains_pure _) fun _ => maintains_bind (maintains_pure _) fun _ => ?_
    exact maintains_bind (maintains_pure _) fun _ => hput fun _ => rfl
  exact hmaintains f rfl

end Fabric

namespace Fabrics

open Prog

/-- A fabric is given a label no other one has, or its label is gone; the others stay as they
are. -/
theorem updateLabel_name {fs : Fabrics} {fabIdx : ℕ} {label : List UInt8} {f' : Fabric}
    (h : f' ∈ ((updateLabel fabIdx label).run fs).1) :
    f' ∈ fs ∨
      ∃ f ∈ fs, f.fabIdx = fabIdx ∧ (f' = { f with label := [] } ∨
        (f' = { f with label := label } ∧ ∀ g ∈ fs, g.fabIdx ≠ fabIdx → g.label = label → label = [])) := by
  rw [updateLabel, run_bind_of_ok (run_get fs)] at h
  by_cases hfree : ¬ fs.any fun fabric =>
      fabric.fabIdx != fabIdx && !fabric.label.isEmpty && fabric.label == label
  · rw [run_bind_of_ok (run_ensure_of_pos hfree _ _), Prog.run, fabricMut] at h
    cases hget : Fabrics.get fs fabIdx with
    | none =>
      rw [hget] at h
      exact .inl h
    | some f =>
      rw [hget] at h
      rcases mem_replaceKey h with rfl | h
      · refine .inr ⟨f, mem_of_lookup hget, fabIdx_of_get hget, ?_⟩
        by_cases hlen : label.length ≤ maxLabelLen
        · rw [Fabric.load_ok (u := ()).mpr ⟨hlen, rfl⟩]
          refine .inr ⟨rfl, fun g hg hne hlabel => ?_⟩
          by_contra hempty
          refine hfree (List.any_eq_true.mpr ⟨g, hg, ?_⟩)
          simp [hne, hlabel, hempty]
        · rw [Fabric.load_error hlen]
          exact .inl rfl
      · exact .inl h
  · rw [run_bind_of_error (run_ensure_of_neg hfree _ _)] at h
    exact .inl h

end Fabrics

namespace FailSafe

open Prog

variable {crypto : Crypto} {mode : SessionMode} {s s' : FailSafeFabrics}

theorem checkConflict_ok {fabricId : BitVec 64} {rootPubkey : List UInt8} {fs : Fabrics}
    (h : checkConflict crypto fabricId rootPubkey fs = .ok ()) :
    ∀ f ∈ fs, f.fabricId = fabricId → crypto.pubkey f.rootCa ≠ .ok rootPubkey := by
  induction fs with
  | nil => nofun
  | cons f fs ih =>
    rw [checkConflict] at h
    split_ifs at h with hid
    · obtain ⟨pub, hpub, h⟩ := except_bind_eq_ok.mp h
      split_ifs at h with hroot
      intro g hg hgid
      rcases List.mem_cons.mp hg with rfl | hg
      · rw [hpub]
        exact fun heq => hroot (Except.ok.inj heq)
      · exact ih h g hg hgid
    · intro g hg hgid
      rcases List.mem_cons.mp hg with rfl | hg
      · exact absurd hgid hid
      · exact ih h g hg hgid

/-- What `AddNOC` adds: a fabric without a label that no fabric of the table is the same as. -/
theorem addNoc_name {req : NocRequest} {fabric : Fabric}
    (h : (addNoc crypto mode req).run s = (s', .ok fabric)) :
    fabric.label = [] ∧ Fabrics.nextFabIdx s.fabrics = some fabric.fabIdx ∧
      crypto.getFabricId req.noc = .ok fabric.fabricId ∧ fabric.rootCa = s.failsafe.rootCa ∧
      ∀ f ∈ s.fabrics, ¬ Fabric.SameFabric crypto fabric f := by
  rw [addNoc, run_bind_of_ok (run_get s)] at h
  simp only [run_bind_eq_ok, run_ofExcept_eq_ok, run_mapError_eq_ok, run_zoom_eq_ok,
    run_modify_eq_ok] at h
  obtain ⟨_, _, ⟨hchk, rfl⟩, _, _, ⟨fabrics, hadd, rfl⟩, _, _, rfl, h⟩ := h
  obtain ⟨-, hfabric⟩ := Prod.mk.inj h
  cases hfabric
  obtain ⟨-, fabIdx, hnext, hupdate⟩ := Fabrics.addWithPostInit_ok hadd
  obtain ⟨-, -, hroot, -, -, hid, -⟩ := Fabric.update_ok hupdate
  have hrest := kept_of_run hupdate (Fabric.keeps_update_rest _ _ _ _ _ _ _ _)
  simp only [Prod.mk.injEq] at hrest
  refine ⟨hrest.2, ?_, hid, hroot, fun f hf hsame => ?_⟩
  · rw [hnext, hrest.1.1]
    rfl
  · -- the conflict has been looked for
    rw [checkAddNoc, except_bind_eq_ok] at hchk
    obtain ⟨_, -, hchk⟩ := hchk
    by_cases hadmin : isNode req.caseAdminSubject = false ∧ isNocCat req.caseAdminSubject = false
    · rw [if_pos hadmin] at hchk
      cases hchk
    rw [if_neg hadmin] at hchk
    simp only [except_bind_eq_ok] at hchk
    obtain ⟨_, -, _, -, fabricId, hfabricId, rootPubkey, hrootPubkey, _, hconflict, -⟩ := hchk
    rw [hid] at hfabricId
    cases hfabricId
    obtain ⟨hsameId, pub, hpub, hpubf⟩ := hsame
    rw [hroot, Option.getD_some, hrootPubkey] at hpub
    cases hpub
    exact checkConflict_ok hconflict f hf hsameId.symm hpubf

/-- `UpdateNOC` leaves the names of the fabrics alone. -/
theorem updateNoc_name {icac : Option (List UInt8)} {noc : List UInt8} {f' : Fabric}
    (h : f' ∈ ((updateNoc crypto mode icac noc).run s).1.fabrics) : ∃ f ∈ s.fabrics, f'.name = f.name := by
  rw [updateNoc, run_bind_of_ok (run_get s)] at h
  cases hchk : checkUpdateNoc crypto s mode icac noc with
  | error e =>
    rw [hchk, run_bind_of_error (run_ofExcept _ _)] at h
    exact ⟨f', h, rfl⟩
  | ok fabIdx =>
    rw [hchk, run_bind_of_ok (run_ofExcept _ _)] at h
    simp only [checkUpdateNoc, except_bind_eq_ok] at hchk
    obtain ⟨i, -, _, -, fabric, hget, _, -, _, -, fabricId, hfabricId, hid⟩ := hchk
    split_ifs at hid with hsame
    cases hid
    rcases hupd : (Fabrics.update crypto fabIdx s.failsafe.secretKey noc (icac.getD [])).run
      s.fabrics with ⟨fabrics, r⟩
    have hfabrics : f' ∈ fabrics := by
      have hzoom := run_zoom (fun (s : FailSafeFabrics) fabrics => { s with fabrics }) s hupd
      cases r with
      | error e =>
        rw [run_bind_of_error hzoom] at h
        exact h
      | ok _ =>
        rw [run_bind_of_ok hzoom] at h
        exact h
    obtain ⟨-, rfl, -⟩ | ⟨fabric₁, fabric', hget', hrun, -, rfl⟩ :=
      Fabrics.fabricMut_cases (Fabric.keeps_update _ _ _ _ _ _ _ _) hupd
    · exact ⟨f', hfabrics, rfl⟩
    · rw [hget'] at hget
      cases hget
      rcases mem_replaceKey hfabrics with rfl | hmem
      · refine ⟨fabric, mem_of_lookup hget', ?_⟩
        have hname := Fabric.name_update (hsame ▸ hfabricId) (icac.getD []) s.failsafe.secretKey
        rwa [hrun] at hname
      · exact ⟨f', hmem, rfl⟩

end FailSafe

namespace Device

open Prog

variable {crypto : Crypto} {d d' : Device} {env : Env} {sess : StampedSession}

/-- A fabric of the node, in memory or in storage. -/
def Has (d : Device) (f : Fabric) : Prop := f ∈ d.fabrics ∨ ∃ i, d.kv.fabrics i = some f

/-- The fabrics can be told apart, and so can their stored copies. -/
def AllApart (crypto : Crypto) (d : Device) : Prop :=
  ∀ f g, d.Has f → d.Has g → f.fabIdx ≠ g.fabIdx → Fabric.Apart crypto f g

/-- A fabric with the name of one of the node; the label may be gone. -/
def CopyOf (d : Device) (f' : Fabric) : Prop :=
  ∃ f, d.Has f ∧ f'.fabIdx = f.fabIdx ∧ (f'.label = f.label ∨ f'.label = []) ∧
    f'.fabricId = f.fabricId ∧ f'.rootCa = f.rootCa

/-- **The condition.** A label is not the one of a stored copy of another fabric, and a fabric that
is added is not the same as such a copy. -/
def Unclaimed (crypto : Crypto) (d : Device) : Action → Prop
  | .invoke id _ (.updateFabricLabel label) => ∀ sess, d.sessions.get id = some sess →
    ∀ i f, d.kv.fabrics i = some f → i ≠ sess.getLocalFabricIdx → f.label = label → label = []
  | .invoke _ _ (.addNoc req) => ∀ i f pub, d.kv.fabrics i = some f →
    Fabrics.nextFabIdx d.fabrics ≠ some i → crypto.getFabricId req.noc = .ok f.fabricId →
      crypto.pubkey d.failsafe.rootCa = .ok pub → crypto.pubkey f.rootCa ≠ .ok pub
  | _ => True

/-! ## Copies -/

theorem has_of_allFabrics {P : Fabric → Prop} (h : d.AllFabrics P) {f : Fabric} (hf : d.Has f) : P f := by
  rcases hf with hf | ⟨i, hf⟩
  · exact h.fabrics f hf
  · exact h.stored i f hf

theorem allFabrics_of_has {P : Fabric → Prop} (h : ∀ f, d.Has f → P f) : d.AllFabrics P :=
  ⟨fun f hf => h f (.inl hf), fun i f hf => h f (.inr ⟨i, hf⟩)⟩

theorem copyOf_self {f : Fabric} (h : d.Has f) : d.CopyOf f := ⟨f, h, rfl, .inl rfl, rfl, rfl⟩

theorem copyOf_of_name {f f' : Fabric} (h : d.CopyOf f) (hname : f'.name = f.name) : d.CopyOf f' := by
  simp only [Fabric.name, Prod.mk.injEq] at hname
  obtain ⟨hidx, hlabel, hid, hroot⟩ := hname
  obtain ⟨g, hg, hidx', hlabel', hid', hroot'⟩ := h
  refine ⟨g, hg, hidx.trans hidx', ?_, hid.trans hid', hroot.trans hroot'⟩
  rwa [hlabel]

theorem sameFabric_congr {f g f' g' : Fabric} (hf : f'.fabricId = f.fabricId) (hfr : f'.rootCa = f.rootCa)
    (hg : g'.fabricId = g.fabricId) (hgr : g'.rootCa = g.rootCa) (h : Fabric.SameFabric crypto f' g') :
    Fabric.SameFabric crypto f g := by
  obtain ⟨hid, pub, hpubf, hpubg⟩ := h
  refine ⟨by rw [← hf, ← hg, hid], pub, ?_, ?_⟩
  · rw [← hfr, hpubf]
  · rw [← hgr, hpubg]

theorem AllApart.copies (h : d.AllApart crypto) {f' g' : Fabric} (hf : d.CopyOf f') (hg : d.CopyOf g')
    (hne : f'.fabIdx ≠ g'.fabIdx) : Fabric.Apart crypto f' g' := by
  obtain ⟨f, hf, hfidx, hflabel, hfid, hfroot⟩ := hf
  obtain ⟨g, hg, hgidx, hglabel, hgid, hgroot⟩ := hg
  have hapart := h f g hf hg (by rwa [← hfidx, ← hgidx])
  refine ⟨fun heq => ?_, fun hsame => hapart.identity (sameFabric_congr hfid hfroot hgid hgroot hsame)⟩
  rcases hflabel with hflabel | hflabel
  · rcases hglabel with hglabel | hglabel
    · rw [hflabel, hapart.label (by rw [← hflabel, ← hglabel, heq])]
    · rw [heq, hglabel]
  · exact hflabel

theorem AllApart.of_copies (h : d.AllApart crypto) (hcopies : d'.AllFabrics d.CopyOf) :
    d'.AllApart crypto := by
  intro f g hf hg hne
  exact h.copies (has_of_allFabrics hcopies hf) (has_of_allFabrics hcopies hg) hne

theorem copyOf_of_keeps {α : Type} {m : Prog ErrorCode Fabric α} (h : Keeps Fabric.name m) :
    Maintains d.CopyOf m :=
  maintains_of_keeps h fun _ _ hname hcopy => copyOf_of_name hcopy hname

theorem editsKeep_copyOf : EditsKeep d.CopyOf where
  setAcl value := copyOf_of_keeps (keeps_setAcl (fun _ _ => rfl) value)
  addGroup _ _ _ := copyOf_of_keeps (keeps_addGroup (fun _ _ => rfl) _ _ _)
  removeGroup _ _ := copyOf_of_keeps (Fabric.keeps_groupsMut (fun _ _ => rfl) _)
  setGroupKeyMap value := copyOf_of_keeps (keeps_setGroupKeyMap (fun _ _ => rfl) value)
  keySetAdd _ := copyOf_of_keeps (Fabric.keeps_groupsMut (fun _ _ => rfl) _)
  keySetRemove _ := copyOf_of_keeps (Fabric.keeps_groupsMut (fun _ _ => rfl) _)
  setVid vendorId statement vvsc := by
    refine copyOf_of_keeps (keeps_bind keeps_get fun _ => keeps_bind (keeps_ensure _ _) fun _ => ?_)
    exact Fabric.keeps_setVidVerification (fun _ _ _ _ _ => rfl) _ _ _

/-! ## The commands that name a fabric -/

theorem copyOf_updateNoc (icac : Option (List UInt8)) (noc : List UInt8) :
    ((handleUpdateNoc crypto sess icac noc).run d).1.AllFabrics d.CopyOf := by
  rcases withArmedFailsafe_cases sess.mode (onFailSafeFabrics
    (FailSafe.updateNoc crypto sess.mode (icac.filter (!·.isEmpty)) noc)) d with h | h
  · rw [handleUpdateNoc, h]
    exact allFabrics_of_has fun f hf => copyOf_self hf
  · rw [handleUpdateNoc, h]
    refine ⟨fun f' hf' => ?_, fun i f hf => copyOf_self (.inr ⟨i, hf⟩)⟩
    obtain ⟨f, hf, hname⟩ := FailSafe.updateNoc_name hf'
    exact copyOf_of_name (copyOf_self (.inl hf)) hname

theorem run_updateFabricLabel_cases (d : Device) (sess : StampedSession) (label : List UInt8) :
    ((handleUpdateFabricLabel sess label).run d).1 = d ∨
      ((handleUpdateFabricLabel sess label).run d).1 =
        { d with fabrics := ((Fabrics.updateLabel sess.getLocalFabricIdx label).run d.fabrics).1 } := by
  rw [handleUpdateFabricLabel]
  by_cases hidx : sess.getLocalFabricIdx ≠ 0
  · rw [run_bind_of_ok (run_ensure_of_pos hidx _ _), fst_run_mapError]
    exact .inr rfl
  · rw [run_bind_of_error (run_ensure_of_neg hidx _ _)]
    exact .inl rfl

/-- After `UpdateFabricLabel` a fabric of the node is a copy of one before, or the one that has
got the label. -/
theorem has_updateFabricLabel {label : List UInt8} {f' : Fabric}
    (h : Has ((handleUpdateFabricLabel sess label).run d).1 f') : d.CopyOf f' ∨
      (f'.fabIdx = sess.getLocalFabricIdx ∧ f'.label = label ∧ d.CopyOf { f' with label := [] } ∧
        ∀ g ∈ d.fabrics, g.fabIdx ≠ sess.getLocalFabricIdx → g.label = label → label = []) := by
  obtain heq | heq := run_updateFabricLabel_cases d sess label
  · rw [heq] at h
    exact .inl (copyOf_self h)
  rw [heq] at h
  rcases h with h | ⟨i, h⟩
  · rcases Fabrics.updateLabel_name h with h | ⟨f, hf, hidx, rfl | ⟨rfl, hfree⟩⟩
    · exact .inl (copyOf_self (.inl h))
    · exact .inl ⟨f, .inl hf, rfl, .inr rfl, rfl, rfl⟩
    · exact .inr ⟨hidx, rfl, ⟨f, .inl hf, rfl, .inr rfl, rfl, rfl⟩, hfree⟩
  · exact .inl (copyOf_self (.inr ⟨i, h⟩))

theorem apart_updateFabricLabel {label : List UInt8} (hwf : d.WellFormed) (h : d.AllApart crypto)
    (hfree : ∀ i f, d.kv.fabrics i = some f → i ≠ sess.getLocalFabricIdx → f.label = label → label = []) :
    ((handleUpdateFabricLabel sess label).run d).1.AllApart crypto := by
  -- the fabric that has got the label, and a copy of another one
  have hnew : ∀ f' g' : Fabric, f'.fabIdx = sess.getLocalFabricIdx → f'.label = label →
      d.CopyOf { f' with label := [] } →
      (∀ g ∈ d.fabrics, g.fabIdx ≠ sess.getLocalFabricIdx → g.label = label → label = []) →
      d.CopyOf g' → f'.fabIdx ≠ g'.fabIdx → Fabric.Apart crypto f' g' := by
    intro f' g' hidx hlabel hcopy hmem hg' hne
    refine ⟨fun heq => ?_, (h.copies hcopy hg' hne).identity⟩
    obtain ⟨g, hg, hgidx, hglabel | hglabel, -, -⟩ := hg'
    · have hgne : g.fabIdx ≠ sess.getLocalFabricIdx := by
        rw [← hgidx, ← hidx]
        exact hne.symm
      have hsame : g.label = label := by rw [← hglabel, ← heq, hlabel]
      rw [hlabel]
      rcases hg with hg | ⟨i, hg⟩
      · exact hmem g hg hgne hsame
      · refine hfree i g hg ?_ hsame
        rwa [← (hwf.stored i g hg).1]
    · rw [heq, hglabel]
  intro f' g' hf hg hne
  rcases has_updateFabricLabel hf with hf | ⟨hfidx, hflabel, hfcopy, hmem⟩
  · rcases has_updateFabricLabel hg with hg | ⟨hgidx, hglabel, hgcopy, hmem⟩
    · exact h.copies hf hg hne
    · exact (hnew g' f' hgidx hglabel hgcopy hmem hf hne.symm).symm
  · rcases has_updateFabricLabel hg with hg | ⟨hgidx, -⟩
    · exact hnew f' g' hfidx hflabel hfcopy hmem hg hne
    · exact absurd (hfidx.trans hgidx.symm) hne

structure IsAdded (crypto : Crypto) (d : Device) (req : FailSafe.NocRequest) (f : Fabric) : Prop where
  label : f.label = []
  index : Fabrics.nextFabIdx d.fabrics = some f.fabIdx
  fabricId : crypto.getFabricId req.noc = .ok f.fabricId
  rootCa : f.rootCa = d.failsafe.rootCa
  unlike : ∀ g ∈ d.fabrics, ¬ Fabric.SameFabric crypto f g

theorem apart_addNoc {req : FailSafe.NocRequest} (hwf : d.WellFormed) (h : d.AllApart crypto)
    (hfree : ∀ i f pub, d.kv.fabrics i = some f → Fabrics.nextFabIdx d.fabrics ≠ some i →
      crypto.getFabricId req.noc = .ok f.fabricId → crypto.pubkey d.failsafe.rootCa = .ok pub →
        crypto.pubkey f.rootCa ≠ .ok pub) :
    ((invoke crypto env sess (.addNoc req)).run d).1.AllApart crypto := by
  have hall : ((invoke crypto env sess (.addNoc req)).run d).1.AllFabrics fun f =>
      d.CopyOf f ∨ IsAdded crypto d req f := by
    refine allFabrics_addNoc (allFabrics_of_has fun f hf => .inl (copyOf_self hf)) fun s' fabric hrun => ?_
    obtain ⟨hlabel, hindex, hid, hroot, hunlike⟩ := FailSafe.addNoc_name hrun
    exact .inr ⟨hlabel, hindex, hid, hroot, hunlike⟩
  -- the fabric that has been added, and a copy of another one
  have hnew : ∀ f' g' : Fabric, IsAdded crypto d req f' → d.CopyOf g' → f'.fabIdx ≠ g'.fabIdx →
      Fabric.Apart crypto f' g' := by
    rintro f' g' hf ⟨g, hg, hgidx, -, hgid, hgroot⟩ hne
    refine ⟨fun _ => hf.label, fun hsame => ?_⟩
    have hsame := sameFabric_congr rfl rfl hgid hgroot hsame
    rcases hg with hg | ⟨i, hg⟩
    · exact hf.unlike g hg hsame
    · obtain ⟨hid, pub, hpubf, hpubg⟩ := hsame
      rw [hf.rootCa] at hpubf
      refine hfree i g pub hg ?_ (hid ▸ hf.fabricId) hpubf hpubg
      rw [hf.index, ← (hwf.stored i g hg).1, ← hgidx]
      exact fun heq => hne (Option.some.inj heq)
  intro f' g' hf hg hne
  rcases has_of_allFabrics hall hf with hf | hf
  · rcases has_of_allFabrics hall hg with hg | hg
    · exact h.copies hf hg hne
    · exact (hnew g' f' hg hf hne.symm).symm
  · rcases has_of_allFabrics hall hg with hg | hg
    · exact hnew f' g' hf hg hne
    · have heq := hf.index.symm.trans hg.index
      exact absurd (Option.some.inj heq) hne

/-! ## Runs -/

/-- **One step.** -/
theorem apart_step {a : Action} (hok : Unclaimed crypto d a) (hwf : d.WellFormed) (h : d.AllApart crypto)
    (hstep : step crypto d a = some d') : d'.AllApart crypto := by
  have hself : d.AllFabrics d.CopyOf := allFabrics_of_has fun f hf => copyOf_self hf
  by_cases hnames : ∃ id env cmd, a = .invoke id env cmd ∧ cmd.Names
  · obtain ⟨id, env, cmd, rfl, hnames⟩ := hnames
    obtain ⟨sess, hsess, rfl⟩ := Option.map_eq_some_iff.mp hstep
    cases cmd with
    | addNoc req => exact apart_addNoc hwf h hok
    | updateNoc icac noc => exact h.of_copies (copyOf_updateNoc icac noc)
    | updateFabricLabel label => exact apart_updateFabricLabel hwf h (hok sess hsess)
    | _ => exact hnames.elim
  · refine h.of_copies (allFabrics_step_of editsKeep_copyOf ?_ hself hstep)
    intro id env cmd sess ha hsess hcmd
    exact absurd ⟨id, env, cmd, ha, hcmd⟩ hnames

theorem index_of_keeps {α : Type} {m : Prog ErrorCode Fabric α} (h : Keeps Fabric.fabIdx m) :
    Maintains (fun f : Fabric => f.fabIdx ≤ 254) m :=
  maintains_of_keeps h fun _ _ heq hle => heq.trans_le hle

theorem editsKeep_index : EditsKeep fun f => f.fabIdx ≤ 254 where
  setAcl value := index_of_keeps (keeps_setAcl (fun _ _ => rfl) value)
  addGroup _ _ _ := index_of_keeps (keeps_addGroup (fun _ _ => rfl) _ _ _)
  removeGroup _ _ := index_of_keeps (Fabric.keeps_groupsMut (fun _ _ => rfl) _)
  setGroupKeyMap value := index_of_keeps (keeps_setGroupKeyMap (fun _ _ => rfl) value)
  keySetAdd _ := index_of_keeps (Fabric.keeps_groupsMut (fun _ _ => rfl) _)
  keySetRemove _ := index_of_keeps (Fabric.keeps_groupsMut (fun _ _ => rfl) _)
  setVid vendorId statement vvsc := by
    refine index_of_keeps (keeps_bind keeps_get fun _ => keeps_bind (keeps_ensure _ _) fun _ => ?_)
    exact Fabric.keeps_setVidVerification (fun _ _ _ _ _ => rfl) _ _ _

theorem index_step {a : Action} (h : d.AllFabrics fun f => f.fabIdx ≤ 254)
    (hstep : step crypto d a = some d') : d'.AllFabrics fun f => f.fabIdx ≤ 254 := by
  refine allFabrics_step editsKeep_index ?_ ?_ ?_ h hstep
  · exact fun label => index_of_keeps (Fabric.keeps_load (by intros; rfl) _ _ _)
  · intro mode req s s' fabric _ hrun
    obtain ⟨-, _, ⟨⟩⟩ | ⟨_, hok, -, -, -, -, -, hhi, -⟩ := FailSafe.addNoc_cases hrun
    cases hok
    exact hhi
  · intro id env icac noc sess _ _
    have hcopies : ((handleUpdateNoc crypto sess icac noc).run d).1.AllFabrics d.CopyOf :=
      copyOf_updateNoc icac noc
    refine allFabrics_of_has fun f' hf' => ?_
    obtain ⟨f, hf, hidx, -⟩ := has_of_allFabrics hcopies hf'
    exact hidx.trans_le (has_of_allFabrics h hf)

/-- **The fabric table.** The indices are always in order; the fabrics can be told apart if nothing
is given to one that a stored copy of another one claims. -/
theorem fabricTable_of_run {as : List Action} (hrun : (machine crypto).run factoryNew as = some d) :
    (d.fabrics.map Fabric.fabIdx).Nodup ∧ (∀ f ∈ d.fabrics, 1 ≤ f.fabIdx ∧ f.fabIdx ≤ 254) ∧
      ((machine crypto).Meets (Unclaimed crypto) factoryNew as →
        d.fabrics.Pairwise fun f g => ¬ (f.fabricId = g.fabricId ∧
            ∃ pub, crypto.pubkey f.rootCa = .ok pub ∧ crypto.pubkey g.rootCa = .ok pub) ∧
          (f.label ≠ [] → f.label ≠ g.label)) := by
  have hreach : (machine crypto).Reachable (· = factoryNew) d := ⟨_, as, rfl, hrun⟩
  have hwf := wellFormed_of_reachable hreach
  have hindex : d.AllFabrics fun f => f.fabIdx ≤ 254 := by
    refine Machine.invariant_of_reachable ?_ (fun s a s' hs hstep => index_step hs hstep) hreach
    rintro _ rfl
    exact allFabrics_factoryNew
  refine ⟨hwf.nodup, fun f hf => ⟨?_, hindex.fabrics f hf⟩, fun hok => ?_⟩
  · refine Nat.pos_of_ne_zero fun hzero => hwf.pos ?_
    rw [← hzero]
    exact List.mem_map_of_mem hf
  · have hinv : d.WellFormed ∧ d.AllApart crypto := by
      refine Machine.invariant_of_meets (I := fun d => d.WellFormed ∧ d.AllApart crypto) ?_
        ⟨wellFormed_factoryNew, ?_⟩ hok hrun
      · rintro s a s' hok ⟨hwf, hs⟩ hstep
        exact ⟨hwf.step (step_effect hwf.room hstep), apart_step hok hwf hs hstep⟩
      · intro f g hf
        rcases hf with hf | ⟨i, hf⟩
        · cases hf
        · cases hf
    refine (List.pairwise_map.mp hwf.nodup).imp_of_mem fun {f g} hf hg hne => ?_
    have hapart := hinv.2 f g (.inl hf) (.inl hg) hne
    exact ⟨hapart.identity, fun hlabel heq => hlabel (hapart.label heq)⟩

/-- Two fabrics are commissioned, and the first one is stored with a label. -/
def Sample.labelled : List Action :=
  Sample.twoAdmins ++ Sample.addFabric 2 8 ++ Sample.case 3 2 ++
    [Action.invoke 3 (Sample.envAt 0) .commissioningComplete,
      .invoke 1 (Sample.envAt 0) (.updateFabricLabel [65]),
      .invoke 1 (Sample.envAt 0) (.setAcl (.replace []))]

/-- The first fabric takes another label, the second one takes a label, and the first one lets a
fail-safe expire. -/
def Sample.relabelled (label : List UInt8) : List Action :=
  Sample.labelled ++
    [Action.invoke 1 (Sample.envAt 0) (.updateFabricLabel [66]),
      .invoke 3 (Sample.envAt 0) (.updateFabricLabel label),
      .invoke 1 (Sample.envAt 0) (.armFailSafe 60 0),
      .invoke 1 (Sample.envAt 0) (.armFailSafe 0 0)]

def Sample.names (as : List Action) : Option (List (ℕ × List UInt8)) :=
  ((machine Sample.crypto).run factoryNew as).map fun d => d.fabrics.map fun f => (f.fabIdx, f.label)

/-- Nothing that is claimed is given away; as it can be checked. -/
def Sample.unclaimed (d : Device) : Action → Bool
  | .invoke id _ (.updateFabricLabel label) => (List.range 255).all fun i =>
    (d.kv.fabrics i).all fun f => (d.sessions.get id).all fun sess =>
      i == sess.getLocalFabricIdx || f.label != label
  | .invoke _ _ (.addNoc req) => (List.range 255).all fun i =>
    (d.kv.fabrics i).all fun f => (Sample.crypto.getFabricId req.noc).toOption != some f.fabricId
  | _ => true

theorem Sample.unclaimed_imp {a : Action} (hindex : d.AllFabrics fun f => f.fabIdx ≤ 254)
    (hwf : d.WellFormed) (h : Sample.unclaimed d a = true) : Unclaimed Sample.crypto d a := by
  have hlt : ∀ i f, d.kv.fabrics i = some f → i ∈ List.range 255 := by
    intro i f hf
    rw [List.mem_range, ← (hwf.stored i f hf).1]
    exact Nat.lt_succ_of_le (hindex.stored i f hf)
  unfold Unclaimed
  split
  · intro sess hsess i f hf hne hlabel
    have h := Option.all_eq_true _ _ |>.mp (List.all_eq_true.mp h i (hlt i f hf)) f hf
    have h := Option.all_eq_true _ _ |>.mp h sess hsess
    simp [hne, hlabel] at h
  · intro i f pub hf _ hid
    have h := Option.all_eq_true _ _ |>.mp (List.all_eq_true.mp h i (hlt i f hf)) f hf
    rw [hid] at h
    simp [Except.toOption] at h
  · trivial

/-- A label nobody claims is given to the second fabric. -/
theorem fabricTable_relabelled : Sample.names (Sample.relabelled [67]) = some [(2, [67]), (1, [65])] ∧
    ∀ d, (machine Sample.crypto).run factoryNew (Sample.relabelled [67]) = some d →
      d.fabrics.Pairwise fun f g => f.label ≠ [] → f.label ≠ g.label := by
  refine ⟨by decide +kernel, fun d hrun => ?_⟩
  have hok : (machine Sample.crypto).Meets (fun d a => Sample.unclaimed d a = true) factoryNew
      (Sample.relabelled [67]) := by decide +kernel
  have hmeets : (machine Sample.crypto).Meets (Unclaimed Sample.crypto) factoryNew
      (Sample.relabelled [67]) := by
    refine hok.imp (I := fun d => d.WellFormed ∧ d.AllFabrics fun f => f.fabIdx ≤ 254) ?_ ?_
      ⟨wellFormed_factoryNew, allFabrics_factoryNew⟩
    · rintro s a s' ⟨hwf, hs⟩ hstep
      exact ⟨hwf.step (step_effect hwf.room hstep), index_step hs hstep⟩
    · rintro s a ⟨hwf, hs⟩ h
      exact Sample.unclaimed_imp hs hwf h
  exact ((fabricTable_of_run hrun).2.2 hmeets).imp fun h => h.2

/-- The label that the first fabric has given up is given to the second one, and comes back. -/
theorem not_fabricTable_relabelled : ∃ d f g,
    (machine Sample.crypto).run factoryNew (Sample.relabelled [65]) = some d ∧ d.fabrics = [f, g] ∧
      f.label ≠ [] ∧ f.label = g.label := by
  have h : Sample.names (Sample.relabelled [65]) = some [(2, [65]), (1, [65])] := by decide +kernel
  obtain ⟨d, hrun, h⟩ := Option.map_eq_some_iff.mp h
  obtain ⟨f, rest, hfabrics, hf, h⟩ := List.map_eq_cons_iff.mp h
  obtain ⟨g, rest', rfl, hg, h⟩ := List.map_eq_cons_iff.mp h
  obtain rfl := List.map_eq_nil_iff.mp h
  refine ⟨d, f, g, hrun, hfabrics, ?_, ?_⟩
  · rw [(Prod.mk.inj hf).2]
    exact List.cons_ne_nil _ _
  · rw [(Prod.mk.inj hf).2, (Prod.mk.inj hg).2]

end Device

end RsMatter
