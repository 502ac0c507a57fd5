import RsMatter.TlvCodecRoundTrip
import RsMatter.Wireless

/-!
# The list of networks stays sound (`dm/networks/wireless.rs`, `dm/networks/wireless/*.rs`)

The ids of the networks are distinct and can be asked for, over every run, whatever the
credentials: a dataset without an id is refused before it gets into the list. What is not
refused is an id that is too long for the places it is copied to.
-/

namespace RsMatter

namespace Wireless

open Stop Panicking

/-! ## What a kind of networks promises -/

/-- The credentials fit into the buffers they are copied to. -/
def WirelessCreds.Fits : WirelessCreds → Prop
  | wifi ssid pass => ssid.length + pass.length ≤ 256
  | thread datasetTlv => datasetTlv.length ≤ 256

/-- A kind of networks keeps the id of the credentials, and fits into the buffers. -/
structure Kind.Lawful {T : Type} (kind : Kind T) : Prop where
  /-- a new network has the id of its credentials -/
  initFrom {creds : WirelessCreds} {id : List UInt8} (h : creds.id = .ok id) :
    (∃ network, kind.initFrom creds = .ok network ∧ kind.id network = .ok id) ∨
      ∃ e, kind.initFrom creds = .error (.error e)
  /-- an updated network has the id of its credentials -/
  update (network : T) {creds : WirelessCreds} {id : List UInt8} (h : creds.id = .ok id) :
    (∃ network', kind.update network creds = .ok network' ∧ kind.id network' = .ok id) ∨
      ∃ e, kind.update network creds = .error (.error e)
  /-- the credentials of a network have its id -/
  id_creds {network : T} {id : List UInt8} (h : kind.id network = .ok id) :
    (kind.creds network).id = .ok id
  fits_creds (network : T) : (kind.creds network).Fits
  wellFormed : kind.codec.WellFormed
  /-- no fields are written as something else -/
  faithful (fields : kind.Fields) : Faithful kind.codec fields
  written (fields : kind.Fields) (tag : TLVTag) : ∃ t, treeOf kind.codec fields tag = some t
  ofFields_fields (network : T) : kind.ofFields (kind.fields network) = network

/-- Copying to an empty vector goes well exactly if there is room. -/
theorem new_extendFromSlice {n : ℕ} (slice : List UInt8) (e : ErrorCode) :
    (HVec.new : HVec UInt8 n).extendFromSlice slice e =
      if h : slice.length ≤ n then .ok ⟨slice, h⟩ else .error (.error e) := by
  by_cases h : slice.length ≤ n
  · rw [HVec.extendFromSlice, dif_pos (by simpa [HVec.new] using h), dif_pos h]
    rfl
  · rw [HVec.extendFromSlice, dif_neg (by simpa [HVec.new] using h), dif_neg h]

theorem new_extendUnwrap {n : ℕ} {slice : List UInt8} (h : slice.length ≤ n) :
    (HVec.new : HVec UInt8 n).extendUnwrap slice = .ok ⟨slice, h⟩ := by
  rw [HVec.extendUnwrap, new_extendFromSlice, dif_pos h]
  rfl

theorem Wifi.initFrom_cases (ssid pass : List UInt8) :
    (∃ network, Wifi.initFrom (.wifi ssid pass) = .ok network ∧ network.ssid.1 = ssid) ∨
      ∃ e, Wifi.initFrom (.wifi ssid pass) = .error (.error e) := by
  rw [Wifi.initFrom, new_extendFromSlice, new_extendFromSlice]
  by_cases hssid : ssid.length ≤ 32
  · by_cases hpass : pass.length ≤ 64
    · rw [dif_pos hssid, dif_pos hpass]
      exact .inl ⟨_, rfl, rfl⟩
    · rw [dif_pos hssid, dif_neg hpass]
      exact .inr ⟨_, rfl⟩
  · rw [dif_neg hssid]
    exact .inr ⟨_, rfl⟩

theorem Wifi.update_cases (network : Wifi) (ssid pass : List UInt8) :
    (∃ network', network.update (.wifi ssid pass) = .ok network' ∧ network'.ssid.1 = ssid) ∨
      ∃ e, network.update (.wifi ssid pass) = .error (.error e) := by
  rw [Wifi.update]
  split
  · exact .inr ⟨_, rfl⟩
  · split
    · exact .inr ⟨_, rfl⟩
    · next hssid hpass =>
      rw [new_extendUnwrap (Nat.le_of_not_lt hssid), new_extendUnwrap (Nat.le_of_not_lt hpass)]
      exact .inl ⟨_, rfl, rfl⟩

theorem lawful_wifi : wifi.Lawful where
  initFrom {creds id} h := by
    cases creds with
    | thread datasetTlv => exact .inr ⟨_, rfl⟩
    | wifi ssid pass =>
      obtain rfl := Except.ok.inj h
      obtain ⟨network, hnew, hid⟩ | herror := Wifi.initFrom_cases ssid pass
      · exact .inl ⟨network, hnew, congrArg Except.ok hid⟩
      · exact .inr herror
  update network {creds id} h := by
    cases creds with
    | thread datasetTlv => exact .inr ⟨_, rfl⟩
    | wifi ssid pass =>
      obtain rfl := Except.ok.inj h
      obtain ⟨network', hnew, hid⟩ | herror := Wifi.update_cases network ssid pass
      · exact .inl ⟨network', hnew, congrArg Except.ok hid⟩
      · exact .inr herror
  id_creds {network id} h := congrArg Except.ok (Except.ok.inj h)
  fits_creds network := by
    have hssid := network.ssid.2
    have hpass := network.password.2
    change network.ssid.1.length + network.password.1.length ≤ 256
    omega
  wellFormed := by
    simp only [wifi, Codec.WellFormed, Fields.WellFormed, Fields.tags, Codec.naked]
    simp [TagOrder]
  faithful fields := by
    obtain ⟨ssid, password, _⟩ := fields
    simp only [wifi, Faithful, FaithfulFields]
    exact ⟨trivial, trivial, trivial⟩
  written fields tag := by
    obtain ⟨ssid, password, _⟩ := fields
    simp only [wifi, treeOf, fieldTreesOf]
    exact ⟨_, rfl⟩
  ofFields_fields network := rfl

theorem Thread.initFrom_cases (datasetTlv : List UInt8) :
    (∃ network, Thread.initFrom (.thread datasetTlv) = .ok network ∧
      network.dataset.1 = datasetTlv) ∨
      ∃ e, Thread.initFrom (.thread datasetTlv) = .error (.error e) := by
  rw [Thread.initFrom, new_extendFromSlice]
  by_cases hlen : datasetTlv.length ≤ 256
  · rw [dif_pos hlen]
    exact .inl ⟨_, rfl, rfl⟩
  · rw [dif_neg hlen]
    exact .inr ⟨_, rfl⟩

theorem Thread.update_cases (network : Thread) (datasetTlv : List UInt8) :
    (∃ network', network.update (.thread datasetTlv) = .ok network' ∧
      network'.dataset.1 = datasetTlv) ∨
      ∃ e, network.update (.thread datasetTlv) = .error (.error e) := by
  rw [Thread.update]
  split
  · exact .inr ⟨_, rfl⟩
  · next hlen =>
    rw [new_extendUnwrap (Nat.le_of_not_lt hlen)]
    exact .inl ⟨_, rfl, rfl⟩

/-- The id of a Thread network is that of its dataset, if that has one. -/
theorem Thread.extPanId_eq_ok {network : Thread} {id : List UInt8} :
    network.extPanId = .ok id ↔ ThreadTLV.extPanId network.dataset.1 = .ok id := by
  rw [Thread.extPanId]
  cases ThreadTLV.extPanId network.dataset.1 with
  | ok id' =>
    rw [unwrap, Except.ok.injEq, Except.ok.injEq]
  | error e => exact iff_of_false (fun h => nomatch h) fun h => nomatch h

theorem lawful_thread : thread.Lawful where
  initFrom {creds id} h := by
    cases creds with
    | wifi ssid pass => exact .inr ⟨_, rfl⟩
    | thread datasetTlv =>
      obtain ⟨network, hnew, rfl⟩ | herror := Thread.initFrom_cases datasetTlv
      · exact .inl ⟨network, hnew, Thread.extPanId_eq_ok.mpr h⟩
      · exact .inr herror
  update network {creds id} h := by
    cases creds with
    | wifi ssid pass => exact .inr ⟨_, rfl⟩
    | thread datasetTlv =>
      obtain ⟨network', hnew, rfl⟩ | herror := Thread.update_cases network datasetTlv
      · exact .inl ⟨network', hnew, Thread.extPanId_eq_ok.mpr h⟩
      · exact .inr herror
  id_creds h := Thread.extPanId_eq_ok.mp h
  fits_creds network := network.dataset.2
  wellFormed := by
    simp only [thread, Codec.WellFormed, Fields.WellFormed, Fields.tags, Codec.naked]
    simp
  faithful fields := by
    obtain ⟨dataset, _⟩ := fields
    simp only [thread, Faithful, FaithfulFields]
    exact ⟨trivial, trivial⟩
  written fields tag := by
    obtain ⟨dataset, _⟩ := fields
    simp only [thread, treeOf, fieldTreesOf]
    exact ⟨_, rfl⟩
  ofFields_fields network := rfl

theorem WirelessType.lawful (t : WirelessType) : t.kind.Lawful := by
  cases t with
  | wifi => exact lawful_wifi
  | thread => exact lawful_thread

/-! ## Soundness -/

section Sound

variable {T : Type} {N : ℕ} {kind : Kind T}

def Kind.idOf (kind : Kind T) (network : T) : List UInt8 :=
  match kind.id network with
  | .ok id => id
  | .error _ => []

/-- The ids of the networks can be asked for, fit into 32 bytes and are distinct. -/
structure Sound (kind : Kind T) (networks : List T) : Prop where
  extract (network : T) (h : network ∈ networks) : kind.id network = .ok (kind.idOf network)
  short (network : T) (h : network ∈ networks) : (kind.idOf network).length ≤ 32
  distinct : (networks.map kind.idOf).Nodup

theorem idOf_eq {network : T} {id : List UInt8} (h : kind.id network = .ok id) :
    kind.idOf network = id := by
  rw [Kind.idOf, h]

namespace Sound

variable {networks networks' : List T}

theorem nil : Sound kind [] where
  extract _ h := nomatch h
  short _ h := nomatch h
  distinct := List.nodup_nil

theorem sublist (h : Sound kind networks) (hsub : networks'.Sublist networks) :
    Sound kind networks' :=
  ⟨fun network hn => h.extract network (hsub.subset hn),
    fun network hn => h.short network (hsub.subset hn), h.distinct.sublist (hsub.map _)⟩

theorem perm (h : Sound kind networks) (hperm : networks'.Perm networks) : Sound kind networks' :=
  ⟨fun network hn => h.extract network (hperm.subset hn),
    fun network hn => h.short network (hperm.subset hn),
    (hperm.map kind.idOf).nodup_iff.mpr h.distinct⟩

theorem append (h : Sound kind networks) {network : T} {id : List UInt8}
    (hid : kind.id network = .ok id) (hshort : id.length ≤ 32)
    (hnew : ∀ network' ∈ networks, kind.idOf network' ≠ id) : Sound kind (networks ++ [network]) := by
  refine ⟨fun network' hn => ?_, fun network' hn => ?_, ?_⟩
  · rcases List.mem_append.mp hn with hn | hn
    · exact h.extract network' hn
    · obtain rfl := List.mem_singleton.mp hn
      rw [idOf_eq hid, hid]
  · rcases List.mem_append.mp hn with hn | hn
    · exact h.short network' hn
    · obtain rfl := List.mem_singleton.mp hn
      rw [idOf_eq hid]
      exact hshort
  · rw [List.map_append, List.map_singleton, idOf_eq hid, List.nodup_append]
    refine ⟨h.distinct, List.nodup_singleton id, ?_⟩
    rintro a ha b hb rfl
    obtain ⟨network', hn, rfl⟩ := List.mem_map.mp ha
    exact hnew network' hn (List.mem_singleton.mp hb)

theorem set (h : Sound kind networks) {i : ℕ} {network network' : T} {id : List UInt8}
    (hi : networks[i]? = some network) (hid : kind.idOf network = id)
    (hid' : kind.id network' = .ok id) : Sound kind (networks.set i network') := by
  have hmem : network ∈ networks := List.mem_of_getElem? hi
  have hids : (networks.set i network').map kind.idOf = networks.map kind.idOf := by
    refine List.ext_getElem? fun j => ?_
    rw [List.map_set, List.getElem?_set, List.getElem?_map]
    split
    · next hij =>
      subst hij
      rw [hi]
      have hlt : i < (networks.map kind.idOf).length := by
        rw [List.length_map]
        exact (List.getElem?_eq_some_iff.mp hi).1
      rw [if_pos hlt, idOf_eq hid', Option.map_some, hid]
    · rfl
  refine ⟨fun n hn => ?_, fun n hn => ?_, hids ▸ h.distinct⟩
  · rcases List.mem_or_eq_of_mem_set hn with hn | rfl
    · exact h.extract n hn
    · rw [idOf_eq hid', hid']
  · rcases List.mem_or_eq_of_mem_set hn with hn | rfl
    · exact h.short n hn
    · rw [idOf_eq hid', ← hid]
      exact h.short network hmem

end Sound

/-- **Looking for an id** goes through the list without a panic. -/
theorem find_cases {networks : List T} (h : Sound kind networks) (networkId : List UInt8) :
    (∃ i network, Networks.find kind networkId networks = .ok (some (i, network)) ∧
      networks[i]? = some network ∧ kind.idOf network = networkId) ∨
    (Networks.find kind networkId networks = .ok none ∧
      ∀ network ∈ networks, kind.idOf network ≠ networkId) := by
  induction networks with
  | nil => exact .inr ⟨rfl, fun _ hn => nomatch hn⟩
  | cons network networks ih =>
    rw [Networks.find, h.extract network List.mem_cons_self, ok_bind]
    split
    case isTrue heq => exact .inl ⟨0, network, rfl, rfl, heq⟩
    case isFalse hne =>
      obtain ⟨i, found, hfind, hi, hid⟩ | ⟨hfind, hnone⟩ := ih (h.sublist (List.sublist_cons_self ..))
      · rw [hfind, ok_bind]
        exact .inl ⟨i + 1, found, rfl, hi, hid⟩
      · rw [hfind, ok_bind]
        refine .inr ⟨rfl, fun n hn => ?_⟩
        rcases List.mem_cons.mp hn with rfl | hn
        · exact hne
        · exact hnone n hn

/-! ## The operations -/

open Wireless.Networks

/-- How a call on the networks can end: it fails and has changed nothing, or it succeeds with a
list that is as told. -/
def Ends {α : Type} (m : Prog (Stop NetworksError) (Networks T N) α) (s : Networks T N)
    (Q : Networks T N → α → Prop) : Prop :=
  (∃ e, m.run s = (s, .error (.error e))) ∨ ∃ s' a, m.run s = (s', .ok a) ∧ Q s' a

variable {s : Networks T N}

theorem Ends.ofExcept_bind {α β : Type} {x : Except (Stop NetworksError) β}
    {k : β → Prog (Stop NetworksError) (Networks T N) α} {Q : Networks T N → α → Prop}
    (h : (∃ b, x = .ok b ∧ Ends (k b) s Q) ∨ ∃ e, x = .error (.error e)) :
    Ends (Prog.ofExcept x >>= k) s Q := by
  obtain ⟨b, rfl, h⟩ | ⟨e, rfl⟩ := h
  · exact h
  · exact .inl ⟨e, rfl⟩

/-- **Adding or updating** keeps the list sound, if the id is not too long. -/
theorem addOrUpdate_ends (hkind : kind.Lawful) (hs : Sound kind s.networks.1)
    {creds : WirelessCreds} (hshort : s.networks.1.length < N → ∀ network id,
      kind.initFrom creds = .ok network → creds.id = .ok id → id.length ≤ 32) :
    Ends (addOrUpdate kind creds) s fun s' _ => Sound kind s'.networks.1 := by
  refine Ends.ofExcept_bind ?_
  cases hid : creds.id with
  | error e => exact .inr ⟨_, rfl⟩
  | ok id =>
    refine .inl ⟨id, rfl, ?_⟩
    change Ends (Prog.ofExcept (other (find kind id s.networks.1)) >>= _) s _
    refine Ends.ofExcept_bind (.inl ?_)
    obtain ⟨i, network, hfind, hi, hnetwork⟩ | ⟨hfind, hnone⟩ := find_cases hs id
    · rw [hfind]
      refine ⟨_, rfl, Ends.ofExcept_bind ?_⟩
      obtain ⟨network', hupdate, hid'⟩ | ⟨e, hupdate⟩ := hkind.update network hid
      · rw [hupdate]
        exact .inl ⟨network', rfl, .inr ⟨_, _, rfl, hs.set hi hnetwork hid'⟩⟩
      · rw [hupdate]
        exact .inr ⟨_, rfl⟩
    · rw [hfind]
      refine ⟨_, rfl, ?_⟩
      simp only
      split
      · exact .inl ⟨_, rfl⟩
      · next hfull =>
        refine Ends.ofExcept_bind ?_
        obtain ⟨network, hnew, hid'⟩ | ⟨e, hnew⟩ := hkind.initFrom hid
        · rw [hnew]
          refine .inl ⟨network, rfl, Ends.ofExcept_bind (.inl ?_)⟩
          rw [HVec.push, dif_pos (Nat.lt_of_not_le hfull)]
          exact ⟨_, rfl, .inr ⟨_, _, rfl, hs.append hid' (hshort (Nat.lt_of_not_le hfull) network id hnew hid) hnone⟩⟩
        · rw [hnew]
          exact .inr ⟨_, rfl⟩

/-- **Removing** takes one network out. -/
theorem remove_ends (hs : Sound kind s.networks.1) (networkId : List UInt8) :
    Ends (remove kind networkId) s fun s' _ => ∃ i network, s.networks.1[i]? = some network ∧
      kind.idOf network = networkId ∧ s'.networks.1 = s.networks.1.eraseIdx i := by
  change Ends (Prog.ofExcept (other (find kind networkId s.networks.1)) >>= _) s _
  refine Ends.ofExcept_bind (.inl ?_)
  obtain ⟨i, network, hfind, hi, hid⟩ | ⟨hfind, _⟩ := find_cases hs networkId
  · rw [hfind]
    exact ⟨_, rfl, .inr ⟨_, _, rfl, i, network, hi, hid, rfl⟩⟩
  · rw [hfind]
    exact ⟨_, rfl, .inl ⟨_, rfl⟩⟩

/-- One network is at another position, and the others are in the order they were in. -/
def Moved (kind : Kind T) (networks networks' : List T) (networkId : List UInt8) (index : ℕ) : Prop :=
  ∃ i network, networks[i]? = some network ∧ kind.idOf network = networkId ∧
    networks'[index]? = some network ∧ networks'.eraseIdx index = networks.eraseIdx i

/-- **Reordering** moves one network, and only that. -/
theorem reorder_ends (hs : Sound kind s.networks.1) (index : BitVec 8) (networkId : List UInt8) :
    Ends (reorder kind index networkId) s fun s' index' => index' = index ∧
      Moved kind s.networks.1 s'.networks.1 networkId index.toNat ∧
      s'.networks.1.Perm s.networks.1 := by
  change Ends (Prog.ofExcept (other (find kind networkId s.networks.1)) >>= _) s _
  refine Ends.ofExcept_bind (.inl ?_)
  obtain ⟨i, network, hfind, hi, hid⟩ | ⟨hfind, _⟩ := find_cases hs networkId
  · rw [hfind]
    refine ⟨_, rfl, ?_⟩
    simp only
    split
    · next hlt =>
      refine Ends.ofExcept_bind (.inl ?_)
      obtain ⟨hi', hget⟩ := List.getElem?_eq_some_iff.mp hi
      have hlen : (s.networks.1.eraseIdx i).length = s.networks.1.length - 1 := by
        rw [List.length_eraseIdx, if_pos hi']
      have hindex : index.toNat < s.networks.1.length := by
        have hmod : index.toNat < s.networks.1.length % 2 ^ 8 := by
          rw [← BitVec.toNat_ofNat]
          exact hlt
        exact hmod.trans_le (Nat.mod_le _ _)
      have hle : index.toNat ≤ (s.networks.1.eraseIdx i).length := by omega
      have hN := s.networks.2
      rw [HVec.insert, dif_pos ⟨by change (s.networks.1.eraseIdx i).length < N; omega, hle⟩]
      refine ⟨_, rfl, .inr ⟨_, _, rfl, rfl, ⟨i, network, hi, hid, ?_, ?_⟩, ?_⟩⟩
      · exact List.getElem?_insertIdx_self.trans (if_pos hle)
      · exact List.eraseIdx_insertIdx_self network
      · refine (List.perm_insertIdx network _ hle).trans ?_
        rw [← hget]
        exact List.getElem_cons_eraseIdx_perm hi'
    · exact .inl ⟨_, rfl⟩
  · rw [hfind]
    exact ⟨_, rfl, .inl ⟨_, rfl⟩⟩

end Sound

end Wireless

end RsMatter
