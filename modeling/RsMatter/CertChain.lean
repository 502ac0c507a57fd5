import RsMatter.Bytes
import RsMatter.CertIdentity
import RsMatter.Prog

/-!
# Chains of certificates (`cert.rs`, `sc/case/casep.rs`, `failsafe.rs`)

A node certificate is checked up to a root, in CASE against the fabric of the node
(`CaseP.validateCerts`) and under the fail-safe when an identity is added or replaced
(`CertRef.validateCerts`). Each certificate has to be signed by the next one (`SignedBy`): its
authority key id is the key id of the next one, and its signature verifies with the key
of that. That is all: whether the next one may sign certificates at all, and whether its
name is the one that is given for the issuer, nobody asks (`CertChain.Sound`). So the
holder of an ordinary node certificate can sign another one.
-/

namespace RsMatter

open Prog Stop Panicking

/-! ## The checks -/

structure CertChain where
  noc : CertRef
  icac : Option CertRef
  root : CertRef
  deriving DecidableEq

namespace CertRef

/-- The intermediate certificate, if there is one, which must not be signed by itself: the
certificate to go on with. What a check leaves in the buffer the next one writes over. -/
def addIcac (cal : Calendar) (verify : Verify) (noc : CertRef) (buf : List UInt8) :
    Option CertRef → Except (Stop ErrorCode) CertRef
  | some icac => do
    let selfSigned ← icac.isAuthority icac
    if selfSigned then .error (.error .invalidData)
    else do
      noc.addCert cal verify icac buf
      return icac
  | none => return noc

/-- The chain of a node certificate under the fail-safe. -/
def validateCerts (noc : CertRef) (cal : Calendar) (verify : Verify) (icac : Option CertRef)
    (root : CertRef) (buf : List UInt8) : Except (Stop ErrorCode) Unit := do
  let verifier ← addIcac cal verify noc buf icac
  verifier.addCert cal verify root buf
  root.finalise cal verify buf

end CertRef

namespace CaseP

/-- The fabric id of an intermediate certificate, if one can be read, is that of the fabric. -/
def checkFabricId (fabricId : BitVec 64) (icac : CertRef) : Except (Stop ErrorCode) Unit := do
  let fid ← attempt icac.getFabricId
  match fid with
  | .ok fid => if fid = fabricId then return () else .error (.error .invalid)
  | .error _ => return ()

/-- The intermediate certificate, if there is one: the certificate to go on with. -/
def addIcac (cal : Calendar) (verify : CertRef.Verify) (fabricId : BitVec 64) (noc : CertRef)
    (buf : List UInt8) : Option CertRef → Except (Stop ErrorCode) CertRef
  | some icac => do
    checkFabricId fabricId icac
    noc.addCert cal verify icac buf
    return icac
  | none => return noc

/-- The chain of a node certificate in CASE, for a fabric with an id and a root. -/
def validateCerts (cal : Calendar) (verify : CertRef.Verify) (fabricId : BitVec 64)
    (rootCa : CertRef) (noc : CertRef) (icac : Option CertRef) (buf : List UInt8) :
    Except (Stop ErrorCode) Unit := do
  let nocFabricId ← noc.getFabricId
  if fabricId = nocFabricId then do
    let verifier ← addIcac cal verify fabricId noc buf icac
    verifier.addCert cal verify rootCa buf
    rootCa.finalise cal verify buf
  else .error (.error .invalid)

end CaseP

/-! ## What a chain should be -/

namespace CertRef

variable (cert : CertRef)

def issuerItems : Except (Stop ErrorCode) (List (Except ErrorCode DN)) := do
  let list ← cert.issuer
  iterAll (fun elem => .ok elem) list

/-- Does an extension say that the certificate is an authority? -/
def isCaExtension : Except ErrorCode Extension → Bool
  | .ok (.basicConstraints t) => t.isCa
  | _ => .false

/-- **An authority:** the basic constraints say so. -/
def IsCa : Prop := ∃ items, cert.extensionItems = .ok items ∧ items.any isCaExtension = .true

/-- The attributes of a name: what each is, and its value. -/
def attributes (items : Except (Stop ErrorCode) (List (Except ErrorCode DN))) :
    Except (Stop ErrorCode) (List (Except ErrorCode (Except (Stop ErrorCode) (DNTag × DNValue)))) := do
  let items ← items
  return items.map fun item => item.map fun dn => do
    let tag ← DN.tag dn
    let value ← DN.value dn
    return (tag, value)

/-- The name of the issuer is the subject of another certificate. -/
def NamedBy (parent : CertRef) : Prop := attributes cert.issuerItems = attributes parent.subjectItems

/-- The first fabric id among the attributes of the subject. -/
def fabricAttr : Option DN :=
  match cert.subjectItems with
  | .ok items => (items.filterMap Except.toOption).find? fun dn => (DN.tag dn).toOption == some .fabricId
  | .error _ => none

/-- The fabric id, where there is one, is a given one. -/
def FabricIs (fid : Except (Stop ErrorCode) (BitVec 64)) : Prop :=
  ∀ dn ∈ cert.fabricAttr, ∃ id, DN.uint dn = .ok id ∧ fid = .ok id

end CertRef

namespace CertChain

variable (c : CertChain)

/-- Each certificate with the one that should have signed it, which for the root is itself. -/
def links : List (CertRef × CertRef) :=
  match c.icac with
  | some icac => [(c.noc, icac), (icac, c.root), (c.root, c.root)]
  | none => [(c.noc, c.root), (c.root, c.root)]

/-- **A sound chain.** -/
structure Sound : Prop where
  authority : ∀ link ∈ c.links, link.2.IsCa
  name : ∀ link ∈ c.links, link.1.NamedBy link.2
  node : ¬ c.noc.IsCa
  fabric : ∀ link ∈ c.links, link.2.FabricIs c.noc.getFabricId

end CertChain

/-! ## What the checks say -/

section Checks

variable {cal : Calendar} {verify : CertRef.Verify} {buf : List UInt8}

namespace CertRef

structure SignedBy (cal : Calendar) (verify : Verify) (buf : List UInt8) (cert parent : CertRef) :
    Prop where
  keyId : cert.isAuthority parent = .ok .true
  signature : ∃ asn1 pubkey key signature, cert.asAsn1 cal buf = .ok asn1 ∧
    parent.pubkey = .ok pubkey ∧ pubkey.length = 65 ∧ verify pubkey = .ok key ∧
    cert.signature = .ok signature ∧ signature.length = 64 ∧ key asn1 signature = .ok .true

theorem tryInto_eq_ok_iff {n : ℕ} {slice a : List UInt8} :
    tryInto n slice = .ok a ↔ slice.length = n ∧ a = slice := by
  rw [tryInto]
  split_ifs with h
  · simp [h, eq_comm]
  · simp [h]

/-- **A check** asks for the key id and the signature. -/
theorem addCert_eq_ok_iff {cert parent : CertRef} :
    cert.addCert cal verify parent buf = .ok () ↔ SignedBy cal verify buf cert parent := by
  constructor
  · intro h
    rw [addCert] at h
    obtain ⟨authority, hauthority, h⟩ := except_bind_eq_ok.mp h
    cases authority with
    | false => cases h
    | true =>
      obtain ⟨asn1, hasn1, h⟩ := except_bind_eq_ok.mp h
      obtain ⟨pubkey, hpubkey, h⟩ := except_bind_eq_ok.mp h
      obtain ⟨pubkey', hpubkey', h⟩ := except_bind_eq_ok.mp h
      obtain ⟨key, hkey, h⟩ := except_bind_eq_ok.mp h
      obtain ⟨signature, hsignature, h⟩ := except_bind_eq_ok.mp h
      obtain ⟨signature', hsignature', h⟩ := except_bind_eq_ok.mp h
      obtain ⟨result, hresult, h⟩ := except_bind_eq_ok.mp h
      obtain ⟨hlen, rfl⟩ := tryInto_eq_ok_iff.mp hpubkey'
      obtain ⟨hlen', rfl⟩ := tryInto_eq_ok_iff.mp hsignature'
      cases result with
      | false => cases h
      | true =>
        exact ⟨hauthority, asn1, pubkey', key, signature', hasn1, hpubkey, hlen,
          lift_eq_ok.mp hkey, hsignature, hlen', lift_eq_ok.mp hresult⟩
  · rintro ⟨hauthority, asn1, pubkey, key, signature, hasn1, hpubkey, hlen, hkey, hsignature, hlen',
      hresult⟩
    rw [addCert, hauthority, ok_bind]
    simp only [if_true]
    rw [hasn1, ok_bind, hpubkey, ok_bind, tryInto, if_pos hlen, ok_bind, hkey, lift_ok, ok_bind,
      hsignature, ok_bind, tryInto, if_pos hlen', ok_bind, hresult, lift_ok, ok_bind, if_pos rfl]
    rfl

theorem root_eq_ok_iff {cert root : CertRef} :
    (cert.addCert cal verify root buf >>= fun _ => root.finalise cal verify buf) = .ok () ↔
      SignedBy cal verify buf cert root ∧ SignedBy cal verify buf root root := by
  rw [except_bind_eq_ok]
  constructor
  · rintro ⟨_, hcert, hroot⟩
    exact ⟨addCert_eq_ok_iff.mp hcert, addCert_eq_ok_iff.mp hroot⟩
  · rintro ⟨hcert, hroot⟩
    exact ⟨(), addCert_eq_ok_iff.mpr hcert, addCert_eq_ok_iff.mpr hroot⟩

/-- The attributes of a subject that has been encoded can be read. -/
theorem SignedBy.subjectItems {cert parent : CertRef} (h : SignedBy cal verify buf cert parent) :
    ∃ dns : List DN, cert.subjectItems = .ok (dns.map .ok) := by
  obtain ⟨-, asn1, -, -, -, hasn1, -⟩ := h
  obtain ⟨-, ⟨l, l', x, hl, -, hx, hx'⟩, -⟩ := parts_of_der (der_of_asAsn1 hasn1) (der_of_asAsn1 hasn1)
  obtain ⟨dns, -, rfl, -⟩ := DN.same_of_items hx hx'
  exact ⟨dns, hl⟩

theorem SignedBy.noPanic_getFabricId {cert parent : CertRef}
    (h : SignedBy cal verify buf cert parent) : NoPanic cert.getFabricId := by
  obtain ⟨dns, hdns⟩ := h.subjectItems
  apply (cert.noPanic_getSubjectId_iff _ _).mpr
  apply cert.noPanic_subjectItems_iff.mp
  rw [hdns]
  exact noPanic_ok _

/-- What is searched for with an error at the first item that cannot be asked is found by the
search that passes over these. -/
theorem find?_of_doTryFind {T : Type} {predicate : T → Except (Stop ErrorCode) Bool} {val : T}
    {items : List (Except ErrorCode T)} (h : doTryFind predicate items = .ok (some val)) :
    (items.filterMap Except.toOption).find? (fun a => (predicate a).toOption == some .true) =
      some val := by
  induction items with
  | nil => cases h
  | cons item items ih =>
    cases item with
    | error code => cases h
    | ok a =>
      rw [doTryFind] at h
      obtain ⟨found, hfound, h⟩ := except_bind_eq_ok.mp h
      cases found with
      | false =>
        have hrest := ih h
        simpa [Except.toOption, hfound] using hrest
      | true =>
        obtain rfl : a = val := Option.some.inj (Except.ok.inj h)
        simp [Except.toOption, hfound]

/-- The fabric id that is read is the first one among the attributes. -/
theorem fabricAttr_of_getFabricId {cert : CertRef} {id : BitVec 64} (h : cert.getFabricId = .ok id) :
    ∃ dn, cert.fabricAttr = some dn ∧ DN.uint dn = .ok id := by
  rw [getFabricId, getSubjectId] at h
  obtain ⟨items, hitems, h⟩ := except_bind_eq_ok.mp h
  obtain ⟨dn, hdn, h⟩ := except_bind_eq_ok.mp h
  cases dn with
  | none => cases h
  | some dn =>
    refine ⟨dn, ?_, h⟩
    rw [fabricAttr, hitems]
    have hsame : ∀ dn : DN, ((DN.tag dn).toOption == some .fabricId) =
        ((DN.tag dn >>= fun dnTag => .ok (decide (dnTag = .fabricId))).toOption == some .true) := by
      intro dn
      cases DN.tag dn with
      | error e => rfl
      | ok tag => cases tag <;> rfl
    simp only [hsame]
    exact find?_of_doTryFind hdn

end CertRef

namespace CaseP

theorem checkFabricId_eq_ok_iff {fabricId : BitVec 64} {icac : CertRef} (h : NoPanic icac.getFabricId) :
    checkFabricId fabricId icac = .ok () ↔ ∀ id, icac.getFabricId = .ok id → id = fabricId := by
  rw [checkFabricId]
  cases hid : icac.getFabricId with
  | error e =>
    cases e with
    | error code => simp [attempt, ok_bind, Pure.pure, Except.pure]
    | panic => exact absurd hid h
  | ok id =>
    rw [attempt, ok_bind]
    simp only [Except.ok.injEq, forall_eq']
    split_ifs with heq
    · simp [heq, Pure.pure, Except.pure]
    · simp [heq]

/-- **The check in CASE** asks for the fabric ids of the node and, where it can be read, of the
intermediate certificate, and for the signatures. -/
theorem validateCerts_eq_ok_iff {fabricId : BitVec 64} {c : CertChain} :
    validateCerts cal verify fabricId c.root c.noc c.icac buf = .ok () ↔
      c.noc.getFabricId = .ok fabricId ∧
      (∀ icac ∈ c.icac, ∀ id, icac.getFabricId = .ok id → id = fabricId) ∧
      ∀ link ∈ c.links, CertRef.SignedBy cal verify buf link.1 link.2 := by
  obtain ⟨noc, icac, root⟩ := c
  rw [validateCerts]
  cases hnoc : noc.getFabricId with
  | error e =>
    constructor
    · intro h
      cases h
    · rintro ⟨h, -⟩
      cases h
  | ok nocFabricId =>
    rw [ok_bind]
    split_ifs with heq
    · subst heq
      cases icac with
      | none =>
        simp only [addIcac, pure_bind, CertRef.root_eq_ok_iff, CertChain.links]
        simp
      | some icac =>
        simp only [CertChain.links, List.forall_mem_cons, Option.mem_some_iff, forall_eq', true_and]
        constructor
        · intro h
          obtain ⟨verifier, hicac, h⟩ := except_bind_eq_ok.mp h
          rw [addIcac] at hicac
          obtain ⟨_, hcheck, hicac⟩ := except_bind_eq_ok.mp hicac
          obtain ⟨_, hadd, hicac⟩ := except_bind_eq_ok.mp hicac
          cases hicac
          obtain ⟨hsigned, hroot⟩ := CertRef.root_eq_ok_iff.mp h
          exact ⟨(checkFabricId_eq_ok_iff hsigned.noPanic_getFabricId).mp hcheck,
            CertRef.addCert_eq_ok_iff.mp hadd, hsigned, hroot, by simp⟩
        · rintro ⟨hcheck, hadd, hsigned, hroot, -⟩
          rw [addIcac, (checkFabricId_eq_ok_iff hsigned.noPanic_getFabricId).mpr hcheck, ok_bind,
            CertRef.addCert_eq_ok_iff.mpr hadd, ok_bind]
          exact CertRef.root_eq_ok_iff.mpr ⟨hsigned, hroot⟩
    · simp [Ne.symm heq]

end CaseP

/-- **The check under the fail-safe** asks for an intermediate certificate that is not signed by
itself, and for the signatures. -/
theorem CertRef.validateCerts_eq_ok_iff {c : CertChain} :
    c.noc.validateCerts cal verify c.icac c.root buf = .ok () ↔
      (∀ icac ∈ c.icac, icac.isAuthority icac = .ok .false) ∧
      ∀ link ∈ c.links, CertRef.SignedBy cal verify buf link.1 link.2 := by
  obtain ⟨noc, icac, root⟩ := c
  rw [validateCerts]
  cases icac with
  | none =>
    simp only [addIcac, pure_bind, root_eq_ok_iff, CertChain.links]
    simp
  | some icac =>
    simp only [CertChain.links, List.forall_mem_cons, Option.mem_some_iff, forall_eq']
    constructor
    · intro h
      obtain ⟨verifier, hicac, h⟩ := except_bind_eq_ok.mp h
      rw [addIcac] at hicac
      obtain ⟨selfSigned, hself, hicac⟩ := except_bind_eq_ok.mp hicac
      cases selfSigned with
      | true => cases hicac
      | false =>
        obtain ⟨_, hadd, hicac⟩ := except_bind_eq_ok.mp hicac
        cases hicac
        obtain ⟨hsigned, hroot⟩ := root_eq_ok_iff.mp h
        exact ⟨hself, addCert_eq_ok_iff.mp hadd, hsigned, hroot, by simp⟩
    · rintro ⟨hself, hadd, hsigned, hroot, -⟩
      rw [addIcac, hself, ok_bind]
      simp only [Bool.false_eq_true, if_false]
      rw [addCert_eq_ok_iff.mpr hadd, ok_bind]
      exact root_eq_ok_iff.mpr ⟨hsigned, hroot⟩

end Checks

/-! ## What is not asked -/

namespace CertChain

variable (c : CertChain)

/-- **What neither check asks for.** -/
structure Issued : Prop where
  authority : ∀ link ∈ c.links, link.2.IsCa
  name : ∀ link ∈ c.links, link.1.NamedBy link.2
  node : ¬ c.noc.IsCa
  rootFabric : c.root.FabricIs c.noc.getFabricId

/-- A sound chain is one where all that is so, and the intermediate certificate belongs to the
fabric of the node too. -/
theorem sound_iff : c.Sound ↔ c.Issued ∧ ∀ icac ∈ c.icac, icac.FabricIs c.noc.getFabricId := by
  obtain ⟨noc, icac, root⟩ := c
  constructor
  · intro h
    refine ⟨⟨h.authority, h.name, h.node, ?_⟩, ?_⟩
    · apply h.fabric (root, root)
      cases icac <;> simp [links]
    · rintro icac' hicac
      obtain rfl : icac = some icac' := hicac
      exact h.fabric (noc, icac') (by simp [links])
  · rintro ⟨⟨hauthority, hname, hnode, hroot⟩, hicac⟩
    refine ⟨hauthority, hname, hnode, ?_⟩
    cases icac with
    | none =>
      intro link hlink
      obtain rfl | rfl : link = (noc, root) ∨ link = (root, root) := by simpa [links] using hlink
      · exact hroot
      · exact hroot
    | some icac =>
      intro link hlink
      obtain rfl | rfl | rfl : link = (noc, icac) ∨ link = (icac, root) ∨ link = (root, root) := by
        simpa [links] using hlink
      · exact hicac icac rfl
      · exact hroot
      · exact hroot

theorem fabricIs_iff {icac : CertRef} {fabricId : BitVec 64}
    (h : ∀ id, icac.getFabricId = .ok id → id = fabricId) :
    icac.FabricIs (.ok fabricId) ↔
      ((∀ id, icac.getFabricId ≠ .ok id) → icac.FabricIs (.ok fabricId)) := by
  refine ⟨fun his _ => his, fun hunread => ?_⟩
  by_cases hread : ∃ id, icac.getFabricId = .ok id
  · obtain ⟨id, hid⟩ := hread
    obtain rfl := h id hid
    obtain ⟨dn, hdn, hdnId⟩ := CertRef.fabricAttr_of_getFabricId hid
    intro dn' hdn'
    obtain rfl : dn = dn' := Option.some.inj (hdn.symm.trans hdn')
    exact ⟨id, hdnId, rfl⟩
  · exact hunread fun id hid => hread ⟨id, hid⟩

/-- **Sound chains.** A chain that the check in CASE accepts is sound exactly if what the check does not
ask for is so, unless a fabric id, a key id or a signature does not match; and so it is with
the check under the fail-safe. -/
theorem accepted_sound_iff (cal : Calendar) (verify : CertRef.Verify) (fabricId : BitVec 64)
    (buf : List UInt8) :
    ((CaseP.validateCerts cal verify fabricId c.root c.noc c.icac buf = .ok () → c.Sound) ↔
      (c.noc.getFabricId = .ok fabricId →
        (∀ icac ∈ c.icac, ∀ id, icac.getFabricId = .ok id → id = fabricId) →
        (∀ link ∈ c.links, CertRef.SignedBy cal verify buf link.1 link.2) →
        c.Issued ∧ ∀ icac ∈ c.icac, (∀ id, icac.getFabricId ≠ .ok id) →
          icac.FabricIs (.ok fabricId))) ∧
    ((c.noc.validateCerts cal verify c.icac c.root buf = .ok () → c.Sound) ↔
      ((∀ icac ∈ c.icac, icac.isAuthority icac = .ok .false) →
        (∀ link ∈ c.links, CertRef.SignedBy cal verify buf link.1 link.2) →
        c.Issued ∧ ∀ icac ∈ c.icac, icac.FabricIs c.noc.getFabricId)) := by
  rw [CaseP.validateCerts_eq_ok_iff, CertRef.validateCerts_eq_ok_iff, sound_iff]
  constructor
  · constructor
    · intro h hnoc hicac hsigned
      obtain ⟨hissued, hfabric⟩ := h ⟨hnoc, hicac, hsigned⟩
      refine ⟨hissued, fun icac hmem _ => ?_⟩
      have his := hfabric icac hmem
      rwa [hnoc] at his
    · rintro h ⟨hnoc, hicac, hsigned⟩
      obtain ⟨hissued, hfabric⟩ := h hnoc hicac hsigned
      refine ⟨hissued, fun icac hmem => ?_⟩
      rw [hnoc]
      exact (fabricIs_iff (hicac icac hmem)).mpr (hfabric icac hmem)
  · constructor
    · intro h hself hsigned
      exact h ⟨hself, hsigned⟩
    · rintro h ⟨hself, hsigned⟩
      exact h hself hsigned

end CertChain

/-! ### What a node can sign -/

section Forged

variable {cal : Calendar} {verify : CertRef.Verify} {buf : List UInt8} {noc root forged : CertRef}
  {fabricId : BitVec 64}

/-- **A node can sign certificates:** where its own certificate is accepted, so is one for the
same fabric that is signed with its key. -/
theorem CaseP.validateCerts_forged
    (h : validateCerts cal verify fabricId root noc none buf = .ok ())
    (hsigned : CertRef.SignedBy cal verify buf forged noc)
    (hfabric : forged.getFabricId = .ok fabricId) :
    validateCerts cal verify fabricId root forged (some noc) buf = .ok () := by
  obtain ⟨hnoc, -, hlinks⟩ := (validateCerts_eq_ok_iff (c := ⟨noc, none, root⟩)).mp h
  apply (validateCerts_eq_ok_iff (c := ⟨forged, some noc, root⟩)).mpr
  refine ⟨hfabric, ?_, ?_⟩
  · rintro icac ⟨⟩ id hid
    exact Except.ok.inj (hid.symm.trans hnoc)
  · exact List.forall_mem_cons.mpr ⟨hsigned, hlinks⟩

/-- So it is under the fail-safe, unless the certificate of the node is signed by itself. -/
theorem CertRef.validateCerts_forged (h : noc.validateCerts cal verify none root buf = .ok ())
    (hself : noc.isAuthority noc = .ok .false) (hsigned : SignedBy cal verify buf forged noc) :
    forged.validateCerts cal verify (some noc) root buf = .ok () := by
  obtain ⟨-, hlinks⟩ := (validateCerts_eq_ok_iff (c := ⟨noc, none, root⟩)).mp h
  apply (validateCerts_eq_ok_iff (c := ⟨forged, some noc, root⟩)).mpr
  refine ⟨?_, List.forall_mem_cons.mpr ⟨hsigned, hlinks⟩⟩
  rintro icac ⟨⟩
  exact hself

end Forged

/-! ### A forged certificate -/

namespace CertChain

def ownRoot : CertRef :=
  toBE 40 0x1530010101240201370324140118260480a280272605000000003706241401182407012408013009 ++
  toBE 40 0x410472fe98ddb78f71493af5d9917b78e5fb003317916b544de1381dfa6d3ff57a7cbb13473c14d6 ++
  toBE 40 0x83766264cf97593f08162c184e29fa5615513de3550662e1543b370a35012901183004148e6925f3 ++
  toBE 40 0x2ee518b3387f00e8a6f6fed0ea51e07b3005148e6925f32ee518b3387f00e8a6f6fed0ea51e07b18 ++
  toBE 40 0x300b400f8ac9cbdda8f95c22a857647b1ed40aeb7dd5b4fe076ad4f8bd296f423b02522626a2f9c2 ++
  toBE 28 0x174835fcc751ffb8a7c7a67acba9858426341f8bda24b7ab2a91a418

/-- The certificate of an ordinary node of fabric 9, which is signed by the root. -/
def ordinaryNoc : CertRef :=
  toBE 40 0x1530010102240201370324140118260480a280272605000000003706241111241509182407012408 ++
  toBE 40 0x0130094104448ec14a809ffa9984810b0e9b933edc1df959d7bf43b39d27309397577202bf54edef ++
  toBE 40 0x97f7f5617891c5f322dacae029230ad2480cfb9171d7a3cf5fae832a7d370a3501280118300414ca ++
  toBE 40 0x02c82bddd9a3661712feb62acb8b63d73842813005148e6925f32ee518b3387f00e8a6f6fed0ea51 ++
  toBE 40 0xe07b18300b400da7ab17a470eaa434ebc98eda87df1e13032166962b5135f40d3c82d0c8d2c3c1c5 ++
  toBE 31 0x91eedb7f425fe0a9c5cdec17fabb290ae1944ec251a18c6d543f79260d6818

/-- A certificate for another node of this fabric, which is signed by the ordinary node. -/
def forgedNoc : CertRef :=
  toBE 40 0x1530010103240201370324111124150918260480a280272605000000003706241112241509182407 ++
  toBE 40 0x012408013009410422942358b32c6e9c3b092abcd3c903d11a9bb6486e3b1aa635331f5846318e3e ++
  toBE 40 0x6e430894624e7482ca3ad8b69a2d1eb9eabb48aef91fffccca16051be8e3e0a3370a350128011830 ++
  toBE 40 0x04143aee05b0f7307dba8d068d16b314aeb058433e88300514ca02c82bddd9a3661712feb62acb8b ++
  toBE 40 0x63d738428118300b401add7981d6d8eb29b05b1605dcb4a05fc4981b975e72ecb651c8778a04f8f8 ++
  toBE 34 0x92c4aa22c8abd30bac1caa629f89e959ee69712c5b279cc3c1d2948ef63dd0cc1818

/-- A backend that accepts the signatures of these three certificates. -/
def issuedSignatures : CertRef.Verify := fun pubkey => .ok fun asn1 signature =>
  .ok ([(ownRoot, ownRoot), (ordinaryNoc, ownRoot), (forgedNoc, ordinaryNoc)].any fun link =>
    (link.2.pubkey).toOption == some pubkey && (link.1.der .gregorian).toOption == some asn1 &&
      (link.1.signature).toOption == some signature)

theorem exists_ok {ε α : Type} {x : Except ε α} {p : α → Bool}
    (h : x.toOption.any p = .true) : ∃ a, x = .ok a ∧ p a = .true := by
  cases x with
  | error e => cases h
  | ok a => exact ⟨a, rfl, h⟩

/-- The certificate can be encoded into a buffer of 600 bytes, and it names the key of its issuer. -/
def isIssued (cert parent : CertRef) : Bool :=
  (cert.isAuthority parent).toOption == some true && cert.room .gregorian ≤ 600 &&
    (cert.der .gregorian).toOption.isSome && parent.pubkey.toOption.any (·.length == 65) &&
      cert.signature.toOption.any (·.length == 64)

theorem signedBy_of_issued {cert parent : CertRef}
    (hmem : (cert, parent) ∈ [(ownRoot, ownRoot), (ordinaryNoc, ownRoot), (forgedNoc, ordinaryNoc)])
    (hissued : isIssued cert parent = .true) :
    CertRef.SignedBy .gregorian issuedSignatures (List.replicate 600 0) cert parent := by
  simp only [isIssued, Bool.and_eq_true, decide_eq_true_eq, beq_iff_eq] at hissued
  obtain ⟨⟨⟨⟨hkeyId, hroom⟩, hder⟩, hpubkey⟩, hsignature⟩ := hissued
  obtain ⟨authority, hauthority, rfl⟩ : ∃ b, cert.isAuthority parent = .ok b ∧ b = .true :=
    exists_ok (p := id) (by simp [hkeyId])
  obtain ⟨asn1, hder, -⟩ := exists_ok (p := fun _ => .true) (by simpa using hder)
  obtain ⟨pubkey, hpubkey, hlen⟩ := exists_ok hpubkey
  obtain ⟨signature, hsignature, hlen'⟩ := exists_ok hsignature
  refine ⟨hauthority, asn1, pubkey, _, signature, ?_, hpubkey, by simpa using hlen, rfl, hsignature,
    by simpa using hlen', ?_⟩
  · exact CertRef.asAsn1_of_der hder (hroom.trans_eq List.length_replicate.symm)
  · apply congrArg
    apply List.any_eq_true.mpr
    refine ⟨(cert, parent), hmem, ?_⟩
    simp [hder, hpubkey, hsignature, Except.toOption]

theorem signedBy_issued : ∀ link ∈ (CertChain.mk forgedNoc (some ordinaryNoc) ownRoot).links,
    CertRef.SignedBy .gregorian issuedSignatures (List.replicate 600 0) link.1 link.2 := by
  have hall : ((CertChain.mk forgedNoc (some ordinaryNoc) ownRoot).links.all fun link =>
      isIssued link.1 link.2) = .true := by decide +kernel
  intro link hlink
  exact signedBy_of_issued (List.mem_reverse.mp hlink) (List.all_eq_true.mp hall link hlink)

theorem not_isCa_ordinaryNoc : ¬ ordinaryNoc.IsCa := by
  rintro ⟨items, hitems, hany⟩
  have hnone : ordinaryNoc.extensionItems.toOption.all (fun items => !items.any CertRef.isCaExtension) =
      .true := by decide +kernel
  rw [hitems] at hnone
  simp [Except.toOption, hany] at hnone

/-- **A forged certificate** is accepted by both checks: the ordinary node that signed it is no
authority. -/
theorem forgedNoc_accepted :
    CaseP.validateCerts .gregorian issuedSignatures 9 ownRoot forgedNoc (some ordinaryNoc)
      (List.replicate 600 0) = .ok () ∧
    forgedNoc.validateCerts .gregorian issuedSignatures (some ordinaryNoc) ownRoot
      (List.replicate 600 0) = .ok () ∧
    ¬ (CertChain.mk forgedNoc (some ordinaryNoc) ownRoot).Sound := by
  refine ⟨?_, ?_, ?_⟩
  · apply (CaseP.validateCerts_eq_ok_iff (c := ⟨forgedNoc, some ordinaryNoc, ownRoot⟩)).mpr
    refine ⟨by decide +kernel, ?_, signedBy_issued⟩
    rintro icac ⟨⟩ id hid
    have hread : ordinaryNoc.getFabricId = .ok 9 := by decide +kernel
    exact Except.ok.inj (hid.symm.trans hread)
  · apply (CertRef.validateCerts_eq_ok_iff (c := ⟨forgedNoc, some ordinaryNoc, ownRoot⟩)).mpr
    refine ⟨?_, signedBy_issued⟩
    rintro icac ⟨⟩
    decide +kernel
  · intro h
    exact not_isCa_ordinaryNoc (h.authority (forgedNoc, ordinaryNoc) (by simp [links]))

end CertChain

end RsMatter
