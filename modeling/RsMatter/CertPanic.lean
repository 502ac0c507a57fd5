import RsMatter.CertDer

/-!
# When processing a certificate panics

The lists of a certificate are opened without a check that they are there, and the
encoder trips over some values (`Defect`). Everything else ends with a result or an error.
-/

namespace RsMatter

open Stop Panicking Emit Walk

/-! ## Reading -/

theorem noPanic_basicConstraints (elem : List UInt8) : NoPanic (BasicConstraints.fromTlv elem) := by
  refine (noPanic_membersOf _ _ elem).bind fun seq _ => ?_
  refine noPanic_field_bind 1 noPanic_bool _ fun isCa seq => ?_
  exact noPanic_field_bind 2 (noPanic_optional noPanic_u8) _ fun _ _ => noPanic_ok _

theorem noPanic_extension (elem : List UInt8) : NoPanic (Extension.fromTlv elem) := by
  refine (noPanic_lift _).bind fun ctx _ => ?_
  cases ctx with
  | none => exact noPanic_error _
  | some tag =>
    simp only
    rw [Extension.ofTag.eq_def]
    split
    · exact (noPanic_basicConstraints elem).bind fun _ _ => noPanic_ok _
    · exact (noPanic_u16 elem).bind fun _ _ => noPanic_ok _
    · exact noPanic_ok _
    · exact (noPanic_str elem).bind fun _ _ => noPanic_ok _
    · exact (noPanic_str elem).bind fun _ _ => noPanic_ok _
    · exact (noPanic_str elem).bind fun _ _ => noPanic_ok _
    · exact noPanic_error _

namespace DN

theorem noPanic_ctx (dn : DN) : NoPanic (DN.ctx dn) := by
  refine (noPanic_lift _).bind fun ctx _ => ?_
  cases ctx with
  | none => exact noPanic_error _
  | some ctx => exact noPanic_ok _

theorem noPanic_tag (dn : DN) : NoPanic (DN.tag dn) := by
  refine (noPanic_ctx dn).bind fun ctx _ => ?_
  split
  · exact noPanic_ok _
  · exact noPanic_error _

theorem noPanic_uint (dn : DN) : NoPanic (DN.uint dn) := noPanic_u64 dn

theorem noPanic_value (dn : DN) : NoPanic (DN.value dn) := by
  refine (noPanic_utf8 dn).attempt.bind fun text _ => ?_
  cases text with
  | ok value => exact ((noPanic_ctx dn).bind fun _ _ => noPanic_ok _).bind fun _ _ => noPanic_ok _
  | error code => exact (noPanic_u64 dn).bind fun _ _ => noPanic_ok _

end DN

theorem CertRef.noPanic_get {α : Type} (cert : CertRef) (ctx : BitVec 8)
    {read : List UInt8 → Except (Stop ErrorCode) α} (h : ∀ elem, NoPanic (read elem)) :
    NoPanic (cert.get ctx read) := (noPanic_member ctx cert).bind fun elem _ => h elem

section Lists

variable {T : Type} {fromTlv : List UInt8 → Except (Stop ErrorCode) T}

theorem CertRef.get_newList_ensures {cert : CertRef} {ctx : BitVec 8}
    (h : TLVElement.member ctx cert ≠ .ok []) :
    Ensures (cert.get ctx newList)
      fun list => ∃ members, TLVElement.container list = .ok members := by
  rw [CertRef.get, member_eq]
  cases hmember : TLVElement.member ctx cert with
  | error code => exact ensures_error code
  | ok elem =>
    rw [lift_ok, ok_bind]
    refine newContainer_ensures rfl ?_
    rintro rfl
    exact h hmember

theorem CertRef.get_newList_of_nil {cert : CertRef} {ctx : BitVec 8}
    (h : TLVElement.member ctx cert = .ok []) : cert.get ctx newList = .ok [] := by
  rw [CertRef.get, member_eq, h]
  rfl

theorem iterAll_nil : iterAll fromTlv [] = .error .panic := rfl

theorem noPanic_iterAll (hread : ∀ elem, NoPanic (fromTlv elem)) {list : List UInt8}
    (hopen : ∃ members, TLVElement.container list = .ok members) :
    NoPanic (iterAll fromTlv list) :=
  (noPanic_iter_iff hread _ list).mpr hopen

/-- **The lists of a certificate** are gone through without a panic exactly if they are
there. -/
theorem CertRef.noPanic_list_iff (hread : ∀ elem, NoPanic (fromTlv elem)) (cert : CertRef)
    (ctx : BitVec 8) :
    NoPanic (cert.get ctx newList >>= iterAll fromTlv) ↔ TLVElement.member ctx cert ≠ .ok [] := by
  constructor
  · intro h hmember
    rw [CertRef.get_newList_of_nil hmember, ok_bind, iterAll_nil] at h
    exact h rfl
  · intro hmember
    obtain ⟨hget, hopen⟩ := CertRef.get_newList_ensures hmember
    exact hget.bind fun list hlist => noPanic_iterAll hread (hopen list hlist)

theorem sim_list {cal : Calendar} {b : ℕ} (hread : ∀ elem, NoPanic (fromTlv elem))
    (cert : CertRef) (ctx : BitVec 8) (defect : Defect)
    {k : List (Except ErrorCode T) → Encode} {d : List (Except ErrorCode T) → Walk (List UInt8)}
    (h : ∀ l, Sim cal b (k l) (d l)) :
    Sim cal b (do
      let list ← ofExcept (cert.get ctx newList)
      let l ← ofExcept (iterAll fromTlv list)
      k l) (do
      let l ← cert.derList ctx defect fromTlv
      d l) := by
  by_cases hmember : TLVElement.member ctx cert = .ok []
  · rw [CertRef.derList, if_pos hmember, CertRef.get_newList_of_nil hmember]
    exact fun s _ => rfl
  · rw [CertRef.derList, if_neg hmember, bind_assoc]
    obtain ⟨hget, hopen⟩ := CertRef.get_newList_ensures hmember
    refine sim_read hget fun list hlist => ?_
    exact sim_read (noPanic_iterAll hread (hopen list hlist)) fun l _ => h l

end Lists

/-! ## Encoding -/

def block (start stop : CertConsumer) (m : Encode) : Encode := do
  emit start
  m
  emit stop

section Blocks

variable {cal : Calendar} {b : ℕ} {m : Encode} {d : Walk (List UInt8)}

theorem sim_seq (hb : b + 1 < ASN1Writer.maxDepth) (h : Sim cal (b + 1) m d) :
    Sim cal b (block .startSeq .endSeq m) (compound 0x30 d) := h.compound _ _ rfl rfl hb

theorem sim_set (hb : b + 1 < ASN1Writer.maxDepth) (h : Sim cal (b + 1) m d) :
    Sim cal b (block .startSet .endSet m) (compound 0x31 d) := h.compound _ _ rfl rfl hb

theorem sim_ostr (hb : b + 1 < ASN1Writer.maxDepth) (h : Sim cal (b + 1) m d) :
    Sim cal b (block .startCompoundOstr .endCompoundOstr m) (compound 0x04 d) :=
  h.compound _ _ rfl rfl hb

end Blocks

namespace BasicConstraints

theorem encode_eq (c : BasicConstraints) :
    c.encode = block .startSeq .endSeq (do
      encodeCa c.isCa
      encodePath c.path) := by
  simp only [encode, block, bind_assoc]

theorem sim_encode {cal : Calendar} {b : ℕ} (hb : b + 1 < ASN1Writer.maxDepth)
    (c : BasicConstraints) : Sim cal b c.encode c.der := by
  rw [encode_eq]
  refine sim_seq hb (.cat ?_ ?_)
  · cases c.isCa with
    | true => exact sim_prim rfl
    | false => exact sim_nil
  · cases c.path with
    | some len => exact sim_prim rfl
    | none => exact sim_nil

end BasicConstraints

namespace Extension

variable {cal : Calendar} {b : ℕ}

/-! ### Key usage -/

/-- Turning a byte round succeeds, and gives zero for zero only. -/
def reversesWell (byte : UInt8) : Bool :=
  match reverseByte byte with
  | .ok r => decide (r = 0 ↔ byte = 0)
  | .error _ => .false

theorem reversesWell_ofNat : ∀ n : Fin 256, reversesWell (UInt8.ofNat n) = true := by
  decide +kernel

theorem reverseByte_ok (byte : UInt8) : ∃ r, reverseByte byte = .ok r ∧ (r = 0 ↔ byte = 0) := by
  have h := reversesWell_ofNat ⟨byte.toNat, byte.toNat_lt⟩
  rw [UInt8.ofNat_toNat, reversesWell] at h
  split at h
  · next r hr => exact ⟨r, hr, of_decide_eq_true h⟩
  · cases h

theorem intToBitstring_ok (t : BitVec 16) :
    ∃ first second, intToBitstring t = .ok [first, second] ∧ (first = 0 ∧ second = 0 ↔ t = 0) := by
  obtain ⟨first, hfirst, hfirst0⟩ := reverseByte_ok (UInt8.ofBitVec (t.setWidth 8))
  obtain ⟨second, hsecond, hsecond0⟩ := reverseByte_ok (UInt8.ofBitVec ((t >>> 8).setWidth 8))
  refine ⟨first, second, ?_, ?_⟩
  · rw [intToBitstring, hfirst, ok_bind, hsecond]
    rfl
  · rw [hfirst0, hsecond0]
    constructor
    · rintro ⟨hlow, hhigh⟩
      have hlow' := congrArg UInt8.toBitVec hlow
      have hhigh' := congrArg UInt8.toBitVec hhigh
      simp only [UInt8.toBitVec_zero] at hlow' hhigh'
      bv_omega
    · rintro rfl
      exact ⟨rfl, rfl⟩

theorem bitstrParts_two (first second : UInt8) :
    if first = 0 ∧ second = 0 then bitstrParts .true [first, second] = .error .panic
    else NoPanic (bitstrParts .true [first, second]) := by
  have hlast : lastNonZero [first, second] 1 =
      if second = 0 then if first = 0 then .error .panic else .ok 0 else .ok 1 := rfl
  have hparts : bitstrParts .true [first, second] = (do
      let lastByte ← lastNonZero [first, second] 1
      let byte ← index [first, second] lastByte
      let s ← upTo [first, second] (lastByte + 1)
      return (trailingZeros byte, s)) := rfl
  rw [hparts, hlast]
  by_cases hsecond : second = 0
  · by_cases hfirst : first = 0
    · rw [if_pos ⟨hfirst, hsecond⟩, if_pos hsecond, if_pos hfirst]
      rfl
    · rw [if_neg (fun h => hfirst h.1), if_pos hsecond, if_neg hfirst]
      exact noPanic_ok _
  · rw [if_neg (fun h => hsecond h.2), if_neg hsecond]
    exact noPanic_ok _

theorem getPrintStr_ok (t : BitVec 16) : ∃ text, getPrintStr t = .ok text := by
  refine ⟨_, if_pos ?_⟩
  have hall : (keyUsageNames.zipIdx.flatMap fun p => p.1.toUTF8.toList).length ≤ 256 := by
    decide +kernel
  exact (List.filter_sublist.flatMap _).length_le.trans hall

theorem sim_encodeKeyUsage (t : BitVec 16) : Sim cal b (encodeKeyUsage t) (derKeyUsage t) := by
  obtain ⟨first, second, hbits, hzero⟩ := intToBitstring_ok t
  obtain ⟨text, htext⟩ := getPrintStr_ok t
  have hparts := bitstrParts_two first second
  rw [encodeKeyUsage, derKeyUsage, keyUsageBits, hbits, ok_bind, htext]
  change Sim cal b (emit (.bitstr .true [first, second])) _
  by_cases ht : t = 0
  · rw [if_pos (hzero.mpr ht)] at hparts
    rw [if_pos ht]
    refine sim_emit_panic ?_ _
    rw [CertConsumer.piece, hparts]
    rfl
  · rw [if_neg (fun h => ht (hzero.mp h))] at hparts
    rw [if_neg ht]
    exact sim_computed rfl hparts

/-! ### Extended key usage -/

theorem sim_encodeUsage (t : BitVec 8) : Sim cal b (encodeUsage t) (derUsage t) := by
  rw [encodeUsage, derUsage]
  cases t.toNat with
  | zero => exact sim_nil
  | succ n =>
    by_cases hn : n + 1 < extKeyUsageEncoding.length
    · rw [if_pos ⟨Nat.succ_pos n, hn.le⟩]
      simp only [index, List.getElem?_eq_getElem hn]
      exact sim_prim rfl
    · simp only [index, List.getElem?_eq_none (Nat.le_of_not_lt hn)]
      by_cases hbehind : n + 1 = extKeyUsageEncoding.length
      · rw [if_pos ⟨Nat.succ_pos n, hbehind.le⟩, if_pos hbehind]
        exact sim_panic _
      · rw [if_neg (by omega), if_neg hbehind]
        exact sim_nil

theorem sim_with {critical : Bool} {oid : List UInt8} {m : Encode} {d : Walk (List UInt8)}
    (hb : b + 2 < ASN1Writer.maxDepth) (h : Sim cal (b + 2) m d) :
    Sim cal b (do
      encodeExtensionStart critical oid
      m
      encodeExtensionEnd) (derWith critical oid d) := by
  have hblock : (do
      encodeExtensionStart critical oid
      m
      encodeExtensionEnd) = block .startSeq .endSeq (do
        emit (.oid oid)
        encodeCritical critical
        block .startCompoundOstr .endCompoundOstr m) := by
    simp only [encodeExtensionStart, encodeExtensionEnd, block, bind_assoc]
  rw [hblock]
  refine sim_seq (by omega) ((sim_prim rfl).cat (.cat ?_ (sim_ostr hb h)))
  cases critical with
  | true => exact sim_prim rfl
  | false => exact sim_nil

/-- **An extension.** -/
theorem sim_encode (hb : b + 3 < ASN1Writer.maxDepth) (extension : Extension) :
    Sim cal b extension.encode extension.der := by
  cases extension with
  | basicConstraints t => exact sim_with (by omega) (t.sim_encode hb)
  | keyUsage t => exact sim_with (by omega) (sim_encodeKeyUsage t)
  | subjectKeyId t => exact sim_with (by omega) (sim_prim rfl)
  | futureExtensions t => exact sim_raw t
  | authorityKeyId t =>
    have hblock : (authorityKeyId t).encode = (do
        encodeExtensionStart .false [0x55, 0x1D, 0x23]
        block .startSeq .endSeq (emit (.ctx 0 t))
        encodeExtensionEnd) := by
      simp only [encode, block, bind_assoc]
    rw [hblock]
    exact sim_with (by omega) (sim_seq hb (sim_prim rfl))
  | extKeyUsage t =>
    have hblock : (extKeyUsage t).encode = (do
        encodeExtensionStart .true [0x55, 0x1D, 0x25]
        (do
          let list ← ofExcept (iterAll u8 t)
          encodeExtendedKeyUsage list)
        encodeExtensionEnd) := by
      simp only [encode, bind_assoc]
    rw [hblock]
    refine sim_with (by omega) ?_
    rw [derExtendedKeyUsage]
    cases hopen : TLVElement.container t with
    | error code =>
      have hpanic : iterAll u8 t = .error .panic := by
        rw [iterAll, iter, container_eq, hopen]
        rfl
      rw [hpanic]
      exact sim_panic _
    | ok members =>
      refine sim_read (noPanic_iterAll noPanic_u8 ⟨members, hopen⟩) fun list _ => ?_
      exact sim_seq hb (sim_items sim_encodeUsage list)

end Extension

namespace DN

variable {cal : Calendar} {b : ℕ}

theorem length_radixText_u64 {width : ℕ} (hwidth : width ≤ 16) (v : BitVec 64) :
    (radixText 16 width v.toNat).length ≤ 16 := by
  have hdigits : (Nat.digits 16 v.toNat).length ≤ 16 :=
    (Nat.digits_length_le_iff (by decide) _).mpr v.isLt
  simp only [radixText, List.length_map, List.leftpad, List.length_append, List.length_replicate,
    List.length_reverse]
  omega

theorem sim_encodeValue (expectedLen : Option IntToStringLen) (v : DNValue) :
    Sim cal b (encodeValue expectedLen v) (derValue expectedLen v) := by
  have hwrite : ∀ {width : ℕ}, width ≤ 16 → ∀ v : BitVec 64,
      writeUnwrap 32 (radixText 16 width v.toNat) =
        (.ok (radixText 16 width v.toNat) : Except (Stop ErrorCode) _) := by
    intro width hwidth v
    have hlen := length_radixText_u64 hwidth v
    exact if_pos (by omega)
  cases v with
  | utf8 v => exact sim_prim rfl
  | printableStr v => exact sim_prim rfl
  | uint v =>
    rcases expectedLen with _ | _ | _
    · exact sim_error _
    · rw [encodeValue, hwrite le_rfl]
      exact sim_prim rfl
    · rw [encodeValue, hwrite (by decide)]
      exact sim_prim rfl

theorem sim_encode (hb : b + 2 < ASN1Writer.maxDepth) (dn : DN)
    (this : List UInt8 × Option IntToStringLen) :
    Sim cal b (DN.encode dn this.1 this.2) (DN.derWith dn this) := by
  have hblock : DN.encode dn this.1 this.2 = block .startSet .endSet (block .startSeq .endSeq (do
      emit (.oid this.1)
      (do
        let value ← ofExcept (DN.value dn)
        encodeValue this.2 value))) := by
    simp only [DN.encode, block, bind_assoc]
  rw [hblock]
  refine sim_set (by omega) (sim_seq hb ((sim_prim rfl).cat ?_))
  exact sim_read (noPanic_value dn) fun v _ => sim_encodeValue this.2 v

theorem encoding_toIdx (tag : DNTag) : encoding[tag.toIdx]? = some (entry tag) := by
  cases tag <;> rfl

theorem toIdx_le (tag : DNTag) : tag.toIdx ≤ encoding.length := by
  cases tag <;> decide

/-- **An attribute**, which is skipped if it is not known. -/
theorem sim_encodeKnown (hb : b + 2 < ASN1Writer.maxDepth) (dn : DN) :
    Sim cal b (DN.encodeKnown dn) (DN.der dn) := by
  have hpanic := noPanic_tag dn
  rw [DN.encodeKnown, DN.der]
  rcases htag : DN.tag dn with (code | _) | tag
  · exact sim_nil
  · exact absurd htag hpanic
  · change Sim cal b (if tag.toIdx ≤ encoding.length then _ else _) _
    rw [if_pos (toIdx_le tag), index, encoding_toIdx]
    exact sim_encode hb dn (entry tag)

theorem sim_encodeAll (hb : b + 3 < ASN1Writer.maxDepth) (values : List (Except ErrorCode DN)) :
    Sim cal b (DN.encodeAll values) (DN.derAll values) :=
  sim_seq (by omega) (sim_items (sim_encodeKnown hb) values)

end DN

namespace CertRef

variable (cal : Calendar) {b : ℕ} (cert : CertRef)

theorem encode_eq :
    cert.encode = block .startSeq .endSeq (do
      block (.startCtx 0) .endCtx (emit (.integer [2]))
      (do
        let serialNo ← ofExcept cert.serialNo
        emit (.integer serialNo))
      block .startSeq .endSeq (do
        let signAlgo ← ofExcept cert.signAlgo
        let oid ← ofExcept (oidOf [0x2A, 0x86, 0x48, 0xCE, 0x3D, 0x04, 0x03, 0x02] signAlgo)
        emit (.oid oid))
      (do
        let issuer ← ofExcept cert.issuer
        let issuer ← ofExcept (iterAll (fun elem => .ok elem) issuer)
        DN.encodeAll issuer)
      block .startSeq .endSeq (do
        (do
          let notBefore ← ofExcept cert.notBefore
          emit (.utctime notBefore.toNat))
        (do
          let notAfter ← ofExcept cert.notAfter
          encodeNotAfter notAfter))
      (do
        let subject ← ofExcept cert.subject
        let subject ← ofExcept (iterAll (fun elem => .ok elem) subject)
        DN.encodeAll subject)
      block .startSeq .endSeq (do
        block .startSeq .endSeq (do
          (do
            let pubkeyAlgo ← ofExcept cert.pubkeyAlgo
            let pubKey ← ofExcept (oidOf [0x2A, 0x86, 0x48, 0xCE, 0x3D, 0x02, 0x01] pubkeyAlgo)
            emit (.oid pubKey))
          (do
            let ecCurveId ← ofExcept cert.ecCurveId
            let curveId ← ofExcept
              (oidOf [0x2A, 0x86, 0x48, 0xCE, 0x3D, 0x03, 0x01, 0x07] ecCurveId)
            emit (.oid curveId)))
        (do
          let pubkey ← ofExcept cert.pubkey
          emit (.bitstr .false pubkey)))
      (do
        let extensions ← ofExcept cert.extensions
        let extensions ← ofExcept (iterAll Extension.fromTlv extensions)
        block (.startCtx 3) .endCtx (block .startSeq .endSeq (do
          forItems Extension.encode extensions)))) := by
  simp only [encode, block, Extension.encodeAll, bind_assoc]

variable {cal}

theorem sim_time {epoch : ℕ} (h : epoch ≤ matterCertDoesntExpire) :
    Sim cal b (emit (.utctime epoch)) (derTime cal epoch) :=
  sim_computed rfl (noPanic_utctime cal h)

theorem sim_notAfter (notAfter : BitVec 32) :
    Sim cal b (encodeNotAfter notAfter)
      (derTime cal (if notAfter = 0 then matterCertDoesntExpire else notAfter.toNat)) := by
  rw [encodeNotAfter]
  split
  · exact sim_time le_rfl
  · exact sim_time (notAfter.isLt.le.trans (by decide))

theorem noPanic_oidOf (oid : List UInt8) (algo : BitVec 8) : NoPanic (oidOf oid algo) := by
  rw [oidOf]
  split
  · exact noPanic_ok _
  · exact noPanic_error _

theorem sim_oid {algo : Except (Stop ErrorCode) (BitVec 8)} (halgo : NoPanic algo)
    (oid : List UInt8) :
    Sim cal b (do
      let algo ← ofExcept algo
      let oid ← ofExcept (oidOf oid algo)
      emit (.oid oid)) (derOid algo oid) := by
  refine sim_read halgo fun algo _ => ?_
  exact sim_read (noPanic_oidOf oid algo) fun oid _ => sim_prim rfl

theorem sim_pubkey :
    Sim cal b (do
      let pubkey ← ofExcept cert.pubkey
      emit (.bitstr .false pubkey)) cert.derPubkey := by
  refine sim_read (cert.noPanic_get 9 noPanic_str) fun pubkey _ => ?_
  split
  · next hnil =>
    subst hnil
    exact sim_emit_panic rfl _
  · next hne =>
    refine sim_prim ?_
    have hlen : 1 ≤ pubkey.length := List.length_pos_iff.mpr hne
    rw [CertConsumer.piece, bitstrParts, sub_ok hlen, ok_bind]
    simp only [upTo]
    rw [if_neg (by decide), if_pos (by omega), List.take_of_length_le (by omega)]
    rfl

/-- **The encoder** does what the walk says. -/
theorem sim_encode : Sim cal 0 cert.encode (cert.der cal) := by
  rw [encode_eq]
  refine sim_seq (by decide) ?_
  refine .cat (.compound _ _ rfl rfl (by decide) (sim_prim rfl)) ?_
  refine .cat (sim_read (cert.noPanic_get 1 noPanic_str) fun _ _ => sim_prim rfl) ?_
  refine .cat (sim_seq (by decide) (sim_oid (cert.noPanic_get 2 noPanic_u8) _)) ?_
  refine .cat (sim_list noPanic_ok cert 3 _ (DN.sim_encodeAll (by decide))) ?_
  refine .cat (sim_seq (by decide) (.cat ?_ ?_)) ?_
  · refine sim_read (cert.noPanic_get 4 noPanic_u32) fun notBefore _ => ?_
    exact sim_time (notBefore.isLt.le.trans (by decide))
  · exact sim_read (cert.noPanic_get 5 noPanic_u32) fun notAfter _ => sim_notAfter notAfter
  refine .cat (sim_list noPanic_ok cert 6 _ (DN.sim_encodeAll (by decide))) ?_
  refine .cat (sim_seq (by decide) (.cat (sim_seq (by decide) (.cat ?_ ?_)) cert.sim_pubkey)) ?_
  · exact sim_oid (cert.noPanic_get 7 noPanic_u8) _
  · exact sim_oid (cert.noPanic_get 8 noPanic_u8) _
  refine sim_list noPanic_extension cert 10 _ fun l => ?_
  refine .compound _ _ rfl rfl (by decide) (sim_seq (by decide) ?_)
  exact sim_items (Extension.sim_encode (by decide)) l

/-- The room that suffices for the DER of a certificate. -/
def room (cal : Calendar) (cert : CertRef) : ℕ := cert.encode.need (CertConsumer.cost cal)

/-- **Writing a certificate** to a buffer gives its DER, fails, or panics, as the walk says;
only a buffer that is too small makes it fail earlier. -/
theorem asAsn1_cases (cal : Calendar) (cert : CertRef) (buf : List UInt8) :
    (cert.asAsn1 cal buf = .error (.error .bufferTooSmall) ∧ buf.length < cert.room cal) ∨
    match cert.der cal with
    | .ok bytes => cert.asAsn1 cal buf = .ok bytes
    | .error none => ∃ e, cert.asAsn1 cal buf = .error (.error e)
    | .error (some _) => cert.asAsn1 cal buf = .error .panic := by
  have hsim : Agrees (.top []) (cert.encode.run (CertConsumer.put cal) (.top [])) (cert.der cal) :=
    cert.sim_encode (.top []) le_rfl
  obtain ⟨hrun, hroom⟩ | ⟨w, s, _, hrun, hnest, hrep⟩ | ⟨e, hrun, hnest⟩ :=
    Emit.run_refines (fun c w s hw => ASN1Writer.consume_refines cal c hw) cert.encode
      (ASN1Writer.represents_new buf)
  · refine .inl ⟨?_, ?_⟩
    · rw [asAsn1, hrun]
      rfl
    · simpa [ASN1Writer.new, room] using hroom
  · rw [hnest] at hsim
    rw [asAsn1, hrun]
    refine .inr ?_
    generalize cert.der cal = d at hsim ⊢
    rcases d with (_ | defect) | bytes
    · obtain ⟨_, hsim⟩ := hsim
      cases hsim
    · cases hsim
    · obtain ⟨rfl⟩ : s = .top bytes := congrArg Prod.fst (Except.ok.inj hsim)
      exact ASN1Writer.asSlice_top hrep
  · rw [hnest] at hsim
    rw [asAsn1, hrun]
    refine .inr ?_
    generalize cert.der cal = d at hsim ⊢
    rcases d with (_ | defect) | bytes
    · obtain ⟨code, hsim⟩ := hsim
      obtain rfl := Except.error.inj hsim
      exact ⟨code, rfl⟩
    · obtain rfl := Except.error.inj hsim
      rfl
    · cases hsim

theorem noPanic_asAsn1_iff (cal : Calendar) (cert : CertRef) :
    (∀ buf, NoPanic (cert.asAsn1 cal buf)) ↔ ∀ defect, cert.der cal ≠ .error (some defect) := by
  constructor
  · intro h defect hder
    -- a buffer with room enough
    obtain ⟨-, hroom⟩ | hcase := cert.asAsn1_cases cal (List.replicate (cert.room cal) 0)
    · rw [List.length_replicate] at hroom
      exact absurd hroom (lt_irrefl _)
    · rw [hder] at hcase
      exact h _ hcase
  · intro h buf
    obtain ⟨hfull, -⟩ | hcase := cert.asAsn1_cases cal buf
    · rw [hfull]
      exact noPanic_error _
    · rcases hder : cert.der cal with (_ | defect) | bytes
      · rw [hder] at hcase
        obtain ⟨e, he⟩ := hcase
        rw [he]
        exact noPanic_error e
      · exact absurd hder (h defect)
      · rw [hder] at hcase
        rw [show cert.asAsn1 cal buf = .ok bytes from hcase]
        exact noPanic_ok bytes

end CertRef

/-! ## Accessors -/

theorem doTryFind_ensures {T : Type} {predicate : T → Except (Stop ErrorCode) Bool}
    (h : ∀ a, NoPanic (predicate a)) (l : List (Except ErrorCode T)) :
    Ensures (doTryFind predicate l) fun found => ∀ a ∈ found, predicate a = .ok true := by
  induction l with
  | nil => exact ensures_ok fun a ha => nomatch ha
  | cons item l ih =>
    cases item with
    | error code => exact ensures_error code
    | ok a =>
      refine (h a).ensures.bind fun found hfound => ?_
      cases found with
      | false => exact ih
      | true =>
        refine ensures_ok ?_
        rintro _ ⟨⟩
        exact hfound

namespace CertRef

variable (cert : CertRef)

theorem noPanic_subjectItems_iff :
    NoPanic cert.subjectItems ↔ TLVElement.member 6 cert ≠ .ok [] :=
  noPanic_list_iff noPanic_ok cert 6

theorem noPanic_extensionItems_iff :
    NoPanic cert.extensionItems ↔ TLVElement.member 10 cert ≠ .ok [] :=
  noPanic_list_iff noPanic_extension cert 10

theorem noPanic_getSubjectId_iff (tag : DNTag) (code : ErrorCode) :
    NoPanic (cert.getSubjectId tag code) ↔ TLVElement.member 6 cert ≠ .ok [] := by
  rw [← noPanic_subjectItems_iff]
  refine ⟨fun h => h.of_bind, fun h => h.bind fun items _ => ?_⟩
  have htag : ∀ dn : DN, NoPanic (do
      let dnTag ← DN.tag dn
      return decide (dnTag = tag)) :=
    fun dn => (DN.noPanic_tag dn).bind fun _ _ => noPanic_ok _
  refine (doTryFind_ensures htag items).1.bind fun dn _ => ?_
  cases dn with
  | none => exact noPanic_error _
  | some dn => exact DN.noPanic_uint dn

theorem noPanic_catIdsLoop (items : List (Except ErrorCode DN)) {offset : ℕ}
    {output : List (BitVec 32)} (h : offset ≤ output.length) :
    NoPanic (catIdsLoop offset output items) := by
  induction items generalizing offset output with
  | nil => exact noPanic_ok _
  | cons item items ih =>
    cases item with
    | error code => exact noPanic_error _
    | ok dn =>
      refine (DN.noPanic_tag dn).bind fun tag _ => ?_
      split
      · split
        · exact noPanic_error _
        · refine (DN.noPanic_uint dn).bind fun v _ => ?_
          rw [store, if_pos (by omega), ok_bind]
          exact ih (by rw [List.length_set]; omega)
      · exact ih h

theorem noPanic_getCatIds (h : TLVElement.member 6 cert ≠ .ok []) (output : List (BitVec 32)) :
    NoPanic (cert.getCatIds output) :=
  (cert.noPanic_subjectItems_iff.mpr h).bind fun items _ =>
    noPanic_catIdsLoop items (Nat.zero_le _)

theorem noPanic_getSubjectKeyId_iff :
    NoPanic cert.getSubjectKeyId ↔ TLVElement.member 10 cert ≠ .ok [] := by
  rw [← noPanic_extensionItems_iff]
  refine ⟨fun h => h.of_bind, fun h => h.bind fun items _ => ?_⟩
  obtain ⟨hfind, hfound⟩ := doTryFind_ensures
    (fun extension => noPanic_ok (isSubjectKeyId extension)) items
  refine hfind.bind fun extension hextension => ?_
  rcases extension with _ | extension
  · exact noPanic_error _
  · have hid := hfound _ hextension extension rfl
    cases extension with
    | subjectKeyId id => exact noPanic_ok _
    | _ => cases hid

theorem noPanic_isAuthority {parent : CertRef} (hparent : TLVElement.member 10 parent ≠ .ok [])
    (hcert : TLVElement.member 10 cert ≠ .ok []) : NoPanic (cert.isAuthority parent) := by
  refine (parent.noPanic_getSubjectKeyId_iff.mpr hparent).bind fun id _ => ?_
  refine (cert.noPanic_extensionItems_iff.mpr hcert).bind fun items _ => ?_
  have hfind := doTryFind_ensures
    (fun extension => noPanic_ok (isAuthorityKeyId id extension)) items
  exact hfind.1.bind fun _ _ => noPanic_ok _

theorem noPanic_tryInto (n : ℕ) (slice : List UInt8) : NoPanic (tryInto n slice) := by
  rw [tryInto]
  split
  · exact noPanic_ok _
  · exact noPanic_error _

theorem noPanic_addCert {cal : Calendar} (verify : Verify) {parent : CertRef} {buf : List UInt8}
    (hauthority : NoPanic (cert.isAuthority parent)) (hasn1 : NoPanic (cert.asAsn1 cal buf)) :
    NoPanic (cert.addCert cal verify parent buf) := by
  refine hauthority.bind fun authority _ => ?_
  split
  · refine hasn1.bind fun asn1 _ => ?_
    refine (parent.noPanic_get 9 noPanic_str).bind fun pubkey _ => ?_
    refine (noPanic_tryInto 65 pubkey).bind fun pubkey _ => ?_
    refine (noPanic_lift _).bind fun key _ => ?_
    refine (cert.noPanic_get 11 noPanic_str).bind fun signature _ => ?_
    refine (noPanic_tryInto 64 signature).bind fun signature _ => ?_
    refine (noPanic_lift _).bind fun result _ => ?_
    split
    · exact noPanic_ok _
    · exact noPanic_error _
  · exact noPanic_error _

/-! ## Certificates that are processed -/

/-- A certificate, and one that is to have signed it, are processed without a panic: the
first is written to a buffer of any size, the accessors are asked, and the signatures are
checked. -/
structure NeverPanics (cal : Calendar) (verify : Verify) (cert parent : CertRef) : Prop where
  asAsn1 : ∀ buf, NoPanic (cert.asAsn1 cal buf)
  getNodeId : NoPanic cert.getNodeId
  getFabricId : NoPanic cert.getFabricId
  /-- its authenticated tags are asked for -/
  getCatIds : ∀ output, NoPanic (cert.getCatIds output)
  /-- the other one is asked for as its authority -/
  isAuthority : NoPanic (cert.isAuthority parent)
  /-- the signature of the other one is checked -/
  addCert : ∀ buf, NoPanic (cert.addCert cal verify parent buf)
  finalise : ∀ buf, NoPanic (cert.finalise cal verify buf)

/-- The lists are there, and the walk along the certificate does not meet a defect. -/
structure Sound (cal : Calendar) (cert parent : CertRef) : Prop where
  subject : TLVElement.member 6 cert ≠ .ok []
  extensions : TLVElement.member 10 cert ≠ .ok []
  /-- the extensions of the other one are there -/
  parentExtensions : TLVElement.member 10 parent ≠ .ok []
  der : ∀ defect, cert.der cal ≠ .error (some defect)

/-- **Processing certificates.** A certificate is processed without a panic exactly if its
lists are there and the walk along it does not meet a defect. -/
theorem neverPanics_iff_sound (cal : Calendar) (verify : Verify) (cert parent : CertRef) :
    NeverPanics cal verify cert parent ↔ Sound cal cert parent := by
  constructor
  · intro h
    refine ⟨?_, ?_, ?_, (noPanic_asAsn1_iff cal cert).mp h.asAsn1⟩
    · exact (cert.noPanic_getSubjectId_iff _ _).mp h.getNodeId
    · exact cert.noPanic_getSubjectKeyId_iff.mp (h.finalise []).of_bind.of_bind
    · exact parent.noPanic_getSubjectKeyId_iff.mp h.isAuthority.of_bind
  · intro h
    have hasn1 := (noPanic_asAsn1_iff cal cert).mpr h.der
    have hparent := cert.noPanic_isAuthority h.parentExtensions h.extensions
    have hself := cert.noPanic_isAuthority h.extensions h.extensions
    exact ⟨hasn1, (cert.noPanic_getSubjectId_iff _ _).mpr h.subject,
      (cert.noPanic_getSubjectId_iff _ _).mpr h.subject, cert.noPanic_getCatIds h.subject,
      hparent, fun buf => cert.noPanic_addCert verify hparent (hasn1 buf),
      fun buf => cert.noPanic_addCert verify hself (hasn1 buf)⟩

/-- A certificate whose only extension is the extended key usage 7. -/
def usageSeven : CertRef :=
  [0x15, 0x30, 0x01, 0x01, 0x01, 0x24, 0x02, 0x01, 0x37, 0x03, 0x24, 0x13, 0x01, 0x18,
    0x26, 0x04, 0x80, 0x22, 0x81, 0x27, 0x26, 0x05, 0x80, 0x25, 0x4d, 0x3a,
    0x37, 0x06, 0x24, 0x11, 0x01, 0x24, 0x15, 0x01, 0x18, 0x24, 0x07, 0x01, 0x24, 0x08, 0x01,
    0x30, 0x09, 0x01, 0x04, 0x37, 0x0a, 0x36, 0x03, 0x04, 0x07, 0x18, 0x18, 0x18]

/-- The table of the extended key usages has no entry 7, but the check lets it pass. -/
theorem usageSeven_panics :
    ¬ NeverPanics .gregorian (fun _ => .ok fun _ _ => .ok .true) usageSeven usageSeven := by
  intro h
  exact (noPanic_asAsn1_iff _ _).mp h.asAsn1 .extKeyUsageBehind (by decide +kernel)

end CertRef

end RsMatter
