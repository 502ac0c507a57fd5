import RsMatter.CertPanic

/-!
# The signed bytes and the identity

The signature of a certificate is over its DER, while the identity is read from its TLV.
DER values carry their lengths, so equal bytes have equal parts: the public keys are
equal, and so are the attributes of the subjects, but for those the encoder skips. An
identifier that is given as text has the DER of the integer with these digits, and the
bytes of a future extension may be those of any other extension; there the TLV of two
certificates can differ in what the device reads from it.
-/

namespace RsMatter

open Stop Panicking Emit Walk

/-! ## Values with lengths -/

theorem toNat_ofNat_u8 {n : ℕ} (h : n < 256) : (UInt8.ofNat n).toNat = n := by
  rw [UInt8.toNat_ofNat', Nat.mod_eq_of_lt h]

/-- The length that bytes start with, and the rest. -/
def readLen : List UInt8 → Option (ℕ × List UInt8)
  | [] => none
  | first :: rest =>
    if first.toNat < 128 then some (first.toNat, rest)
    else
      match first.toNat, rest with
      | 0x81, low :: rest => some (low.toNat, rest)
      | 0x82, high :: low :: rest => some (high.toNat * 256 + low.toNat, rest)
      | _, _ => none

theorem readLen_lenBytes {n : ℕ} (hn : n < maxLen) (rest : List UInt8) :
    readLen (lenBytes n ++ rest) = some (n, rest) := by
  rw [maxLen] at hn
  rw [lenBytes]
  split_ifs with h1 h2
  · simp [readLen, toNat_ofNat_u8 (show n < 256 by omega), h1]
  · simp [readLen, toNat_ofNat_u8 h2]
  · have hhigh : n >>> 8 = n / 256 := Nat.shiftRight_eq_div_pow n 8
    simp only [List.cons_append, List.nil_append, readLen, hhigh]
    rw [if_neg (by decide)]
    simp only [UInt8.reduceToNat, Option.some.injEq, Prod.mk.injEq, and_true]
    rw [UInt8.toNat_ofNat', UInt8.toNat_ofNat']
    omega

/-- **Equal bytes that start with values** start with the same value. -/
theorem tlv_append_inj {t t' : UInt8} {c c' r r' : List UInt8} (hc : c.length < maxLen)
    (hc' : c'.length < maxLen) (h : tlv t c ++ r = tlv t' c' ++ r') : t = t' ∧ c = c' ∧ r = r' := by
  rw [tlv, tlv, List.cons_append, List.cons_append, List.append_assoc, List.append_assoc,
    List.cons.injEq] at h
  obtain ⟨rfl, h⟩ := h
  have hlen := congrArg readLen h
  rw [readLen_lenBytes hc, readLen_lenBytes hc', Option.some.injEq, Prod.mk.injEq] at hlen
  obtain ⟨hlen, hrest⟩ := hlen
  obtain ⟨rfl, rfl⟩ := List.append_inj hrest hlen
  exact ⟨rfl, rfl, rfl⟩

def Framed (bytes : List UInt8) : Prop := ∃ tag c, c.length < maxLen ∧ bytes = tlv tag c

theorem Framed.append_inj {x x' r r' : List UInt8} (hx : Framed x) (hx' : Framed x')
    (h : x ++ r = x' ++ r') : x = x' ∧ r = r' := by
  obtain ⟨t, c, hc, rfl⟩ := hx
  obtain ⟨t', c', hc', rfl⟩ := hx'
  obtain ⟨rfl, rfl, rfl⟩ := tlv_append_inj hc hc' h
  exact ⟨rfl, rfl⟩

theorem Framed.ne_nil {x : List UInt8} (hx : Framed x) : x ≠ [] := by
  obtain ⟨t, c, -, rfl⟩ := hx
  exact List.cons_ne_nil _ _

/-! ## Walks that give the same -/

namespace Walk

variable {p p' q q' : Walk (List UInt8)} {x : List UInt8}

def Frames (p : Walk (List UInt8)) : Prop := ∀ x, p = .ok x → Framed x

theorem prim_eq_ok {tag : UInt8} {c : List UInt8} (h : prim tag c = .ok x) :
    c.length < maxLen ∧ x = tlv tag c := by
  rw [prim] at h
  split at h
  · next hc => exact ⟨hc, (Except.ok.inj h).symm⟩
  · cases h

theorem frames_prim (tag : UInt8) (c : List UInt8) : Frames (prim tag c) := by
  intro x h
  obtain ⟨hc, rfl⟩ := prim_eq_ok h
  exact ⟨tag, c, hc, rfl⟩

theorem frames_bind {α : Type} {y : Walk α} {k : α → Walk (List UInt8)}
    (h : ∀ a, Frames (k a)) : Frames (y >>= k) := by
  intro x hx
  cases y with
  | error e => cases hx
  | ok a => exact h a x hx

theorem frames_compound (tag : UInt8) (p : Walk (List UInt8)) : Frames (compound tag p) :=
  frames_bind fun c => frames_prim tag c

theorem prim_inj {tag tag' : UInt8} {c c' : List UInt8} (h : prim tag c = .ok x)
    (h' : prim tag' c' = .ok x) : tag = tag' ∧ c = c' := by
  obtain ⟨hc, rfl⟩ := prim_eq_ok h
  obtain ⟨hc', heq⟩ := prim_eq_ok h'
  obtain ⟨htag, hcc, -⟩ := tlv_append_inj hc hc' (congrArg (· ++ []) heq)
  exact ⟨htag, hcc⟩

theorem cat_eq_ok (h : cat p q = .ok x) : ∃ a b, p = .ok a ∧ q = .ok b ∧ x = a ++ b := by
  rcases p with _ | a
  · cases h
  · rcases q with _ | b
    · cases h
    · exact ⟨a, b, rfl, rfl, (Except.ok.inj h).symm⟩

/-- **The parts** of equal bytes are equal. -/
theorem cat_inj (hp : Frames p) (hp' : Frames p') (h : cat p q = .ok x) (h' : cat p' q' = .ok x) :
    ∃ a b, p = .ok a ∧ p' = .ok a ∧ q = .ok b ∧ q' = .ok b := by
  obtain ⟨a, b, rfl, rfl, rfl⟩ := cat_eq_ok h
  obtain ⟨a', b', rfl, rfl, heq⟩ := cat_eq_ok h'
  obtain ⟨rfl, rfl⟩ := (hp a rfl).append_inj (hp' a' rfl) heq
  exact ⟨a, b, rfl, rfl, rfl, rfl⟩

theorem compound_inj {tag tag' : UInt8} (h : compound tag p = .ok x)
    (h' : compound tag' p' = .ok x) : ∃ c, p = .ok c ∧ p' = .ok c := by
  rcases p with _ | c
  · cases h
  · rcases p' with _ | c'
    · cases h'
    · obtain ⟨-, rfl⟩ := prim_inj h h'
      exact ⟨c, rfl, rfl⟩

theorem read_eq_ok {α : Type} {y : Except (Stop ErrorCode) α} {a : α} (h : read y = .ok a) :
    y = .ok a := by
  cases y with
  | error e => cases h
  | ok b => exact congrArg _ (Except.ok.inj h)

theorem bind_eq_ok {α β : Type} {y : Walk α} {k : α → Walk β} {b : β} (h : y >>= k = .ok b) :
    ∃ a, y = .ok a ∧ k a = .ok b := by
  cases y with
  | error e => cases h
  | ok a => exact ⟨a, rfl, h⟩

theorem items_eq_ok {T : Type} {d : T → Walk (List UInt8)} {l : List (Except ErrorCode T)}
    (h : items d l = .ok x) :
    ∃ as : List T, ∃ xs : List (List UInt8), l = as.map .ok ∧
      List.Forall₂ (fun a y => d a = .ok y) as xs ∧ x = xs.flatten := by
  induction l generalizing x with
  | nil => exact ⟨[], [], rfl, .nil, (Except.ok.inj h).symm⟩
  | cons item l ih =>
    cases item with
    | error code => cases h
    | ok a =>
      obtain ⟨y, z, hy, hz, rfl⟩ := cat_eq_ok h
      obtain ⟨as, xs, rfl, hxs, rfl⟩ := ih hz
      exact ⟨a :: as, y :: xs, rfl, .cons hy hxs, rfl⟩

/-- **Equal bytes made of values** are made of the same values, one by one. -/
theorem forall₂_of_flatten_eq {T : Type} {d : T → Walk (List UInt8)} {P : T → Prop}
    (hframes : ∀ a, P a → Frames (d a)) {as bs : List T} {ys zs : List (List UInt8)}
    (has : List.Forall₂ (fun a y => P a ∧ d a = .ok y) as ys)
    (hbs : List.Forall₂ (fun b z => P b ∧ d b = .ok z) bs zs) (h : ys.flatten = zs.flatten) :
    List.Forall₂ (fun a b => P a ∧ P b ∧ ∃ y, d a = .ok y ∧ d b = .ok y) as bs := by
  induction has generalizing bs zs with
  | nil =>
    cases hbs with
    | nil => exact .nil
    | cons hz _ => exact absurd h.symm (by simp [(hframes _ hz.1 _ hz.2).ne_nil])
  | cons hy _ ih =>
    cases hbs with
    | nil => exact absurd h (by simp [(hframes _ hy.1 _ hy.2).ne_nil])
    | cons hz hbs =>
      obtain ⟨rfl, hrest⟩ := (hframes _ hy.1 _ hy.2).append_inj (hframes _ hz.1 _ hz.2) h
      exact .cons ⟨hy.1, hz.1, _, hy.2, hz.2⟩ (ih hbs hrest)

end Walk

/-! ## Digits -/

def undigit (byte : UInt8) : ℕ := if byte.toNat < 58 then byte.toNat - 48 else byte.toNat - 55

theorem undigit_digitByte {d : ℕ} (h : d < 16) : undigit (digitByte d) = d := by
  have hall : ∀ d : Fin 16, undigit (digitByte d) = d := by decide
  exact hall ⟨d, h⟩

/-- The number of a text in hexadecimal digits. -/
def textValue (text : List UInt8) : ℕ := Nat.ofDigits 16 (text.reverse.map undigit)

/-- The digits of a number give it back, however many zeros are before them. -/
theorem textValue_radixText (width n : ℕ) : textValue (radixText 16 width n) = n := by
  have hdigits : ∀ d ∈ Nat.digits 16 n, undigit (digitByte d) = d :=
    fun d hd => undigit_digitByte (Nat.digits_lt_base (by decide) hd)
  have hmap : (Nat.digits 16 n).map (undigit ∘ digitByte) = Nat.digits 16 n :=
    (List.map_congr_left hdigits).trans (List.map_id _)
  simp only [textValue, radixText, List.leftpad, List.map_append, List.reverse_append,
    List.map_replicate, List.reverse_replicate, List.map_reverse, List.reverse_reverse,
    List.map_map, hmap]
  exact (Nat.ofDigits_append_replicate_zero _).trans (Nat.ofDigits_digits 16 n)

theorem radixText_injective {width m n : ℕ} (h : radixText 16 width m = radixText 16 width n) :
    m = n := by
  rw [← textValue_radixText width m, h, textValue_radixText]

/-! ## Attributes -/

namespace DN

def Known (dn : DN) : Bool :=
  match DN.tag dn with
  | .ok _ => .true
  | .error _ => .false

/-- Two attributes are of one kind and have one encoding. -/
def Same (dn dn' : DN) : Prop :=
  ∃ tag x, DN.tag dn = .ok tag ∧ DN.tag dn' = .ok tag ∧ DN.derWith dn (entry tag) = .ok x ∧
    DN.derWith dn' (entry tag) = .ok x

theorem mem_all (tag : DNTag) : tag ∈ DNTag.all := by
  cases tag <;> decide

theorem entry_inj {tag tag' : DNTag} (h : (entry tag).1 = (entry tag').1) : tag = tag' := by
  have hnodup : (DNTag.all.map fun tag => (entry tag).1).Nodup := by decide +kernel
  exact List.inj_on_of_nodup_map hnodup (mem_all tag) (mem_all tag') h

theorem der_of_known {dn : DN} {tag : DNTag} (h : DN.tag dn = .ok tag) :
    DN.der dn = DN.derWith dn (entry tag) := by
  rw [DN.der, h]

theorem frames_derWith (dn : DN) (this : List UInt8 × Option IntToStringLen) :
    Frames (DN.derWith dn this) := frames_compound _ _

variable {dn dn' : DN}

theorem same_of_der {x : List UInt8} (hk : Known dn = true) (hk' : Known dn' = true)
    (h : DN.der dn = .ok x) (h' : DN.der dn' = .ok x) : Same dn dn' := by
  rw [Known] at hk hk'
  split at hk
  · next tag htag =>
    split at hk'
    · next tag' htag' =>
      rw [der_of_known htag] at h
      rw [der_of_known htag'] at h'
      obtain ⟨c, hc, hc'⟩ := compound_inj h h'
      obtain ⟨c, hc, hc'⟩ := compound_inj hc hc'
      obtain ⟨oid, -, hoid, hoid', -⟩ := cat_inj (frames_prim _ _) (frames_prim _ _) hc hc'
      obtain rfl := entry_inj (prim_inj hoid hoid').2
      exact ⟨tag, x, htag, htag', h, h'⟩
    · cases hk'
  · cases hk

theorem forall₂_known {dns : List DN} {xs : List (List UInt8)}
    (h : List.Forall₂ (fun dn y => DN.der dn = .ok y) dns xs) :
    ∃ ys, List.Forall₂ (fun dn y => Known dn = true ∧ DN.der dn = .ok y) (dns.filter Known) ys ∧
      xs.flatten = ys.flatten := by
  induction h with
  | nil => exact ⟨[], .nil, rfl⟩
  | @cons dn x dns xs hx h ih =>
    obtain ⟨ys, hys, hflat⟩ := ih
    by_cases hk : Known dn = true
    · refine ⟨x :: ys, ?_, ?_⟩
      · rw [List.filter_cons_of_pos hk]
        exact .cons ⟨hk, hx⟩ hys
      · rw [List.flatten_cons, List.flatten_cons, hflat]
    · refine ⟨ys, ?_, ?_⟩
      · rwa [List.filter_cons_of_neg hk]
      · have hnil : DN.der dn = .ok [] := by
          cases htag : DN.tag dn with
          | ok tag =>
            rw [Known, htag] at hk
            exact absurd rfl hk
          | error e => rw [DN.der, htag]
        rw [hnil] at hx
        obtain rfl := Except.ok.inj hx
        rw [List.flatten_cons, List.nil_append, hflat]

theorem frames_der {dn : DN} (hk : Known dn = true) : Frames (DN.der dn) := by
  rw [Known] at hk
  split at hk
  · next tag htag =>
    rw [der_of_known htag]
    exact frames_derWith dn _
  · cases hk

/-- **Equal names** have the same known attributes. -/
theorem same_of_items {l l' : List (Except ErrorCode DN)} {x : List UInt8}
    (h : items DN.der l = .ok x) (h' : items DN.der l' = .ok x) :
    ∃ dns dns' : List DN, l = dns.map .ok ∧ l' = dns'.map .ok ∧
      List.Forall₂ Same (dns.filter Known) (dns'.filter Known) := by
  obtain ⟨dns, xs, rfl, hxs, rfl⟩ := items_eq_ok h
  obtain ⟨dns', xs', rfl, hxs', heq⟩ := items_eq_ok h'
  obtain ⟨ys, hys, hflat⟩ := forall₂_known hxs
  obtain ⟨ys', hys', hflat'⟩ := forall₂_known hxs'
  have hboth := forall₂_of_flatten_eq (fun _ => frames_der) hys hys' (by rw [← hflat, ← hflat', heq])
  refine ⟨dns, dns', rfl, rfl, hboth.imp ?_⟩
  rintro dn dn' ⟨hk, hk', y, hy, hy'⟩
  exact same_of_der hk hk' hy hy'

/-! ### Integers -/

theorem u64_of_isUtf8 {dn : DN} {c : TLVControl} (hc : TLVSequence.control dn = .ok c)
    (hutf8 : c.valueType.isUtf8 = true) : u64 dn = .error (.error .tlvTypeMismatch) := by
  have hne : c.valueType ≠ .u64 ∧ c.valueType ≠ .u32 ∧ c.valueType ≠ .u16 ∧ c.valueType ≠ .u8 := by
    cases h : c.valueType <;> simp_all [TLVValueType.isUtf8]
  obtain ⟨h64, h32, h16, h8⟩ := hne
  simp [u64, u32, u16, u8, Panicking.uint, hc, h64, h32, h16, h8, lift_ok, ok_bind, Except.map]

theorem value_of_uint {dn : DN} {v : BitVec 64} (h : DN.uint dn = .ok v) :
    DN.value dn = .ok (.uint v) := by
  rw [DN.uint] at h
  have htext : attempt (utf8 dn) = .ok (.error .invalid) := by
    cases hc : TLVSequence.control dn with
    | error code =>
      rw [u64, Panicking.uint, hc] at h
      cases h
    | ok c =>
      by_cases hutf8 : c.valueType.isUtf8 = true
      · rw [u64_of_isUtf8 hc hutf8] at h
        cases h
      · rw [utf8, hc, lift_ok, ok_bind, if_neg hutf8]
        rfl
  rw [DN.value, htext, ok_bind]
  simp only
  rw [h]
  rfl

theorem derValue_inj {len : Option IntToStringLen} {v w : BitVec 64} {x : List UInt8}
    (hv : derValue len (.uint v) = .ok x) (hw : derValue len (.uint w) = .ok x) : v = w := by
  rcases len with _ | _ | _
  · cases hv
  · exact BitVec.eq_of_toNat_eq (radixText_injective (prim_inj hv hw).2)
  · exact BitVec.eq_of_toNat_eq (radixText_injective (prim_inj hv hw).2)

/-- **Integers of the same attribute** are equal. -/
theorem Same.uint_eq (h : Same dn dn') {v w : BitVec 64} (hv : DN.uint dn = .ok v)
    (hw : DN.uint dn' = .ok w) : v = w := by
  obtain ⟨tag, x, -, -, hx, hx'⟩ := h
  rw [DN.derWith, value_of_uint hv] at hx
  rw [DN.derWith, value_of_uint hw] at hx'
  obtain ⟨c, hc, hc'⟩ := compound_inj hx hx'
  obtain ⟨c, hc, hc'⟩ := compound_inj hc hc'
  obtain ⟨-, y, -, -, hy, hy'⟩ := cat_inj (frames_prim _ _) (frames_prim _ _) hc hc'
  exact derValue_inj hy hy'

theorem Same.tag_eq (h : Same dn dn') : DN.tag dn = DN.tag dn' := by
  obtain ⟨tag, x, htag, htag', -⟩ := h
  rw [htag, htag']

/-- If the identifiers are integers, equal attributes give equal ones. -/
theorem Same.uint_congr (h : Same dn dn') (hv : ∃ v, DN.uint dn = .ok v)
    (hw : ∃ w, DN.uint dn' = .ok w) : DN.uint dn = DN.uint dn' := by
  obtain ⟨v, hv⟩ := hv
  obtain ⟨w, hw⟩ := hw
  rw [hv, hw, h.uint_eq hv hw]

/-! ### What is read of a name -/

def find (tag : DNTag) (dns : List DN) : Except (Stop ErrorCode) (Option DN) :=
  doTryFind (fun dn => do
    let dnTag ← DN.tag dn
    return decide (dnTag = tag)) (dns.map .ok)

theorem find_cons (tag : DNTag) (dn : DN) (dns : List DN) :
    find tag (dn :: dns) = (do
      let dnTag ← DN.tag dn
      if dnTag = tag then return some dn else find tag dns) := by
  rw [find, List.map_cons, doTryFind, bind_assoc]
  refine bind_congr fun dnTag => ?_
  by_cases h : dnTag = tag
  · simp [h, Pure.pure, Except.pure, Bind.bind, Except.bind]
  · simp [h, Pure.pure, Except.pure, Bind.bind, Except.bind, find]

theorem find_filter {tag : DNTag} {dns : List DN} {r : Option DN} (h : find tag dns = .ok r) :
    find tag (dns.filter Known) = .ok r := by
  induction dns with
  | nil => exact h
  | cons dn dns ih =>
    rw [find_cons] at h
    cases htag : DN.tag dn with
    | error e =>
      rw [htag] at h
      cases h
    | ok dnTag =>
      have hk : Known dn = true := by rw [Known, htag]
      rw [htag, ok_bind] at h
      rw [List.filter_cons_of_pos hk, find_cons, htag, ok_bind]
      split at h
      · next heq => rwa [if_pos heq]
      · next hne =>
        rw [if_neg hne]
        exact ih h

theorem find_same (tag : DNTag) {dns dns' : List DN} (h : List.Forall₂ Same dns dns') :
    (∃ dn dn', find tag dns = .ok (some dn) ∧ find tag dns' = .ok (some dn') ∧ Same dn dn' ∧
      dn ∈ dns ∧ dn' ∈ dns' ∧ DN.tag dn = .ok tag) ∨
    (find tag dns = .ok none ∧ find tag dns' = .ok none) := by
  induction h with
  | nil => exact .inr ⟨rfl, rfl⟩
  | @cons dn dn' dns dns' hdn h ih =>
    obtain ⟨dnTag, -, htag, htag', -⟩ := id hdn
    rw [find_cons, find_cons, htag, htag', ok_bind, ok_bind]
    by_cases heq : dnTag = tag
    · rw [if_pos heq, if_pos heq]
      exact .inl ⟨dn, dn', rfl, rfl, hdn, List.mem_cons_self, List.mem_cons_self, by rw [htag, heq]⟩
    · rw [if_neg heq, if_neg heq]
      obtain ⟨e, e', he, he', hsame, hmem, hmem', hetag⟩ | hnone := ih
      · exact .inl ⟨e, e', he, he', hsame, List.mem_cons_of_mem _ hmem,
          List.mem_cons_of_mem _ hmem', hetag⟩
      · exact .inr hnone

variable {output r : List (BitVec 32)}

theorem catIdsLoop_cons_eq_ok {dn : DN} {items : List (Except ErrorCode DN)} {offset : ℕ}
    :
    CertRef.catIdsLoop offset output (.ok dn :: items) = .ok r ↔
      ∃ tag, DN.tag dn = .ok tag ∧
        ((tag = .nocCat ∧ offset ≠ output.length ∧ ∃ v out, DN.uint dn = .ok v ∧
            (store output offset (v.setWidth 32) : Except (Stop ErrorCode) _) = .ok out ∧
            CertRef.catIdsLoop (offset + 1) out items = .ok r) ∨
          (tag ≠ .nocCat ∧ CertRef.catIdsLoop offset output items = .ok r)) := by
  rw [CertRef.catIdsLoop]
  cases DN.tag dn with
  | error e => exact ⟨fun h => (nomatch h), fun ⟨tag, htag, _⟩ => (nomatch htag)⟩
  | ok tag =>
    rw [ok_bind]
    by_cases hcat : tag = .nocCat
    · rw [if_pos hcat]
      by_cases hroom : offset = output.length
      · simp [hroom, hcat]
      · cases DN.uint dn with
        | error e => simp [hroom, hcat, Bind.bind, Except.bind]
        | ok v =>
          cases hstore : (store output offset (v.setWidth 32) : Except (Stop ErrorCode) _) with
          | error e => simp [hroom, hcat, Bind.bind, Except.bind, hstore]
          | ok out => simp [hroom, hcat, Bind.bind, Except.bind, hstore]
    · simp [hcat]

theorem catIdsLoop_filter {dns : List DN} {offset : ℕ}
    (h : CertRef.catIdsLoop offset output (dns.map .ok) = .ok r) :
    CertRef.catIdsLoop offset output ((dns.filter Known).map .ok) = .ok r := by
  induction dns generalizing offset output with
  | nil => exact h
  | cons dn dns ih =>
    obtain ⟨tag, htag, hstep⟩ := catIdsLoop_cons_eq_ok.mp h
    have hk : Known dn = true := by rw [Known, htag]
    rw [List.filter_cons_of_pos hk, List.map_cons, catIdsLoop_cons_eq_ok]
    refine ⟨tag, htag, ?_⟩
    obtain ⟨hcat, hroom, v, out, hv, hstore, hrest⟩ | ⟨hcat, hrest⟩ := hstep
    · exact .inl ⟨hcat, hroom, v, out, hv, hstore, ih hrest⟩
    · exact .inr ⟨hcat, ih hrest⟩

theorem uint_of_catIdsLoop {dns : List DN} {offset : ℕ}
    (h : CertRef.catIdsLoop offset output (dns.map .ok) = .ok r) :
    ∀ dn ∈ dns, DN.tag dn = .ok .nocCat → ∃ v, DN.uint dn = .ok v := by
  induction dns generalizing offset output with
  | nil => exact fun dn hdn => nomatch hdn
  | cons dn dns ih =>
    obtain ⟨tag, htag, hstep⟩ := catIdsLoop_cons_eq_ok.mp h
    intro dn' hdn' htag'
    obtain ⟨-, -, v, out, hv, -, hrest⟩ | ⟨hcat, hrest⟩ := hstep
    · obtain rfl | hdn' := List.mem_cons.mp hdn'
      · exact ⟨v, hv⟩
      · exact ih hrest dn' hdn' htag'
    · obtain rfl | hdn' := List.mem_cons.mp hdn'
      · exact absurd (Except.ok.inj (htag.symm.trans htag')) hcat
      · exact ih hrest dn' hdn' htag'

/-- Names with the same attributes give the same tags, where these are integers. -/
theorem catIdsLoop_same {dns dns' : List DN} (h : List.Forall₂ Same dns dns')
    (hv : ∀ dn ∈ dns, DN.tag dn = .ok .nocCat → ∃ v, DN.uint dn = .ok v)
    (hw : ∀ dn ∈ dns', DN.tag dn = .ok .nocCat → ∃ v, DN.uint dn = .ok v)
    (offset : ℕ) (output : List (BitVec 32)) :
    CertRef.catIdsLoop offset output (dns.map .ok) =
      CertRef.catIdsLoop offset output (dns'.map .ok) := by
  induction h generalizing offset output with
  | nil => rfl
  | @cons dn dn' dns dns' hdn h ih =>
    have ih := ih (fun e he => hv e (List.mem_cons_of_mem _ he))
      (fun e he => hw e (List.mem_cons_of_mem _ he))
    obtain ⟨tag, -, htag, htag', -⟩ := id hdn
    rw [List.map_cons, List.map_cons, CertRef.catIdsLoop, CertRef.catIdsLoop, htag, htag',
      ok_bind, ok_bind]
    by_cases hcat : tag = .nocCat
    · subst hcat
      rw [hdn.uint_congr (hv dn List.mem_cons_self htag) (hw dn' List.mem_cons_self htag')]
      rw [if_pos rfl, if_pos rfl]
      split
      · rfl
      · exact bind_congr fun v => bind_congr fun out => ih _ _
    · rw [if_neg hcat, if_neg hcat]
      exact ih _ _

end DN

/-! ## Extensions -/

namespace Extension

def Plain : Extension → Prop
  | futureExtensions _ => False
  | _ => True

def oid : Extension → List UInt8
  | basicConstraints _ => [0x55, 0x1D, 0x13]
  | keyUsage _ => [0x55, 0x1D, 0x0F]
  | extKeyUsage _ => [0x55, 0x1D, 0x25]
  | subjectKeyId _ => [0x55, 0x1D, 0x0E]
  | authorityKeyId _ => [0x55, 0x1D, 0x23]
  | futureExtensions _ => []

/-- The key id of an extension, and whether it is that of the subject. -/
def keyId : Extension → Option (Bool × List UInt8)
  | subjectKeyId t => some (.true, t)
  | authorityKeyId t => some (.false, t)
  | _ => none

theorem der_eq_with {extension : Extension} (h : extension.Plain) :
    ∃ critical contents, extension.der = derWith critical extension.oid contents := by
  cases extension with
  | futureExtensions t => exact absurd h id
  | _ => exact ⟨_, _, rfl⟩

theorem frames_der {extension : Extension} (h : extension.Plain) : Frames extension.der := by
  obtain ⟨critical, contents, hder⟩ := der_eq_with h
  rw [hder]
  exact frames_compound _ _

theorem derWith_inj {critical : Bool} {oid : List UInt8} {d d' : Walk (List UInt8)}
    {x : List UInt8} (h : derWith critical oid d = .ok x) (h' : derWith critical oid d' = .ok x) :
    ∃ c, d = .ok c ∧ d' = .ok c := by
  obtain ⟨c, hc, hc'⟩ := compound_inj h h'
  obtain ⟨-, c, -, -, hc, hc'⟩ := cat_inj (frames_prim _ _) (frames_prim _ _) hc hc'
  obtain ⟨a, b, hflag, hb, rfl⟩ := cat_eq_ok hc
  obtain ⟨a', b', hflag', hb', heq⟩ := cat_eq_ok hc'
  obtain rfl := Except.ok.inj (hflag.symm.trans hflag')
  obtain rfl := List.append_cancel_left heq
  exact compound_inj hb hb'

/-- **Extensions with one encoding** have the same key id. -/
theorem keyId_eq {extension other : Extension} (h : extension.Plain) (h' : other.Plain)
    {x : List UInt8} (hx : extension.der = .ok x) (hx' : other.der = .ok x) :
    extension.keyId = other.keyId := by
  have hoid : extension.oid = other.oid := by
    obtain ⟨critical, contents, hder⟩ := der_eq_with h
    obtain ⟨critical', contents', hder'⟩ := der_eq_with h'
    rw [hder] at hx
    rw [hder'] at hx'
    obtain ⟨c, hc, hc'⟩ := compound_inj hx hx'
    obtain ⟨o, _, ho, ho', -⟩ := cat_inj (frames_prim _ _) (frames_prim _ _) hc hc'
    exact (prim_inj ho ho').2
  cases extension with
  | futureExtensions t => exact absurd h id
  | subjectKeyId t =>
    cases other with
    | subjectKeyId t' =>
      obtain ⟨c, hc, hc'⟩ := derWith_inj hx hx'
      rw [keyId, keyId, (prim_inj hc hc').2]
    | _ => simp [oid] at hoid
  | authorityKeyId t =>
    cases other with
    | authorityKeyId t' =>
      obtain ⟨c, hc, hc'⟩ := derWith_inj hx hx'
      obtain ⟨c, hc, hc'⟩ := compound_inj hc hc'
      rw [keyId, keyId, (prim_inj hc hc').2]
    | _ => simp [oid] at hoid
  | basicConstraints t | keyUsage t | extKeyUsage t =>
    cases other with
    | subjectKeyId t' => simp [oid] at hoid
    | authorityKeyId t' => simp [oid] at hoid
    | _ => rfl

/-- Equal lists of extensions, without those for the future, have the same key ids. -/
theorem keyIds_eq {l l' : List (Except ErrorCode Extension)} {x : List UInt8}
    (h : items der l = .ok x) (h' : items der l' = .ok x)
    (hplain : ∀ e, .ok e ∈ l → e.Plain) (hplain' : ∀ e, .ok e ∈ l' → e.Plain) :
    ∃ es es' : List Extension, l = es.map .ok ∧ l' = es'.map .ok ∧
      es.map keyId = es'.map keyId := by
  obtain ⟨es, xs, rfl, hxs, rfl⟩ := items_eq_ok h
  obtain ⟨es', xs', rfl, hxs', heq⟩ := items_eq_ok h'
  have hes : ∀ e ∈ es, e.Plain := fun e he => hplain e (List.mem_map_of_mem he)
  have hes' : ∀ e ∈ es', e.Plain := fun e he => hplain' e (List.mem_map_of_mem he)
  have hboth := forall₂_of_flatten_eq (fun _ => frames_der) ((List.forall₂_and_left _ _).mpr ⟨hes, hxs⟩)
    ((List.forall₂_and_left _ _).mpr ⟨hes', hxs'⟩) heq
  refine ⟨es, es', rfl, rfl, ?_⟩
  rw [← List.forall₂_eq_eq_eq, List.forall₂_map_left_iff, List.forall₂_map_right_iff]
  refine hboth.imp ?_
  rintro e e' ⟨he, he', y, hy, hy'⟩
  exact keyId_eq he he' hy hy'

end Extension

/-! ## Certificates -/

theorem doTryFind_pure {T : Type} (p : T → Bool) (as : List T) :
    doTryFind (fun a => .ok (p a)) (as.map .ok) = .ok (as.find? p) := by
  induction as with
  | nil => rfl
  | cons a as ih =>
    rw [List.map_cons, doTryFind, ok_bind]
    cases hp : p a with
    | true =>
      rw [List.find?_cons_of_pos hp]
      rfl
    | false =>
      rw [List.find?_cons_of_neg (by simp [hp])]
      exact ih

namespace CertRef

variable {cal : Calendar}

theorem der_of_asAsn1 {cert : CertRef} {buf out : List UInt8}
    (h : cert.asAsn1 cal buf = .ok out) : cert.der cal = .ok out := by
  obtain ⟨hfull, -⟩ | hcase := cert.asAsn1_cases cal buf
  · rw [hfull] at h
    cases h
  · rcases hder : cert.der cal with (_ | defect) | bytes
    · rw [hder] at hcase
      obtain ⟨e, he⟩ := hcase
      rw [he] at h
      cases h
    · rw [hder] at hcase
      rw [show cert.asAsn1 cal buf = .error .panic from hcase] at h
      cases h
    · rw [hder] at hcase
      rw [show cert.asAsn1 cal buf = .ok bytes from hcase] at h
      rw [Except.ok.inj h]

theorem derList_eq_ok {T : Type} {cert : CertRef} {ctx : BitVec 8} {defect : Defect}
    {fromTlv : List UInt8 → Except (Stop ErrorCode) T} {l : List (Except ErrorCode T)}
    (h : cert.derList ctx defect fromTlv = .ok l) :
    cert.get ctx newList >>= iterAll fromTlv = .ok l := by
  rw [derList] at h
  split at h
  · cases h
  · obtain ⟨list, hlist, hl⟩ := bind_eq_ok h
    rw [read_eq_ok hlist, ok_bind]
    exact read_eq_ok hl

/-- Certificates with one encoding have the same public key, and their subjects and
extensions have one encoding. -/
theorem parts_of_der {a b : CertRef} {out : List UInt8}
    (ha : a.der cal = .ok out) (hb : b.der cal = .ok out) :
    a.pubkey = b.pubkey ∧
    (∃ l l' x, a.subjectItems = .ok l ∧ b.subjectItems = .ok l' ∧ items DN.der l = .ok x ∧
      items DN.der l' = .ok x) ∧
    ∃ l l' x, a.extensionItems = .ok l ∧ b.extensionItems = .ok l' ∧
      items Extension.der l = .ok x ∧ items Extension.der l' = .ok x := by
  have hframes : ∀ {α : Type} {y : Walk α} {tag : UInt8} {c : α → List UInt8},
      Frames (y >>= fun a => prim tag (c a)) := fun {_ _ _ _} => frames_bind fun _ => frames_prim _ _
  obtain ⟨_, ha, hb⟩ := compound_inj ha hb
  obtain ⟨_, _, -, -, ha, hb⟩ := cat_inj (frames_compound _ _) (frames_compound _ _) ha hb
  obtain ⟨_, _, -, -, ha, hb⟩ := cat_inj hframes hframes ha hb
  obtain ⟨_, _, -, -, ha, hb⟩ := cat_inj (frames_compound _ _) (frames_compound _ _) ha hb
  obtain ⟨_, _, -, -, ha, hb⟩ := cat_inj (frames_bind fun _ => frames_compound _ _)
    (frames_bind fun _ => frames_compound _ _) ha hb
  obtain ⟨_, _, -, -, ha, hb⟩ := cat_inj (frames_compound _ _) (frames_compound _ _) ha hb
  obtain ⟨_, _, hsa, hsb, ha, hb⟩ := cat_inj (frames_bind fun _ => frames_compound _ _)
    (frames_bind fun _ => frames_compound _ _) ha hb
  obtain ⟨_, _, hka, hkb, hea, heb⟩ := cat_inj (frames_compound _ _) (frames_compound _ _) ha hb
  refine ⟨?_, ?_, ?_⟩
  · obtain ⟨_, hka, hkb⟩ := compound_inj hka hkb
    obtain ⟨_, _, -, -, hka, hkb⟩ := cat_inj (frames_compound _ _) (frames_compound _ _) hka hkb
    obtain ⟨key, hkey, hka⟩ := bind_eq_ok hka
    obtain ⟨key', hkey', hkb⟩ := bind_eq_ok hkb
    split at hka
    · cases hka
    · split at hkb
      · cases hkb
      · obtain ⟨-, heq⟩ := prim_inj hka hkb
        rw [read_eq_ok hkey, read_eq_ok hkey', (List.cons.inj heq).2]
  · obtain ⟨l, hl, hsa⟩ := bind_eq_ok hsa
    obtain ⟨l', hl', hsb⟩ := bind_eq_ok hsb
    obtain ⟨x, hx, hx'⟩ := compound_inj hsa hsb
    exact ⟨l, l', x, derList_eq_ok hl, derList_eq_ok hl', hx, hx'⟩
  · obtain ⟨l, hl, hea⟩ := bind_eq_ok hea
    obtain ⟨l', hl', heb⟩ := bind_eq_ok heb
    obtain ⟨x, hx, hx'⟩ := compound_inj hea heb
    obtain ⟨x, hx, hx'⟩ := compound_inj hx hx'
    exact ⟨l, l', x, derList_eq_ok hl, derList_eq_ok hl', hx, hx'⟩

/-! ### Identifiers -/

section Subject

variable {a b : CertRef} {dns dns' : List DN} (ha : a.subjectItems = .ok (dns.map .ok))
  (hb : b.subjectItems = .ok (dns'.map .ok))
  (hsame : List.Forall₂ DN.Same (dns.filter DN.Known) (dns'.filter DN.Known))

include ha in
theorem getSubjectId_eq (tag : DNTag) (code : ErrorCode) :
    a.getSubjectId tag code = (do
      let dn ← DN.find tag dns
      match dn with
      | some dn => DN.uint dn
      | none => .error (.error code)) := by
  rw [getSubjectId, ha]
  rfl

include ha in
theorem getSubjectId_eq_ok {tag : DNTag} {code : ErrorCode} {v : BitVec 64}
    (h : a.getSubjectId tag code = .ok v) :
    ∃ dn, DN.find tag (dns.filter DN.Known) = .ok (some dn) ∧ DN.uint dn = .ok v := by
  rw [getSubjectId_eq ha] at h
  cases hfind : DN.find tag dns with
  | error e =>
    rw [hfind] at h
    cases h
  | ok dn =>
    rw [hfind, ok_bind] at h
    cases dn with
    | none => cases h
    | some dn => exact ⟨dn, DN.find_filter hfind, h⟩

include ha hb hsame in
theorem getSubjectId_unique {tag : DNTag} {code : ErrorCode} {v w : BitVec 64}
    (hv : a.getSubjectId tag code = .ok v) (hw : b.getSubjectId tag code = .ok w) : v = w := by
  obtain ⟨dn, hdn, hv⟩ := getSubjectId_eq_ok ha hv
  obtain ⟨dn', hdn', hw⟩ := getSubjectId_eq_ok hb hw
  obtain ⟨e, e', he, he', hee, -⟩ | ⟨hnone, -⟩ := DN.find_same tag hsame
  · obtain rfl := Option.some.inj (Except.ok.inj (hdn.symm.trans he))
    obtain rfl := Option.some.inj (Except.ok.inj (hdn'.symm.trans he'))
    exact hee.uint_eq hv hw
  · cases hdn.symm.trans hnone

include ha hb hsame in
theorem getCatIds_unique {output r s : List (BitVec 32)} (hr : a.getCatIds output = .ok r)
    (hs : b.getCatIds output = .ok s) : r = s := by
  rw [getCatIds, ha, ok_bind] at hr
  rw [getCatIds, hb, ok_bind] at hs
  have hr := DN.catIdsLoop_filter hr
  have hs := DN.catIdsLoop_filter hs
  rw [DN.catIdsLoop_same hsame (DN.uint_of_catIdsLoop hr) (DN.uint_of_catIdsLoop hs)] at hr
  exact Except.ok.inj (hr.symm.trans hs)

end Subject

/-- The attributes of the subject are known, and the identifiers are integers. -/
def IdsPlain (cert : CertRef) : Prop :=
  ∀ items, cert.subjectItems = .ok items → ∀ dn, .ok dn ∈ items →
    ∃ tag, DN.tag dn = .ok tag ∧
      (tag = .nodeId ∨ tag = .fabricId ∨ tag = .nocCat → ∃ v, DN.uint dn = .ok v)

def NoFuture (cert : CertRef) : Prop :=
  ∀ items, cert.extensionItems = .ok items → ∀ t, .ok (.futureExtensions t) ∉ items

section Plain

variable {a b : CertRef} {dns dns' : List DN}

theorem IdsPlain.filter_known (h : a.IdsPlain) (ha : a.subjectItems = .ok (dns.map .ok)) :
    dns.filter DN.Known = dns := by
  refine List.filter_eq_self.mpr fun dn hdn => ?_
  obtain ⟨tag, htag, -⟩ := h _ ha dn (List.mem_map_of_mem hdn)
  rw [DN.Known, htag]

theorem IdsPlain.uint (h : a.IdsPlain) (ha : a.subjectItems = .ok (dns.map .ok)) {tag : DNTag}
    (htag : tag = .nodeId ∨ tag = .fabricId ∨ tag = .nocCat) :
    ∀ dn ∈ dns, DN.tag dn = .ok tag → ∃ v, DN.uint dn = .ok v := by
  intro dn hdn hdnTag
  obtain ⟨tag', htag', hv⟩ := h _ ha dn (List.mem_map_of_mem hdn)
  obtain rfl := Except.ok.inj (hdnTag.symm.trans htag')
  exact hv htag

variable (hpa : a.IdsPlain) (hpb : b.IdsPlain) (ha : a.subjectItems = .ok (dns.map .ok))
  (hb : b.subjectItems = .ok (dns'.map .ok))
  (hsame : List.Forall₂ DN.Same (dns.filter DN.Known) (dns'.filter DN.Known))

include hpa hpb ha hb hsame in
theorem getSubjectId_congr {tag : DNTag} (htag : tag = .nodeId ∨ tag = .fabricId ∨ tag = .nocCat)
    (code : ErrorCode) : a.getSubjectId tag code = b.getSubjectId tag code := by
  rw [hpa.filter_known ha, hpb.filter_known hb] at hsame
  rw [getSubjectId_eq ha, getSubjectId_eq hb]
  obtain ⟨dn, dn', hdn, hdn', hee, hmem, hmem', hdnTag⟩ | ⟨hnone, hnone'⟩ := DN.find_same tag hsame
  · rw [hdn, hdn', ok_bind, ok_bind]
    exact hee.uint_congr (hpa.uint ha htag dn hmem hdnTag)
      (hpb.uint hb htag dn' hmem' (hee.tag_eq.symm.trans hdnTag))
  · rw [hnone, hnone']

include hpa hpb ha hb hsame in
theorem getCatIds_congr (output : List (BitVec 32)) : a.getCatIds output = b.getCatIds output := by
  rw [hpa.filter_known ha, hpb.filter_known hb] at hsame
  rw [getCatIds, getCatIds, ha, hb, ok_bind, ok_bind]
  have htag : DNTag.nocCat = .nodeId ∨ DNTag.nocCat = .fabricId ∨ DNTag.nocCat = .nocCat :=
    .inr (.inr rfl)
  exact DN.catIdsLoop_same hsame (hpa.uint ha htag) (hpb.uint hb htag) _ _

end Plain

/-! ### Key ids -/

def isSubject : Option (Bool × List UInt8) → Bool
  | some (.true, _) => .true
  | _ => .false

/-- A given key id of an authority among key ids. -/
def isAuthorityOf (id : List UInt8) : Option (Bool × List UInt8) → Bool
  | some (.false, t) => t == id
  | _ => .false

theorem isSubjectKeyId_eq (e : Extension) : isSubjectKeyId e = isSubject e.keyId := by
  cases e <;> rfl

theorem isAuthorityKeyId_eq (id : List UInt8) (e : Extension) :
    isAuthorityKeyId id e = isAuthorityOf id e.keyId := by
  cases e <;> rfl

section KeyIds

variable {a b : CertRef} {es es' : List Extension} (ha : a.extensionItems = .ok (es.map .ok))
  (hb : b.extensionItems = .ok (es'.map .ok)) (hes : es.map Extension.keyId = es'.map Extension.keyId)

include ha in
theorem getSubjectKeyId_eq :
    a.getSubjectKeyId =
      match (es.map Extension.keyId).find? isSubject with
      | some (some (_, id)) => .ok id
      | some none => .error .panic
      | none => .error (.error .invalid) := by
  have hfind : (es.map Extension.keyId).find? isSubject =
      (es.find? isSubjectKeyId).map Extension.keyId := by
    have hp : isSubjectKeyId = isSubject ∘ Extension.keyId := funext isSubjectKeyId_eq
    rw [List.find?_map, hp]
  rw [getSubjectKeyId, ha, ok_bind, doTryFind_pure, ok_bind, hfind]
  cases hfound : es.find? isSubjectKeyId with
  | none => rfl
  | some e =>
    have he := List.find?_some hfound
    cases e with
    | subjectKeyId id => rfl
    | _ => cases he

include ha hb hes in
theorem getSubjectKeyId_congr : a.getSubjectKeyId = b.getSubjectKeyId := by
  rw [getSubjectKeyId_eq ha, getSubjectKeyId_eq hb, hes]

include ha hb hes in
theorem isAuthority_congr (their : CertRef) : a.isAuthority their = b.isAuthority their := by
  rw [isAuthority, isAuthority]
  refine bind_congr fun id => ?_
  have hany : ∀ es : List Extension, (es.find? (isAuthorityKeyId id)).isSome =
      ((es.map Extension.keyId).find? (isAuthorityOf id)).isSome := by
    intro es
    have hp : isAuthorityKeyId id = isAuthorityOf id ∘ Extension.keyId :=
      funext (isAuthorityKeyId_eq id)
    rw [List.find?_map, Option.isSome_map, hp]
  rw [ha, hb, ok_bind, ok_bind, doTryFind_pure, doTryFind_pure, ok_bind, ok_bind, hany, hany, hes]

end KeyIds

/-! ### The identity -/

/-- What the device acts on is the same for two certificates. -/
structure SameIdentity (a b : CertRef) : Prop where
  nodeId : a.getNodeId = b.getNodeId
  fabricId : a.getFabricId = b.getFabricId
  catIds : ∀ output, a.getCatIds output = b.getCatIds output
  pubkey : a.pubkey = b.pubkey
  subjectKeyId : a.getSubjectKeyId = b.getSubjectKeyId
  /-- which certificates are its authorities -/
  authority : ∀ their, a.isAuthority their = b.isAuthority their
  /-- which certificates it is the authority of -/
  authorityOf : ∀ other : CertRef, other.isAuthority a = other.isAuthority b

/-- **The signed bytes and the identity.** Certificates with the same DER have the same
public key; where the device reads a node id, a fabric id or the authenticated tags of both,
they are the same; if the attributes of the subjects are known and the identifiers are
integers, so are the outcomes; and without extensions for the future so are the key ids. -/
theorem identity_of_asAsn1 (cal : Calendar) (a b : CertRef) {buf buf' out : List UInt8}
    (ha : a.asAsn1 cal buf = .ok out) (hb : b.asAsn1 cal buf' = .ok out) :
    a.pubkey = b.pubkey ∧
    (∀ v w, a.getNodeId = .ok v → b.getNodeId = .ok w → v = w) ∧
    (∀ v w, a.getFabricId = .ok v → b.getFabricId = .ok w → v = w) ∧
    (∀ output r s, a.getCatIds output = .ok r → b.getCatIds output = .ok s → r = s) ∧
    (a.IdsPlain → b.IdsPlain → a.getNodeId = b.getNodeId ∧ a.getFabricId = b.getFabricId ∧
      ∀ output, a.getCatIds output = b.getCatIds output) ∧
    (a.NoFuture → b.NoFuture → a.getSubjectKeyId = b.getSubjectKeyId ∧
      (∀ their, a.isAuthority their = b.isAuthority their) ∧
      ∀ other : CertRef, other.isAuthority a = other.isAuthority b) := by
  obtain ⟨hkey, ⟨l, l', x, hl, hl', hx, hx'⟩, ⟨m, m', y, hm, hm', hy, hy'⟩⟩ :=
    parts_of_der (der_of_asAsn1 ha) (der_of_asAsn1 hb)
  obtain ⟨dns, dns', rfl, rfl, hsame⟩ := DN.same_of_items hx hx'
  refine ⟨hkey, ?_, ?_, ?_, ?_, ?_⟩
  · exact fun v w => getSubjectId_unique hl hl' hsame
  · exact fun v w => getSubjectId_unique hl hl' hsame
  · exact fun output r s => getCatIds_unique hl hl' hsame
  · intro hpa hpb
    exact ⟨getSubjectId_congr hpa hpb hl hl' hsame (.inl rfl) _,
      getSubjectId_congr hpa hpb hl hl' hsame (.inr (.inl rfl)) _,
      getCatIds_congr hpa hpb hl hl' hsame⟩
  · intro hfa hfb
    have hplain : ∀ e, .ok e ∈ m → e.Plain := by
      intro e he
      cases e with
      | futureExtensions t => exact absurd he (hfa m hm t)
      | _ => trivial
    have hplain' : ∀ e, .ok e ∈ m' → e.Plain := by
      intro e he
      cases e with
      | futureExtensions t => exact absurd he (hfb m' hm' t)
      | _ => trivial
    obtain ⟨es, es', rfl, rfl, hes⟩ := Extension.keyIds_eq hy hy' hplain hplain'
    have hid := getSubjectKeyId_congr hm hm' hes
    refine ⟨hid, isAuthority_congr hm hm' hes, fun other => ?_⟩
    rw [isAuthority, isAuthority, hid]

/-! ### Certificates with the same bytes -/

theorem asAsn1_of_der {cert : CertRef} {buf out : List UInt8}
    (h : cert.der cal = .ok out) (hroom : cert.room cal ≤ buf.length) :
    cert.asAsn1 cal buf = .ok out := by
  obtain ⟨-, hfull⟩ | hcase := cert.asAsn1_cases cal buf
  · exact absurd hfull (Nat.not_lt.mpr hroom)
  · rw [h] at hcase
    exact hcase

/-- Certificates for which the walk gives the same have the same bytes. -/
theorem exists_asAsn1 {a b : CertRef} {buf : List UInt8}
    (hder : a.der cal = b.der cal) (hok : (a.der cal).toOption.isSome = true)
    (ha : a.room cal ≤ buf.length) (hb : b.room cal ≤ buf.length) :
    ∃ out, a.asAsn1 cal buf = .ok out ∧ b.asAsn1 cal buf = .ok out := by
  cases hout : a.der cal with
  | error e =>
    rw [hout] at hok
    cases hok
  | ok out => exact ⟨out, asAsn1_of_der hout ha, asAsn1_of_der (hder.symm.trans hout) hb⟩

/-- A certificate with the given attributes of its subject and the given extensions. -/
def sample (subject extensions : List UInt8) : CertRef :=
  [0x15, 0x30, 0x01, 0x01, 0x01, 0x24, 0x02, 0x01, 0x37, 0x03, 0x24, 0x13, 0x01, 0x18,
    0x26, 0x04, 0x80, 0x22, 0x81, 0x27, 0x26, 0x05, 0x80, 0x25, 0x4d, 0x3a, 0x37, 0x06] ++ subject ++
    [0x18, 0x24, 0x07, 0x01, 0x24, 0x08, 0x01, 0x30, 0x09, 0x01, 0x04, 0x37, 0x0a] ++ extensions ++
    [0x18, 0x18]

def narrowId : CertRef := sample [0x24, 0x11, 0x01] []

def wideId : CertRef := sample [0x25, 0x11, 0x01, 0x00] []

def textId : CertRef :=
  sample [0x2c, 0x11, 0x10, 0x30, 0x30, 0x30, 0x30, 0x30, 0x30, 0x30, 0x30, 0x30, 0x30, 0x30, 0x30,
    0x30, 0x30, 0x30, 0x31] []

def twoKeyIds : CertRef := sample [0x24, 0x11, 0x01] [0x30, 0x04, 0x01, 0xAA, 0x30, 0x04, 0x01, 0xBB]

/-- The first of them in an extension for the future. -/
def hiddenKeyId : CertRef :=
  sample [0x24, 0x11, 0x01] [0x30, 0x06, 0x0c, 0x30, 0x0a, 0x06, 0x03, 0x55, 0x1d, 0x0e, 0x04, 0x03,
    0x04, 0x01, 0xAA, 0x30, 0x04, 0x01, 0xBB]

theorem identity_of_widths :
    narrowId ≠ wideId ∧
    (∃ out, narrowId.asAsn1 .gregorian (List.replicate 400 0) = .ok out ∧
      wideId.asAsn1 .gregorian (List.replicate 400 0) = .ok out) ∧
    narrowId.pubkey = wideId.pubkey ∧
    ∀ v w, narrowId.getNodeId = .ok v → wideId.getNodeId = .ok w → v = w := by
  obtain ⟨out, hnarrow, hwide⟩ : ∃ out,
      narrowId.asAsn1 .gregorian (List.replicate 400 0) = .ok out ∧
        wideId.asAsn1 .gregorian (List.replicate 400 0) = .ok out :=
    exists_asAsn1 (by decide +kernel) (by decide +kernel) (by decide +kernel) (by decide +kernel)
  have hidentity := identity_of_asAsn1 .gregorian narrowId wideId hnarrow hwide
  exact ⟨by decide, ⟨out, hnarrow, hwide⟩, hidentity.1, hidentity.2.1⟩

/-- A text is not read as a node id, and a key id in an extension for the future is not
read at all. -/
theorem other_identity_of_same_bytes :
    ((∃ out, narrowId.asAsn1 .gregorian (List.replicate 400 0) = .ok out ∧
      textId.asAsn1 .gregorian (List.replicate 400 0) = .ok out) ∧
      ¬ SameIdentity narrowId textId) ∧
    (∃ out, twoKeyIds.asAsn1 .gregorian (List.replicate 400 0) = .ok out ∧
      hiddenKeyId.asAsn1 .gregorian (List.replicate 400 0) = .ok out) ∧
      twoKeyIds.getSubjectKeyId = .ok [0xAA] ∧ hiddenKeyId.getSubjectKeyId = .ok [0xBB] := by
  refine ⟨⟨?_, ?_⟩, ?_, ?_, ?_⟩
  · exact exists_asAsn1 (by decide +kernel) (by decide +kernel) (by decide +kernel)
      (by decide +kernel)
  · intro h
    exact absurd h.nodeId (by decide +kernel)
  · exact exists_asAsn1 (by decide +kernel) (by decide +kernel) (by decide +kernel)
      (by decide +kernel)
  · decide +kernel
  · decide +kernel

end CertRef

end RsMatter
