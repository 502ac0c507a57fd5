import RsMatter.Cert

/-!
# Walking a certificate

What stops the encoder of a certificate, and what it writes. `der` walks a certificate in
the order of the encoder and gives its DER, an ordinary obstacle (a field that is missing
or of the wrong kind, a value that is too long), or a `Defect`: a thing in the certificate
that the encoder does not expect and panics at. The encoder does what the walk says, into
any buffer that has the room.
-/

namespace RsMatter

open Stop Panicking Emit

inductive Defect where
  /-- the list of the issuer is not there -/
  | noIssuer
  /-- the list of the subject is not there -/
  | noSubject
  /-- the list of the extensions is not there -/
  | noExtensions
  | emptyPubKey
  | noKeyUsage
  /-- the extended key usages cannot be opened -/
  | extKeyUsageNotOpen
  /-- an extended key usage is the first one behind the table -/
  | extKeyUsageBehind
  deriving DecidableEq

/-- A walk: what it gives, or what it stops at; `none` is an ordinary obstacle. -/
abbrev Walk := Except (Option Defect)

namespace Walk

/-- Something that is read; an error is an ordinary obstacle. -/
def read {α : Type} : Except (Stop ErrorCode) α → Walk α
  | .ok a => .ok a
  | .error _ => .error none

def prim (tag : UInt8) (contents : List UInt8) : Walk (List UInt8) :=
  if contents.length < maxLen then .ok (tlv tag contents) else .error none

def cat (first second : Walk (List UInt8)) : Walk (List UInt8) := do
  let a ← first
  let b ← second
  return a ++ b

def parts : List (Walk (List UInt8)) → Walk (List UInt8)
  | [] => .ok []
  | [last] => last
  | first :: second :: rest => cat first (parts (second :: rest))

def compound (tag : UInt8) (contents : Walk (List UInt8)) : Walk (List UInt8) := do
  let contents ← contents
  prim tag contents

def flag : Bool → Walk (List UInt8)
  | .true => prim 0x01 [0xFF]
  | .false => .ok []

def items {T : Type} (d : T → Walk (List UInt8)) : List (Except ErrorCode T) → Walk (List UInt8)
  | [] => .ok []
  | .ok a :: rest => cat (d a) (items d rest)
  | .error _ :: _ => .error none

end Walk

open Walk

namespace BasicConstraints

def der (c : BasicConstraints) : Walk (List UInt8) :=
  compound 0x30 (parts [
    flag c.isCa,
    match c.path with
    | some len => prim 0x02 [UInt8.ofBitVec len]
    | none => .ok []])

end BasicConstraints

namespace Extension

/-- An extended key usage: the one behind the table is not skipped. -/
def derUsage (t : BitVec 8) : Walk (List UInt8) :=
  match t.toNat with
  | 0 => .ok []
  | n + 1 =>
    match extKeyUsageEncoding[n + 1]? with
    | some oid => prim 0x06 oid
    | none => if n + 1 = extKeyUsageEncoding.length then .error (some .extKeyUsageBehind) else .ok []

/-- The bits of a key usage up to the last one that is set. -/
def keyUsageBits (t : BitVec 16) : Except (Stop ErrorCode) (UInt8 × List UInt8) := do
  let bits ← intToBitstring t
  bitstrParts .true bits

def derKeyUsage (t : BitVec 16) : Walk (List UInt8) :=
  if t = 0 then .error (some .noKeyUsage)
  else do
    let bits ← read (keyUsageBits t)
    prim 0x03 (bits.1 :: bits.2)

def derExtendedKeyUsage (t : List UInt8) : Walk (List UInt8) :=
  match TLVElement.container t with
  | .error _ => .error (some .extKeyUsageNotOpen)
  | .ok _ => do
    let list ← read (iterAll u8 t)
    compound 0x30 (items derUsage list)

def derWith (critical : Bool) (oid : List UInt8) (contents : Walk (List UInt8)) :
    Walk (List UInt8) :=
  compound 0x30 (parts [prim 0x06 oid, flag critical, compound 0x04 contents])

def der : Extension → Walk (List UInt8)
  | basicConstraints t => derWith .true [0x55, 0x1D, 0x13] t.der
  | keyUsage t => derWith .true [0x55, 0x1D, 0x0F] (derKeyUsage t)
  | extKeyUsage t => derWith .true [0x55, 0x1D, 0x25] (derExtendedKeyUsage t)
  | subjectKeyId t => derWith .false [0x55, 0x1D, 0x0E] (prim 0x04 t)
  | authorityKeyId t => derWith .false [0x55, 0x1D, 0x23] (compound 0x30 (prim 0x80 t))
  | futureExtensions t => .ok t

end Extension

namespace DN

def derValue (expectedLen : Option IntToStringLen) : DNValue → Walk (List UInt8)
  | .uint v =>
    match expectedLen with
    | some .len16 => prim 0x0c (radixText 16 16 v.toNat)
    | some .len8 => prim 0x0c (radixText 16 8 v.toNat)
    | none => .error none
  | .utf8 v => prim 0x0c v
  | .printableStr v => prim 0x13 v

def derWith (dn : DN) (this : List UInt8 × Option IntToStringLen) : Walk (List UInt8) :=
  compound 0x31 (compound 0x30 (cat (prim 0x06 this.1) (do
    let v ← read (DN.value dn)
    derValue this.2 v)))

def entry (tag : DNTag) : List UInt8 × Option IntToStringLen := encoding.getD tag.toIdx ([], none)

/-- An attribute; one that is not known is nothing. -/
def der (dn : DN) : Walk (List UInt8) :=
  match DN.tag dn with
  | .ok tag => derWith dn (entry tag)
  | .error _ => .ok []

def derAll (values : List (Except ErrorCode DN)) : Walk (List UInt8) :=
  compound 0x30 (items der values)

end DN

namespace CertRef

variable (cert : CertRef)

/-- The items of a list of the certificate. One that is not there is a defect. -/
def derList {T : Type} (ctx : BitVec 8) (defect : Defect)
    (fromTlv : List UInt8 → Except (Stop ErrorCode) T) :
    Walk (List (Except ErrorCode T)) :=
  if TLVElement.member ctx cert = .ok [] then .error (some defect)
  else do
    let list ← read (cert.get ctx newList)
    read (iterAll fromTlv list)

def derTime (cal : Calendar) (epoch : ℕ) : Walk (List UInt8) := do
  let text ← read (cal.utctime epoch)
  prim text.1 text.2

def derOid (algo : Except (Stop ErrorCode) (BitVec 8)) (oid : List UInt8) : Walk (List UInt8) := do
  let algo ← read algo
  let oid ← read (oidOf oid algo)
  prim 0x06 oid

def derPubkey : Walk (List UInt8) := do
  let pubkey ← read cert.pubkey
  if pubkey = [] then .error (some .emptyPubKey) else prim 0x03 (0 :: pubkey)

def der (cal : Calendar) : Walk (List UInt8) :=
  compound 0x30 (parts [
    compound 0xA0 (prim 0x02 [2]),
    do
      let serialNo ← read cert.serialNo
      prim 0x02 serialNo,
    compound 0x30 (derOid cert.signAlgo [0x2A, 0x86, 0x48, 0xCE, 0x3D, 0x04, 0x03, 0x02]),
    do
      let issuer ← cert.derList 3 .noIssuer fun elem => .ok elem
      DN.derAll issuer,
    compound 0x30 (parts [
      do
        let notBefore ← read cert.notBefore
        derTime cal notBefore.toNat,
      do
        let notAfter ← read cert.notAfter
        derTime cal (if notAfter = 0 then matterCertDoesntExpire else notAfter.toNat)]),
    do
      let subject ← cert.derList 6 .noSubject fun elem => .ok elem
      DN.derAll subject,
    compound 0x30 (parts [
      compound 0x30 (parts [
        derOid cert.pubkeyAlgo [0x2A, 0x86, 0x48, 0xCE, 0x3D, 0x02, 0x01],
        derOid cert.ecCurveId [0x2A, 0x86, 0x48, 0xCE, 0x3D, 0x03, 0x01, 0x07]]),
      cert.derPubkey]),
    do
      let extensions ← cert.derList 10 .noExtensions Extension.fromTlv
      compound 0xA3 (compound 0x30 (items Extension.der extensions))])

end CertRef

/-! ## The encoder does what the walk says -/

section Sim

variable (cal : Calendar)

/-- What an encoder does on the open values is what a walk says. -/
def Agrees (s : Nest) (x : Except (Stop ErrorCode) (Nest × Unit)) : Walk (List UInt8) → Prop
  | .ok bytes => x = .ok (s.append bytes, ())
  | .error none => ∃ e, x = .error (.error e)
  | .error (some _) => x = .error .panic

/-- An encoder does what a walk says, where no more than `b` values are open. -/
def Sim (b : ℕ) (m : Encode) (d : Walk (List UInt8)) : Prop :=
  ∀ s : Nest, s.depth ≤ b → Agrees s (m.run (CertConsumer.put cal) s) d

variable {cal} {b : ℕ} {m k : Encode} {d e : Walk (List UInt8)}

theorem sim_nil : Sim cal b (pure ()) (.ok []) := by
  intro s _
  change Except.ok (s, ()) = .ok (s.append [], ())
  rw [Nest.append_nil]

theorem Sim.cat (hm : Sim cal b m d) (hk : Sim cal b k e) :
    Sim cal b (m >>= fun _ => k) (cat d e) := by
  intro s hs
  have hd := hm s hs
  rw [run_bind]
  rcases d with (_ | defect) | bytes
  · obtain ⟨code, hcode⟩ := hd
    rw [hcode]
    exact ⟨code, rfl⟩
  · rw [show m.run (CertConsumer.put cal) s = .error .panic from hd]
    rfl
  · rw [show m.run (CertConsumer.put cal) s = _ from hd, ok_bind]
    have he := hk (s.append bytes) (by rwa [Nest.depth_append])
    rcases e with (_ | defect) | more
    · exact he
    · exact he
    · simp only at he ⊢
      rw [show k.run (CertConsumer.put cal) (s.append bytes) = _ from he, Nest.append_append]
      rfl

theorem sim_read {α : Type} {x : Except (Stop ErrorCode) α} (hx : NoPanic x) {k : α → Encode}
    {d : α → Walk (List UInt8)} (hk : ∀ a, x = .ok a → Sim cal b (k a) (d a)) :
    Sim cal b (ofExcept x >>= k) (read x >>= d) := by
  rcases x with (code | _) | a
  · exact fun s _ => ⟨code, rfl⟩
  · exact absurd rfl hx
  · exact hk a rfl

theorem sim_panic {α : Type} {k : α → Encode} (defect : Defect) :
    Sim cal b (ofExcept (.error .panic) >>= k) (.error (some defect)) := fun _ _ => rfl

theorem sim_error (code : ErrorCode) :
    Sim cal b (ofExcept (.error (.error code))) (.error none) := fun _ _ => ⟨code, rfl⟩

theorem run_emit {c : CertConsumer} {p : Piece} (hc : c.piece cal = .ok p) (s : Nest) :
    (emit c : Encode).run (CertConsumer.put cal) s = (p.put s).map fun s => (s, ()) := by
  change c.put cal s >>= _ = _
  rw [CertConsumer.put, hc, ok_bind]
  cases p.put s <;> rfl

theorem sim_prim {c : CertConsumer} {tag : UInt8} {contents : List UInt8}
    (hc : c.piece cal = .ok (.value tag contents)) : Sim cal b (emit c) (prim tag contents) := by
  intro s _
  rw [run_emit hc, Piece.put, Nest.value, prim]
  split
  · rfl
  · exact ⟨_, rfl⟩

theorem sim_computed {c : CertConsumer} {α : Type} {x : Except (Stop ErrorCode) α}
    {tag : α → UInt8} {contents : α → List UInt8}
    (hc : c.piece cal = x >>= fun a => .ok (.value (tag a) (contents a))) (hx : NoPanic x) :
    Sim cal b (emit c) (read x >>= fun a => prim (tag a) (contents a)) := by
  rcases x with (code | _) | a
  · intro s _
    refine ⟨code, ?_⟩
    change c.put cal s >>= _ = _
    rw [CertConsumer.put, hc]
    rfl
  · exact absurd rfl hx
  · exact sim_prim hc

theorem sim_emit_panic {c : CertConsumer} (hc : c.piece cal = .error .panic) (defect : Defect) :
    Sim cal b (emit c) (.error (some defect)) := by
  intro s _
  change c.put cal s >>= _ = _
  rw [CertConsumer.put, hc]
  rfl

theorem sim_raw (data : List UInt8) : Sim cal b (emit (.raw data)) (.ok data) := by
  intro s _
  rw [run_emit (p := .raw data) rfl]
  rfl

theorem Sim.compound (start stop : CertConsumer) {tag : UInt8}
    (hstart : start.piece cal = .ok (.start tag)) (hstop : stop.piece cal = .ok .stop)
    (hb : b + 1 < ASN1Writer.maxDepth) (hm : Sim cal (b + 1) m d) :
    Sim cal b (emit start >>= fun _ => m >>= fun _ => emit stop) (compound tag d) := by
  intro s hs
  have hd := hm (.inner s tag []) (by simpa [Nest.depth] using hs)
  rw [run_bind, run_emit hstart, Piece.put, Nest.start, if_neg (by omega)]
  change Agrees s ((m >>= fun _ => emit stop).run (CertConsumer.put cal) (.inner s tag [])) _
  rw [run_bind]
  rcases d with (_ | defect) | bytes
  · obtain ⟨code, hcode⟩ := hd
    rw [hcode]
    exact ⟨code, rfl⟩
  · rw [show m.run (CertConsumer.put cal) (.inner s tag []) = .error .panic from hd]
    rfl
  · rw [show m.run (CertConsumer.put cal) (.inner s tag []) = _ from hd, ok_bind]
    simp only
    rw [run_emit hstop]
    change Agrees s ((Nest.stop (.inner s tag bytes)).map fun s => (s, ())) (prim tag bytes)
    rw [Nest.stop, prim]
    split
    · rfl
    · exact ⟨_, rfl⟩

theorem sim_items {T : Type} {body : T → Encode} {d : T → Walk (List UInt8)}
    (h : ∀ a, Sim cal b (body a) (d a)) (l : List (Except ErrorCode T)) :
    Sim cal b (forItems body l) (items d l) := by
  induction l with
  | nil => exact sim_nil
  | cons item l ih =>
    cases item with
    | error code => exact sim_error code
    | ok a => exact (h a).cat ih

end Sim

end RsMatter
