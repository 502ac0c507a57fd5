import Mathlib.Algebra.Field.ZMod
import Mathlib.Algebra.Module.Basic
import Mathlib.Tactic.Module
import RsMatter.Bytes
import RsMatter.Pase
import RsMatter.Prog

/-!
# SPAKE2+ (`sc/pase/spake2p.rs`)

Prover and verifier know the same passcode, or the verifier knows what is derived from it. Each
sends a point that hides a random scalar, both compute the points Z and V from what they have
received, by different formulas, and both hash a transcript of all they know. The first half of
the hash confirms to each side that the other one has the same transcript, the second half is the
key. If both accept they agree on everything that was hashed.

The curve is any vector space over any field, and the backend is a parameter: how points and
scalars are written and read, the hash, the HMAC and the key derivations.
-/

namespace RsMatter

open Prog (except_bind_eq_ok)

/-! ## Bytes of a fixed length -/

/-- Bytes of a fixed length (`CryptoSensitive`). -/
abbrev Canon (n : ℕ) := { bytes : List UInt8 // bytes.length = n }

namespace Canon

variable {m n : ℕ}

/-- `try_new`. -/
def tryNew (n : ℕ) (material : List UInt8) : Except ErrorCode (Canon n) :=
  if h : material.length = n then .ok ⟨material, h⟩ else .error .invalidData

theorem tryNew_val (c : Canon n) : tryNew n c.1 = .ok c := dif_pos c.2

/-- The first bytes and the others. -/
def split (c : Canon (m + n)) : Canon m × Canon n :=
  (⟨c.1.take m, by rw [List.length_take, c.2, Nat.min_eq_left (Nat.le_add_right m n)]⟩,
    ⟨c.1.drop m, by rw [List.length_drop, c.2, Nat.add_sub_cancel_left]⟩)

theorem split_of_append {c : Canon (m + n)} {a : Canon m} {b : Canon n} (h : c.1 = a.1 ++ b.1) :
    c.split = (a, b) := by
  apply Prod.ext
  · apply Subtype.ext
    show c.1.take m = a.1
    rw [h, List.take_left' a.2]
  · apply Subtype.ext
    show c.1.drop m = b.1
    rw [h, List.drop_left' a.2]

end Canon

def ecCanonScalarLen : ℕ := 32

def uint320CanonLen : ℕ := 40

/-- A hash, which is taken apart in the middle. -/
abbrev HashBytes := Canon (16 + 16)

abbrev EcScalarBytes := Canon ecCanonScalarLen

abbrev EcPointBytes := Canon ecPointLen

/-- What SPAKE2+ needs of a backend, with points `G` and scalars `F`. -/
structure PakeCrypto (F G : Type) where
  ecScalar : EcScalarBytes → Except ErrorCode F
  ecScalarModP : Canon uint320CanonLen → Except ErrorCode F
  ecPoint : EcPointBytes → Except ErrorCode G
  ecGeneratorPoint : G
  writeScalar : F → EcScalarBytes
  /-- fails for a point that has no encoding of this length -/
  writePoint : G → Except ErrorCode EcPointBytes
  hash : List UInt8 → HashBytes
  hmac : Canon 16 → List UInt8 → Canon hmacHashLen
  /-- from the salt, the key and the info -/
  expand : (n : ℕ) → List UInt8 → List UInt8 → List UInt8 → Canon n
  /-- from the password, the iterations and the salt -/
  derive : (n : ℕ) → List UInt8 → ℕ → List UInt8 → Canon n

/-- Reading gives back what was written. -/
structure PakeCrypto.Lawful {F G : Type} (c : PakeCrypto F G) : Prop where
  scalar (s : F) : c.ecScalar (c.writeScalar s) = .ok s
  point (p : G) (bytes : EcPointBytes) (h : c.writePoint p = .ok bytes) : c.ecPoint bytes = .ok p

/-! ## The transcript -/

/-- The point M. -/
def matterMBin : EcPointBytes :=
  ⟨toBE 33 0x04886e2f97ace46e55ba9dd7242579f2993b64e16ef3dcab95afd497333d8fa12f ++
    toBE 32 0x5ff355163e43ce224e0b0e65ff02ac8e5c7be09419c785e0ca547d55a12e2d20, by simp; rfl⟩

/-- The point N. -/
def matterNBin : EcPointBytes :=
  ⟨toBE 33 0x04d8bbd6c639c62937b04d997f38c3770719c629d7014d49a24b4f98baa1292b49 ++
    toBE 32 0x07d60aa6bfade45008a636337f5168c64d9bd36034808cd564490b1e656edbe7, by simp; rfl⟩

/-- An item of the transcript, after its length. -/
def addToTt (data : List UInt8) : List UInt8 := toLE 8 data.length ++ data

/-- Items of these lengths cannot run into each other. -/
theorem addToTt_append_inj {data data' rest rest' : List UInt8} (hlen : data.length < 256 ^ 8)
    (hlen' : data'.length < 256 ^ 8) (h : addToTt data ++ rest = addToTt data' ++ rest') :
    data = data' ∧ rest = rest' := by
  rw [addToTt, addToTt, List.append_assoc, List.append_assoc] at h
  obtain ⟨hlength, h⟩ := List.append_inj h (by rw [length_toLE, length_toLE])
  exact List.append_inj h (toLE_injective hlen hlen' hlength)

theorem flatMap_addToTt_inj {items items' : List (List UInt8)} (hlen : items.length = items'.length)
    (hitems : ∀ data ∈ items, data.length < 256 ^ 8) (hitems' : ∀ data ∈ items', data.length < 256 ^ 8)
    (h : items.flatMap addToTt = items'.flatMap addToTt) : items = items' := by
  induction items generalizing items' with
  | nil => exact (List.length_eq_zero_iff.mp hlen.symm).symm
  | cons data items ih =>
    cases items' with
    | nil => cases hlen
    | cons data' items' =>
      rw [List.flatMap_cons, List.flatMap_cons] at h
      obtain ⟨hdata, hrest⟩ :=
        addToTt_append_inj (hitems data List.mem_cons_self) (hitems' data' List.mem_cons_self) h
      rw [hdata, ih (Nat.succ.inj hlen) (fun d hd => hitems d (List.mem_cons_of_mem _ hd))
        (fun d hd => hitems' d (List.mem_cons_of_mem _ hd)) hrest]

/-- What a side knows at the end: the hash of the messages before, the points that were sent, and
what follows from them. -/
structure Transcript where
  context : HashBytes
  aPt : EcPointBytes
  bPt : EcPointBytes
  zPt : EcPointBytes
  vPt : EcPointBytes
  w0 : EcScalarBytes
  deriving DecidableEq

namespace Transcript

/-- The ten items. The identities of both sides are empty. -/
def items (t : Transcript) : List (List UInt8) :=
  [t.context.1, [], [], matterMBin.1, matterNBin.1, t.aPt.1, t.bPt.1, t.zPt.1, t.vPt.1, t.w0.1]

def bytes (t : Transcript) : List UInt8 := t.items.flatMap addToTt

theorem length_of_mem_items (t : Transcript) : ∀ data ∈ t.items, data.length < 256 ^ 8 := by
  simp [items, t.context.2, t.aPt.2, t.bPt.2, t.zPt.2, t.vPt.2, t.w0.2, matterMBin.2, matterNBin.2,
    ecPointLen, ecCanonScalarLen]

/-- The bytes tell the transcript. -/
theorem bytes_injective : Function.Injective bytes := by
  intro t t' h
  have hlen : t.items.length = t'.items.length := rfl
  have hitems := flatMap_addToTt_inj hlen t.length_of_mem_items t'.length_of_mem_items h
  simp only [items, List.cons.injEq, true_and, and_true, Subtype.val_inj] at hitems
  obtain ⟨hcontext, ha, hb, hz, hv, hw0⟩ := hitems
  cases t
  cases t'
  simp_all

end Transcript

/-! ## The computations -/

/-- The prover's secrets, as they wait for Pake2. -/
structure ProverContext where
  w0 : EcScalarBytes
  w1 : EcScalarBytes
  xy : EcScalarBytes
  deriving DecidableEq

structure Spake2P where
  localSessid : BitVec 16
  peerSessid : BitVec 16
  contextHash : HashBytes
  ke : Canon 16
  ca : Canon hmacHashLen
  cb : Canon hmacHashLen
  deriving DecidableEq

namespace Spake2P

def new : Spake2P where
  localSessid := 0
  peerSessid := 0
  contextHash := ⟨List.replicate (16 + 16) 0, List.length_replicate⟩
  ke := ⟨List.replicate 16 0, List.length_replicate⟩
  ca := ⟨List.replicate hmacHashLen 0, List.length_replicate⟩
  cb := ⟨List.replicate hmacHashLen 0, List.length_replicate⟩

def contextPrefix : List UInt8 := "CHIP PAKE V1 Commissioning".toUTF8.toList

def keyConfirmInfo : List UInt8 := "ConfirmationKeys".toUTF8.toList

def sessionKeysInfo : List UInt8 := "SessionKeys".toUTF8.toList

section Computations

variable {F G : Type} [Field F] [AddCommGroup G] [Module F G] (c : PakeCrypto F G)

/-- `start_context`; the hash is given as what it has been fed. -/
def startContext (s : Spake2P) (localSessid peerSessid : BitVec 16) (request : List UInt8) :
    Spake2P × List UInt8 :=
  ({ s with localSessid, peerSessid }, contextPrefix ++ request)

def finishContext (s : Spake2P) (context response : List UInt8) : Spake2P :=
  { s with contextHash := c.hash (context ++ response) }

/-- `w0` and `w1`. -/
def computeW0W1 (password : List UInt8) (iterations : ℕ) (salt : List UInt8) :
    Except ErrorCode (F × F) := do
  let (w0s, w1s) := (c.derive (uint320CanonLen + uint320CanonLen) password iterations salt).split
  let w0 ← c.ecScalarModP w0s
  let w1 ← c.ecScalarModP w1s
  return (w0, w1)

/-- `compute_zv_verifier`. -/
def computeZvVerifier (w0 : F) (lPt mPt xPt : G) (y : F) : G × G :=
  (y • xPt + (y * w0) • (-mPt), y • lPt)

/-- `compute_zv_prover`. -/
def computeZvProver (w0 w1 : F) (nPt yPt : G) (x : F) : G × G :=
  (x • yPt + (x * w0) • (-nPt), w1 • yPt + (w1 * w0) • (-nPt))

/-- The transcript with its two points written. -/
def transcript (context : HashBytes) (aPt bPt : EcPointBytes) (w0 : F) (zv : G × G) :
    Except ErrorCode Transcript := do
  let zPt ← c.writePoint zv.1
  let vPt ← c.writePoint zv.2
  return { context, aPt, bPt, zPt, vPt, w0 := c.writeScalar w0 }

/-- The key that confirms. -/
def ka (t : Transcript) : Canon 16 := (c.hash t.bytes).split.1

def confirmationKeys (t : Transcript) : Canon (16 + 16) :=
  c.expand (16 + 16) [] (ka c t).1 keyConfirmInfo

/-- `compute_ke_ca_cb`, of the hash of a transcript. -/
def computeKeCaCb (t : Transcript) (bPt : G) :
    Except ErrorCode (Canon 16 × Canon hmacHashLen × Canon hmacHashLen) := do
  let (kca, kcb) := (confirmationKeys c t).split
  let ptOut ← c.writePoint bPt
  return ((c.hash t.bytes).split.2, c.hmac kca ptOut.1, c.hmac kcb t.aPt.1)

/-- `w0` and `L` of a verifier. -/
def verifierSecrets (verifier : Spake2pVerifierData) : Except ErrorCode (F × G) :=
  match verifier.password with
  | some password => do
    let (w0, w1) ← computeW0W1 c password verifier.count.toNat verifier.salt
    return (w0, w1 • c.ecGeneratorPoint)
  | none => do
    let (w0, lPt) := (← Canon.tryNew (ecCanonScalarLen + ecPointLen) verifier.verifier).split
    return (← c.ecScalar w0, ← c.ecPoint lPt)

/-- The transcript of the verifier, with the point that it sends. -/
def verifierTranscript (s : Spake2P) (verifier : Spake2pVerifierData) (xy : F) (aPt : EcPointBytes) :
    Except ErrorCode (Transcript × G) := do
  let (w0, lPt) ← verifierSecrets c verifier
  let nPt ← c.ecPoint matterNBin
  let bPt := xy • c.ecGeneratorPoint + w0 • nPt
  let bPtOut ← c.writePoint bPt
  let mPt ← c.ecPoint matterMBin
  let xPt ← c.ecPoint aPt
  let t ← transcript c s.contextHash aPt bPtOut w0 (computeZvVerifier w0 lPt mPt xPt xy)
  return (t, bPt)

/-- `setup_verifier`, with the random scalar `xy`: pB and cB. -/
def setupVerifier (s : Spake2P) (verifier : Spake2pVerifierData) (xy : F) (aPt : EcPointBytes) :
    Except ErrorCode (Spake2P × EcPointBytes × Canon hmacHashLen) := do
  let (t, bPt) ← verifierTranscript c s verifier xy aPt
  let (ke, ca, cb) ← computeKeCaCb c t bPt
  return ({ s with ke, ca, cb }, t.bPt, cb)

/-- `verify`. -/
def verify (s : Spake2P) (ca : Canon hmacHashLen) :
    Except SCStatusCodes (BitVec 16 × BitVec 16 × Canon 16) :=
  if ca = s.ca then .ok (s.localSessid, s.peerSessid, s.ke) else .error .invalidParameter

/-- `setup_prover`, with the random scalar `xy`: pA and the secrets. -/
def setupProver (password salt : List UInt8) (iterations : ℕ) (xy : F) :
    Except ErrorCode (EcPointBytes × ProverContext) := do
  let (w0, w1) ← computeW0W1 c password iterations salt
  let mPt ← c.ecPoint matterMBin
  let aPtOut ← c.writePoint (xy • c.ecGeneratorPoint + w0 • mPt)
  return (aPtOut, ⟨c.writeScalar w0, c.writeScalar w1, c.writeScalar xy⟩)

/-- The transcript of the prover, with the point that it has received. -/
def proverTranscript (s : Spake2P) (ctx : ProverContext) (aPt bPt : EcPointBytes) :
    Except ErrorCode (Transcript × G) := do
  let w0 ← c.ecScalar ctx.w0
  let w1 ← c.ecScalar ctx.w1
  let xy ← c.ecScalar ctx.xy
  let nPt ← c.ecPoint matterNBin
  let yPt ← c.ecPoint bPt
  let t ← transcript c s.contextHash aPt bPt w0 (computeZvProver w0 w1 nPt yPt xy)
  return (t, yPt)

/-- `complete_prover`: cA, if cB is right. All errors become one. -/
def completeProver (s : Spake2P) (ctx : ProverContext) (aPt bPt : EcPointBytes)
    (cb : Canon hmacHashLen) : Except SCStatusCodes (Spake2P × Canon hmacHashLen) :=
  match (do let (t, yPt) ← proverTranscript c s ctx aPt bPt; computeKeCaCb c t yPt) with
  | .error _ => .error .invalidParameter
  | .ok (ke, ca', cb') =>
    if cb = cb' then .ok ({ s with ke, ca := ca', cb := cb' }, ca') else .error .invalidParameter

/-- The keys of a session. -/
structure PaseKeys where
  decKey : Canon 16
  encKey : Canon 16
  attChallenge : Canon 16

/-- As the other side has them. -/
def PaseKeys.mirrored (k : PaseKeys) : PaseKeys := { k with decKey := k.encKey, encKey := k.decKey }

def sessionKeys (ke : Canon 16) : Canon (16 + (16 + 16)) :=
  c.expand (16 + (16 + 16)) [] ke.1 sessionKeysInfo

/-- The keys of `handle_pasepake3`. -/
def responderKeys (ke : Canon 16) : PaseKeys :=
  let (decKey, remaining) := (sessionKeys c ke).split
  let (encKey, attChallenge) := remaining.split
  { decKey, encKey, attChallenge }

/-- The keys of `complete_session`. -/
def initiatorKeys (ke : Canon 16) : PaseKeys :=
  let (encKey, remaining) := (sessionKeys c ke).split
  let (decKey, attChallenge) := remaining.split
  { decKey, encKey, attChallenge }

/-! ## Both sides agree -/

/-- A side that has seen the request and the response. -/
def begun (localSessid peerSessid : BitVec 16) (request response : List UInt8) : Spake2P :=
  let (s, context) := new.startContext localSessid peerSessid request
  s.finishContext c context response

/-- A verifier for a password: the password itself, or what is derived from it. -/
def IsVerifier (password : List UInt8) (verifier : Spake2pVerifierData) : Prop :=
  verifier.password = some password ∨
    verifier.password = none ∧ ∃ w0 w1 lPt,
      computeW0W1 c password verifier.count.toNat verifier.salt = .ok (w0, w1) ∧
        c.writePoint (w1 • c.ecGeneratorPoint) = .ok lPt ∧
          verifier.verifier = (c.writeScalar w0).1 ++ lPt.1

end Computations

section Agreement

variable {F G : Type} {c : PakeCrypto F G}

theorem transcript_eq_ok {context : HashBytes} {aPt bPt : EcPointBytes} {w0 : F} {zv : G × G}
    {t : Transcript} : transcript c context aPt bPt w0 zv = .ok t ↔
      ∃ zPt vPt, c.writePoint zv.1 = .ok zPt ∧ c.writePoint zv.2 = .ok vPt ∧
        t = ⟨context, aPt, bPt, zPt, vPt, c.writeScalar w0⟩ := by
  simp only [transcript, except_bind_eq_ok, pure, Except.pure, Except.ok.injEq]
  constructor
  · rintro ⟨zPt, hz, vPt, hv, rfl⟩
    exact ⟨zPt, vPt, hz, hv, rfl⟩
  · rintro ⟨zPt, vPt, hz, hv, rfl⟩
    exact ⟨zPt, hz, vPt, hv, rfl⟩

theorem computeKeCaCb_eq_ok {t : Transcript} {bPt : G} {ke : Canon 16} {ca cb : Canon hmacHashLen} :
    computeKeCaCb c t bPt = .ok (ke, ca, cb) ↔ ∃ ptOut, c.writePoint bPt = .ok ptOut ∧
      ke = (c.hash t.bytes).split.2 ∧ ca = c.hmac (confirmationKeys c t).split.1 ptOut.1 ∧
        cb = c.hmac (confirmationKeys c t).split.2 t.aPt.1 := by
  simp only [computeKeCaCb, except_bind_eq_ok, pure, Except.pure, Except.ok.injEq, Prod.mk.injEq]
  constructor
  · rintro ⟨ptOut, hb, rfl, rfl, rfl⟩
    exact ⟨ptOut, hb, rfl, rfl, rfl⟩
  · rintro ⟨ptOut, hb, rfl, rfl, rfl⟩
    exact ⟨ptOut, hb, rfl, rfl, rfl⟩

/-- Both sides encrypt with what the other one decrypts with. -/
theorem mirrored_of_verify {v : Spake2P} {l r : BitVec 16} {ca : Canon hmacHashLen} {ke : Canon 16}
    (h : v.verify ca = .ok (l, r, ke)) : (initiatorKeys c ke).mirrored = responderKeys c v.ke := by
  rw [verify] at h
  split_ifs at h
  rw [(Prod.mk.inj (Prod.mk.inj (Except.ok.inj h)).2).2]
  rfl

variable [Field F] [AddCommGroup G] [Module F G]

theorem zvVerifier_eq (w0 : F) (lPt mPt pPt : G) (x y : F) :
    computeZvVerifier w0 lPt mPt (x • pPt + w0 • mPt) y = ((x * y) • pPt, y • lPt) := by
  apply Prod.ext
  · show y • (x • pPt + w0 • mPt) + (y * w0) • (-mPt) = (x * y) • pPt
    module
  · rfl

theorem zvProver_eq (w0 w1 : F) (nPt pPt : G) (x y : F) :
    computeZvProver w0 w1 nPt (y • pPt + w0 • nPt) x = ((x * y) • pPt, (w1 * y) • pPt) := by
  apply Prod.ext
  · show x • (y • pPt + w0 • nPt) + (x * w0) • (-nPt) = (x * y) • pPt
    module
  · show w1 • (y • pPt + w0 • nPt) + (w1 * w0) • (-nPt) = (w1 * y) • pPt
    module

theorem setupProver_eq_ok {password salt : List UInt8} {iterations : ℕ} {x : F} {aPt : EcPointBytes}
    {ctx : ProverContext} (h : setupProver c password salt iterations x = .ok (aPt, ctx)) :
    ∃ w0 w1 mPt, computeW0W1 c password iterations salt = .ok (w0, w1) ∧
      c.ecPoint matterMBin = .ok mPt ∧ c.writePoint (x • c.ecGeneratorPoint + w0 • mPt) = .ok aPt ∧
        ctx = ⟨c.writeScalar w0, c.writeScalar w1, c.writeScalar x⟩ := by
  simp only [setupProver, except_bind_eq_ok, pure, Except.pure, Except.ok.injEq, Prod.mk.injEq] at h
  obtain ⟨⟨w0, w1⟩, hw, mPt, hm, aPt', ha, rfl, rfl⟩ := h
  exact ⟨w0, w1, mPt, hw, hm, ha, rfl⟩

theorem verifierTranscript_eq_ok {s : Spake2P} {verifier : Spake2pVerifierData} {y : F}
    {aPt : EcPointBytes} {t : Transcript} {bPt : G} {w0 : F} {lPt : G}
    (hsecrets : verifierSecrets c verifier = .ok (w0, lPt))
    (h : verifierTranscript c s verifier y aPt = .ok (t, bPt)) :
    ∃ nPt mPt xPt, c.ecPoint matterNBin = .ok nPt ∧ c.ecPoint matterMBin = .ok mPt ∧
      c.ecPoint aPt = .ok xPt ∧ bPt = y • c.ecGeneratorPoint + w0 • nPt ∧
        c.writePoint bPt = .ok t.bPt ∧
          transcript c s.contextHash aPt t.bPt w0 (computeZvVerifier w0 lPt mPt xPt y) = .ok t := by
  rw [verifierTranscript, hsecrets] at h
  simp only [except_bind_eq_ok, pure, Except.pure, Except.ok.injEq, Prod.mk.injEq] at h
  obtain ⟨_, ⟨rfl, rfl⟩, nPt, hn, bytes, hb, mPt, hm, xPt, hx, t, ht, rfl, rfl⟩ := h
  obtain ⟨_, _, -, -, rfl⟩ := transcript_eq_ok.mp ht
  exact ⟨nPt, mPt, xPt, hn, hm, hx, rfl, hb, ht⟩

theorem proverTranscript_eq_ok (hc : c.Lawful) {s : Spake2P} {w0 w1 x : F} {aPt bPt : EcPointBytes}
    {t : Transcript} {yPt : G} :
    proverTranscript c s ⟨c.writeScalar w0, c.writeScalar w1, c.writeScalar x⟩ aPt bPt = .ok (t, yPt) ↔
      ∃ nPt, c.ecPoint matterNBin = .ok nPt ∧ c.ecPoint bPt = .ok yPt ∧
        transcript c s.contextHash aPt bPt w0 (computeZvProver w0 w1 nPt yPt x) = .ok t := by
  rw [proverTranscript, hc.scalar, hc.scalar, hc.scalar]
  simp only [ok_bind, except_bind_eq_ok, pure, Except.pure, Except.ok.injEq, Prod.mk.injEq]
  constructor
  · rintro ⟨nPt, hn, yPt, hy, t, ht, rfl, rfl⟩
    exact ⟨nPt, hn, hy, ht⟩
  · rintro ⟨nPt, hn, hy, ht⟩
    exact ⟨nPt, hn, yPt, hy, t, ht, rfl, rfl⟩

/-- A verifier has what the prover derives. -/
theorem secrets_of_isVerifier (hc : c.Lawful) {password : List UInt8} {verifier : Spake2pVerifierData}
    (h : IsVerifier c password verifier) {w0 w1 : F}
    (hw : computeW0W1 c password verifier.count.toNat verifier.salt = .ok (w0, w1)) :
    verifierSecrets c verifier = .ok (w0, w1 • c.ecGeneratorPoint) := by
  rcases h with h | ⟨h, w0', w1', lPt, hw', hl, hverifier⟩
  · rw [verifierSecrets, h]
    dsimp only
    rw [hw]
    rfl
  · obtain ⟨rfl, rfl⟩ := Prod.mk.inj (Except.ok.inj (hw.symm.trans hw'))
    have hlen : verifier.verifier.length = ecCanonScalarLen + ecPointLen := by
      rw [hverifier, List.length_append, (c.writeScalar w0).2, lPt.2]
    rw [verifierSecrets, h]
    dsimp only
    rw [Canon.tryNew, dif_pos hlen, ok_bind, Canon.split_of_append hverifier]
    dsimp only
    rw [hc.scalar, hc.point _ _ hl]
    rfl

/-- If nobody interferes, both sides hash the same. -/
theorem proverTranscript_of_verifierTranscript (hc : c.Lawful) {password : List UInt8}
    {verifier : Spake2pVerifierData} (hverifier : IsVerifier c password verifier) {s : Spake2P} (s' : Spake2P)
    (hcontext : s.contextHash = s'.contextHash) {x y : F} {aPt : EcPointBytes} {ctx : ProverContext}
    {t : Transcript} {b : G}
    (hprover : setupProver c password verifier.salt verifier.count.toNat x = .ok (aPt, ctx))
    (ht : verifierTranscript c s verifier y aPt = .ok (t, b)) :
    proverTranscript c s' ctx aPt t.bPt = .ok (t, b) := by
  obtain ⟨w0, w1, mPt, hw, hm, ha, rfl⟩ := setupProver_eq_ok hprover
  have hsecrets := secrets_of_isVerifier hc hverifier hw
  obtain ⟨nPt, mPt', xPt, hn, hm', hx, rfl, hb, hzv⟩ := verifierTranscript_eq_ok hsecrets ht
  obtain rfl := Except.ok.inj (hm.symm.trans hm')
  obtain rfl := Except.ok.inj (hx.symm.trans (hc.point _ _ ha))
  refine (proverTranscript_eq_ok hc).mpr ⟨nPt, hn, hc.point _ _ hb, ?_⟩
  rw [zvVerifier_eq, smul_smul, mul_comm y w1] at hzv
  rw [zvProver_eq, ← hcontext]
  exact hzv

/-- **Completeness**: what the two sides send each other confirms that they agree, and they hold the
same key. -/
theorem agree (l' r' : BitVec 16) (hc : c.Lawful) {password request response : List UInt8}
    {verifier : Spake2pVerifierData} (hverifier : IsVerifier c password verifier) {l r : BitVec 16} {x y : F} {aPt bPt : EcPointBytes}
    {ctx : ProverContext} {v : Spake2P} {cb : Canon hmacHashLen}
    (hprover : setupProver c password verifier.salt verifier.count.toNat x = .ok (aPt, ctx))
    (hsetup : setupVerifier c (begun c l r request response) verifier y aPt = .ok (v, bPt, cb)) :
    ∃ p ca, completeProver c (begun c l' r' request response) ctx aPt bPt cb = .ok (p, ca) ∧
      v.verify ca = .ok (l, r, p.ke) := by
  simp only [setupVerifier, except_bind_eq_ok, pure, Except.pure, Except.ok.injEq, Prod.mk.injEq] at hsetup
  obtain ⟨⟨t, b⟩, ht, ⟨ke, ca, cb'⟩, hkeys, rfl, rfl, rfl⟩ := hsetup
  have hprover := proverTranscript_of_verifierTranscript hc hverifier (begun c l' r' request response) rfl
    hprover ht
  refine ⟨{ begun c l' r' request response with ke, ca, cb := cb' }, ca, ?_, ?_⟩
  · rw [completeProver, hprover, ok_bind]
    dsimp only
    rw [hkeys]
    exact if_pos rfl
  · exact if_pos rfl

/-- If both sides hash the same, they have seen the same points, and the secrets of the verifier are
those of the prover. -/
theorem secrets_of_transcript (hc : c.Lawful) {s s' : Spake2P} {verifier : Spake2pVerifierData}
    {w0 w1 x y : F} (hy : y ≠ 0) {aPt aPt' bPt : EcPointBytes} {t : Transcript} {q b : G}
    (ht : proverTranscript c s ⟨c.writeScalar w0, c.writeScalar w1, c.writeScalar x⟩ aPt bPt = .ok (t, q))
    (ht' : verifierTranscript c s' verifier y aPt' = .ok (t, b)) :
    s.contextHash = s'.contextHash ∧ aPt = aPt' ∧ bPt = t.bPt ∧
      verifierSecrets c verifier = .ok (w0, w1 • c.ecGeneratorPoint) := by
  obtain ⟨nPt, hn, hq, hzv⟩ := (proverTranscript_eq_ok hc).mp ht
  obtain ⟨⟨w0', lPt⟩, hsecrets⟩ : ∃ secrets, verifierSecrets c verifier = .ok secrets := by
    obtain ⟨secrets, hsecrets, -⟩ := except_bind_eq_ok.mp ht'
    exact ⟨secrets, hsecrets⟩
  obtain ⟨nPt', mPt', xPt, hn', -, -, rfl, hb, hzv'⟩ := verifierTranscript_eq_ok hsecrets ht'
  obtain rfl := Except.ok.inj (hn.symm.trans hn')
  obtain ⟨zPt, vPt, -, hv, rfl⟩ := transcript_eq_ok.mp hzv
  obtain ⟨zPt', vPt', -, hv', heq⟩ := transcript_eq_ok.mp hzv'
  obtain ⟨hcontext, rfl, -, rfl, rfl, hw0⟩ := Transcript.mk.inj heq
  obtain rfl := Except.ok.inj ((hc.scalar w0).symm.trans ((congrArg c.ecScalar hw0).trans (hc.scalar w0')))
  obtain rfl := Except.ok.inj (hq.symm.trans (hc.point _ _ hb))
  rw [zvProver_eq] at hv
  have hl : lPt = w1 • c.ecGeneratorPoint := by
    have hpoint : (w1 * y) • c.ecGeneratorPoint = y • lPt :=
      Except.ok.inj ((hc.point _ _ hv).symm.trans (hc.point _ _ hv'))
    rw [mul_comm, mul_smul] at hpoint
    exact (smul_right_injective G hy hpoint).symm
  exact ⟨hcontext, rfl, rfl, hl ▸ hsecrets⟩

/-- The hash, the key derivation and the HMAC do not collide on what the two sides feed them with. -/
structure NoCollision (c : PakeCrypto F G) (m m' : List UInt8) (t t' : Transcript)
    (b b' : EcPointBytes) : Prop where
  context : c.hash (contextPrefix ++ m) = c.hash (contextPrefix ++ m') → m = m'
  transcript : ka c t = ka c t' → t.bytes = t'.bytes
  kdf : (confirmationKeys c t).split.1 = (confirmationKeys c t').split.1 → ka c t = ka c t'
  hmac : c.hmac (confirmationKeys c t).split.1 b.1 = c.hmac (confirmationKeys c t').split.1 b'.1 →
    (confirmationKeys c t).split.1 = (confirmationKeys c t').split.1

/-- So it is for what a prover and a verifier compute, if they get that far. -/
def CollisionFree (c : PakeCrypto F G) (m m' : List UInt8) (prover verifier : Except ErrorCode (Transcript × G)) :
    Prop :=
  ∀ t q t' q' b b', prover = .ok (t, q) → verifier = .ok (t', q') → c.writePoint q = .ok b →
    c.writePoint q' = .ok b' → NoCollision c m m' t t' b b'

/-- **Confirmation**: if the verifier accepts what a prover confirms with, then both have seen the same
messages and points, whoever changed them on the way, the secrets of the verifier are those of the
passcode of the prover, and they hold the same key. -/
theorem agree_of_confirmed (hc : c.Lawful) {password salt request response request' response' : List UInt8}
    {iterations : ℕ} {verifier : Spake2pVerifierData} {l r l' r' : BitVec 16} {x y : F} (hy : y ≠ 0)
    {aPt aPt' bPt bPt' : EcPointBytes} {ctx : ProverContext} {p v : Spake2P} {ca cb cb' : Canon hmacHashLen}
    {ids : BitVec 16 × BitVec 16 × Canon 16}
    (hprover : setupProver c password salt iterations x = .ok (aPt, ctx))
    (hcomplete : completeProver c (begun c l' r' request response) ctx aPt bPt cb = .ok (p, ca))
    (hsetup : setupVerifier c (begun c l r request' response') verifier y aPt' = .ok (v, bPt', cb'))
    (hverify : v.verify ca = .ok ids)
    (hno : CollisionFree c (request ++ response) (request' ++ response')
      (proverTranscript c (begun c l' r' request response) ctx aPt bPt)
      (verifierTranscript c (begun c l r request' response') verifier y aPt')) :
    request ++ response = request' ++ response' ∧ aPt = aPt' ∧ bPt = bPt' ∧
      (∃ w0 w1, computeW0W1 c password iterations salt = .ok (w0, w1) ∧
        verifierSecrets c verifier = .ok (w0, w1 • c.ecGeneratorPoint)) ∧ ids = (l, r, p.ke) := by
  obtain ⟨w0, w1, mPt, hw, hm, -, rfl⟩ := setupProver_eq_ok hprover
  simp only [setupVerifier, except_bind_eq_ok, pure, Except.pure, Except.ok.injEq, Prod.mk.injEq] at hsetup
  obtain ⟨⟨t', b⟩, ht', ⟨ke', ca', _⟩, hkeys', rfl, rfl, rfl⟩ := hsetup
  rw [completeProver] at hcomplete
  split at hcomplete
  · cases hcomplete
  rename_i ke ca₁ cb₁ hkeys
  split_ifs at hcomplete with hcb
  obtain ⟨rfl, rfl⟩ := Prod.mk.inj (Except.ok.inj hcomplete)
  rw [verify] at hverify
  split_ifs at hverify with hca
  obtain ⟨⟨t, q⟩, ht, hkeys⟩ := except_bind_eq_ok.mp hkeys
  obtain ⟨out, hout, rfl, hca₁, -⟩ := computeKeCaCb_eq_ok.mp hkeys
  obtain ⟨out', hout', rfl, hca', -⟩ := computeKeCaCb_eq_ok.mp hkeys'
  have hnone := hno t q t' b out out' ht ht' hout hout'
  -- the confirmations agree, so do the keys behind them, and so do the transcripts
  have hka := hnone.kdf (hnone.hmac (hca₁.symm.trans (Eq.trans hca hca')))
  obtain rfl := Transcript.bytes_injective (hnone.transcript hka)
  obtain ⟨hcontext, rfl, rfl, hsecrets⟩ := secrets_of_transcript hc hy ht ht'
  refine ⟨hnone.context ?_, rfl, rfl, ⟨w0, w1, hw, hsecrets⟩, (Except.ok.inj hverify).symm⟩
  simpa [begun, startContext, finishContext] using hcontext

end Agreement

/-! ### A small group -/

/-- The bytes, cut off or filled up. -/
def fit (n : ℕ) (bytes : List UInt8) : Canon n := ⟨(bytes ++ List.replicate n 0).take n, by simp⟩

/-- The integers modulo 3. -/
def smallGroup : PakeCrypto (ZMod 3) (ZMod 3) where
  ecScalar bytes := .ok (bytes.1.headD 0).toNat
  ecScalarModP bytes := .ok (bytes.1.headD 0).toNat
  ecPoint bytes := .ok (bytes.1.getD 2 0).toNat
  ecGeneratorPoint := 1
  writeScalar s := fit ecCanonScalarLen [UInt8.ofNat s.val]
  writePoint p := .ok (fit ecPointLen [4, 0, UInt8.ofNat p.val])
  hash := fit (16 + 16)
  hmac key message := fit hmacHashLen (key.1 ++ message)
  expand n _ key info := fit n (key ++ info)
  derive n password _ salt := fit n (password ++ salt ++ password ++ salt)

theorem smallGroup_lawful : smallGroup.Lawful where
  scalar := by decide
  point p bytes h := by
    cases h
    revert p
    decide

def smallVerifier : Spake2pVerifierData := ⟨some [2, 0, 0, 0], [], List.replicate 32 1, 1000#32⟩

/-- What a prover with the scalar 1 sends and keeps. -/
def smallPt : EcPointBytes := fit ecPointLen [4, 0, 2]

def smallCtx : ProverContext := ⟨fit ecCanonScalarLen [2], fit ecCanonScalarLen [1], fit ecCanonScalarLen [1]⟩

theorem setupProver_smallGroup : setupProver smallGroup [2, 0, 0, 0] smallVerifier.salt
    smallVerifier.count.toNat 1 = .ok (smallPt, smallCtx) := by
  decide +kernel


/-- The verifier answers with the scalar 2. -/
theorem setupVerifier_smallGroup (request response : List UInt8) :
    ∃ v bPt cb, setupVerifier smallGroup (begun smallGroup 1 7 request response) smallVerifier 2
      smallPt = .ok (v, bPt, cb) := ⟨_, _, _, rfl⟩

end Spake2P

end RsMatter
