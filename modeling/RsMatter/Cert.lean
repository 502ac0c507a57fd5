import RsMatter.Asn1
import RsMatter.TlvIter

/-!
# Certificates (`cert.rs`)

A certificate is kept as the TLV it came in; its fields are looked up when they are asked
for. The signature of a certificate is over its DER, which is made by walking it
(`encode`), while decisions are taken from the TLV (`getNodeId` and the like). The lists
are opened by their iterators, which unwrap: `TLVList::new` accepts a list that is not
there. The names that the encoder gives its parts are for printing only.
-/

namespace RsMatter

open Stop Panicking Emit

/-- Something that is encoded as calls of a consumer. -/
abbrev Encode := Emit CertConsumer (Stop ErrorCode) Unit

/-- Go through what an iterator yields; an error ends it. -/
def forItems {T : Type} (body : T → Encode) : List (Except ErrorCode T) → Encode
  | [] => pure ()
  | .ok a :: items => do
    body a
    forItems body items
  | .error code :: _ => ofExcept (.error (.error code))

/-- All that the iterator over a list yields up to its end or its first structural error,
which it would repeat. -/
def iterAll {T : Type} (fromTlv : List UInt8 → Except (Stop ErrorCode) T) (list : List UInt8) :
    Except (Stop ErrorCode) (List (Except ErrorCode T)) :=
  iter fromTlv (list.length + 1) list

/-- `do_try_find`: the first item a predicate holds of; an error of either ends it. -/
def doTryFind {T : Type} (predicate : T → Except (Stop ErrorCode) Bool) :
    List (Except ErrorCode T) → Except (Stop ErrorCode) (Option T)
  | [] => return none
  | .error code :: _ => .error (.error code)
  | .ok val :: items => do
    let found ← predicate val
    if found then return some val else doTryFind predicate items

/-! ## Extensions -/

structure BasicConstraints where
  isCa : Bool
  /-- how many more authorities may follow -/
  path : Option (BitVec 8)
  deriving DecidableEq

namespace BasicConstraints

def fromTlv (elem : List UInt8) : Except (Stop ErrorCode) BasicConstraints := do
  let seq ← Panicking.structure elem
  let (isCa, seq) ← field 1 bool seq
  let (path, _) ← field 2 (optional u8) seq
  return ⟨isCa, path⟩

def encodeCa : Bool → Encode
  | .true => emit (.bool .true)
  | .false => pure ()

def encodePath : Option (BitVec 8) → Encode
  | some len => emit (.integer [UInt8.ofBitVec len])
  | none => pure ()

def encode (c : BasicConstraints) : Encode := do
  emit .startSeq
  encodeCa c.isCa
  encodePath c.path
  emit .endSeq

end BasicConstraints

inductive Extension where
  | basicConstraints (t : BasicConstraints)
  | keyUsage (t : BitVec 16)
  | extKeyUsage (t : List UInt8)
  | subjectKeyId (t : List UInt8)
  | authorityKeyId (t : List UInt8)
  | futureExtensions (t : List UInt8)
  deriving DecidableEq

namespace Extension

def ofTag (elem : List UInt8) : ℕ → Except (Stop ErrorCode) Extension
  | 1 => do
    let t ← BasicConstraints.fromTlv elem
    return basicConstraints t
  | 2 => do
    let t ← u16 elem
    return keyUsage t
  | 3 => return extKeyUsage elem
  | 4 => do
    let t ← str elem
    return subjectKeyId t
  | 5 => do
    let t ← str elem
    return authorityKeyId t
  | 6 => do
    let t ← str elem
    return futureExtensions t
  | _ => .error (.error .invalid)

def fromTlv (elem : List UInt8) : Except (Stop ErrorCode) Extension := do
  let ctx ← lift (TLVElement.tryCtx elem)
  match ctx with
  | some tag => ofTag elem tag.toNat
  | none => .error (.error .tlvTypeMismatch)

def lookup : List UInt8 :=
  [0x00, 0x08, 0x04, 0x0c, 0x02, 0x0a, 0x06, 0x0e, 0x01, 0x09, 0x05, 0x0d, 0x03, 0x0b, 0x07, 0x0f]

def reverseByte (byte : UInt8) : Except (Stop ErrorCode) UInt8 := do
  let low ← index lookup (byte &&& 0x0f).toNat
  let high ← index lookup (byte >>> 4).toNat
  return (low <<< 4) ||| high

def intToBitstring (a : BitVec 16) : Except (Stop ErrorCode) (List UInt8) := do
  let first ← reverseByte (UInt8.ofBitVec (a.setWidth 8))
  let second ← reverseByte (UInt8.ofBitVec ((a >>> 8).setWidth 8))
  return [first, second]

def keyUsageNames : List String :=
  ["digitalSignature ", "nonRepudiation ", "keyEncipherment ", "dataEncipherment ",
    "keyAgreement ", "keyCertSign ", "CRLSign ", "encipherOnly ", "decipherOnly "]

/-- The names of the flags that are set, for printing. -/
def getPrintStr (keyUsage : BitVec 16) : Except (Stop ErrorCode) (List UInt8) :=
  writeUnwrap 256 ((keyUsageNames.zipIdx.filter fun p => keyUsage.getLsbD p.2).flatMap
    fun p => p.1.toUTF8.toList)

def encodeKeyUsage (keyUsage : BitVec 16) : Encode := do
  let bits ← ofExcept (intToBitstring keyUsage)
  let _ ← ofExcept (getPrintStr keyUsage)
  emit (.bitstr true bits)

/-- The object ids of the extended key usages; the first one is not used. -/
def extKeyUsageEncoding : List (List UInt8) :=
  [[0, 0, 0, 0, 0, 0, 0, 0],
    [0x2B, 0x06, 0x01, 0x05, 0x05, 0x07, 0x03, 0x01],
    [0x2B, 0x06, 0x01, 0x05, 0x05, 0x07, 0x03, 0x02],
    [0x2B, 0x06, 0x01, 0x05, 0x05, 0x07, 0x03, 0x03],
    [0x2B, 0x06, 0x01, 0x05, 0x05, 0x07, 0x03, 0x04],
    [0x2B, 0x06, 0x01, 0x05, 0x05, 0x07, 0x03, 0x08],
    [0x2B, 0x06, 0x01, 0x05, 0x05, 0x07, 0x03, 0x09]]

/-- Encode an extended key usage; one that is not in the table is skipped. -/
def encodeUsage (t : BitVec 8) : Encode :=
  if 0 < t.toNat ∧ t.toNat ≤ extKeyUsageEncoding.length then do
    let oid ← ofExcept (index extKeyUsageEncoding t.toNat)
    emit (.oid oid)
  else pure ()

def encodeExtendedKeyUsage (list : List (Except ErrorCode (BitVec 8))) : Encode := do
  emit .startSeq
  forItems encodeUsage list
  emit .endSeq

def encodeCritical : Bool → Encode
  | .true => emit (.bool .true)
  | .false => pure ()

def encodeExtensionStart (critical : Bool) (oid : List UInt8) : Encode := do
  emit .startSeq
  emit (.oid oid)
  encodeCritical critical
  emit .startCompoundOstr

def encodeExtensionEnd : Encode := do
  emit .endCompoundOstr
  emit .endSeq

/-- Encode an extension; what is for the future is DER already. -/
def encode : Extension → Encode
  | basicConstraints t => do
    encodeExtensionStart .true [0x55, 0x1D, 0x13]
    t.encode
    encodeExtensionEnd
  | keyUsage t => do
    encodeExtensionStart .true [0x55, 0x1D, 0x0F]
    encodeKeyUsage t
    encodeExtensionEnd
  | extKeyUsage t => do
    encodeExtensionStart .true [0x55, 0x1D, 0x25]
    let list ← ofExcept (iterAll u8 t)
    encodeExtendedKeyUsage list
    encodeExtensionEnd
  | subjectKeyId t => do
    encodeExtensionStart .false [0x55, 0x1D, 0x0E]
    emit (.ostr t)
    encodeExtensionEnd
  | authorityKeyId t => do
    encodeExtensionStart .false [0x55, 0x1D, 0x23]
    emit .startSeq
    emit (.ctx 0 t)
    emit .endSeq
    encodeExtensionEnd
  | futureExtensions t => emit (.raw t)

def encodeAll (iter : List (Except ErrorCode Extension)) : Encode := do
  emit (.startCtx 3)
  emit .startSeq
  forItems encode iter
  emit .endSeq
  emit .endCtx

end Extension

/-! ## Distinguished names -/

inductive DNTag where
  | commonName
  | surname
  | serialNum
  | countryName
  | localityName
  | stateName
  | orgName
  | orgUnitName
  | title
  | name
  | givenName
  | intials
  | genQalifier
  | dnQualifier
  | pseudonym
  | domainComponent
  | nodeId
  | firmwareSignId
  | icaId
  | rootCaId
  | fabricId
  | nocCat
  deriving DecidableEq

namespace DNTag

/-- The attributes in the order of their numbers, which start at one. -/
def all : List DNTag :=
  [commonName, surname, serialNum, countryName, localityName, stateName, orgName, orgUnitName,
    title, name, givenName, intials, genQalifier, dnQualifier, pseudonym, domainComponent, nodeId,
    firmwareSignId, icaId, rootCaId, fabricId, nocCat]

def fromU8 (n : BitVec 8) : Option DNTag :=
  if n = 0 then none else all[n.toNat - 1]?

def toIdx (tag : DNTag) : ℕ := all.idxOf tag

end DNTag

inductive DNValue where
  | uint (v : BitVec 64)
  | utf8 (v : List UInt8)
  | printableStr (v : List UInt8)
  deriving DecidableEq

/-- The digits of an integer in the text that encodes it. -/
inductive IntToStringLen where
  | len16
  | len8
  deriving DecidableEq

/-- An attribute of a distinguished name, as the element it came in. -/
abbrev DN := List UInt8

namespace DN

def ctx (dn : DN) : Except (Stop ErrorCode) (BitVec 8) := do
  let ctx ← lift (TLVElement.tryCtx dn)
  match ctx with
  | some ctx => return ctx
  | none => .error (.error .invalid)

def tag (dn : DN) : Except (Stop ErrorCode) DNTag := do
  let ctx ← DN.ctx dn
  match DNTag.fromU8 (ctx &&& 0x7f) with
  | some tag => return tag
  | none => .error (.error .invalid)

def isPrintable (dn : DN) : Except (Stop ErrorCode) Bool := do
  let ctx ← DN.ctx dn
  return decide (0x80 ≤ ctx.toNat)

def uint (dn : DN) : Except (Stop ErrorCode) (BitVec 64) := u64 dn

def value (dn : DN) : Except (Stop ErrorCode) DNValue := do
  let text ← attempt (utf8 dn)
  match text with
  | .ok value => do
    let printable ← DN.isPrintable dn
    return if printable then .printableStr value else .utf8 value
  | .error _ => do
    let v ← u64 dn
    return .uint v

/-- The object ids of the attributes, with the width of those that are integers. -/
def encoding : List (List UInt8 × Option IntToStringLen) :=
  [([0x55, 0x04, 0x03], none), ([0x55, 0x04, 0x04], none), ([0x55, 0x04, 0x05], none),
    ([0x55, 0x04, 0x06], none), ([0x55, 0x04, 0x07], none), ([0x55, 0x04, 0x08], none),
    ([0x55, 0x04, 0x0A], none), ([0x55, 0x04, 0x0B], none), ([0x55, 0x04, 0x0C], none),
    ([0x55, 0x04, 0x29], none), ([0x55, 0x04, 0x2A], none), ([0x55, 0x04, 0x2B], none),
    ([0x55, 0x04, 0x2C], none), ([0x55, 0x04, 0x2E], none), ([0x55, 0x04, 0x41], none),
    ([0x09, 0x92, 0x26, 0x89, 0x93, 0xF2, 0x2C, 0x64, 0x01, 0x19], none),
    ([0x2B, 0x06, 0x01, 0x04, 0x01, 0x82, 0xA2, 0x7C, 0x01, 0x01], some .len16),
    ([0x2B, 0x06, 0x01, 0x04, 0x01, 0x82, 0xA2, 0x7C, 0x01, 0x02], some .len16),
    ([0x2B, 0x06, 0x01, 0x04, 0x01, 0x82, 0xA2, 0x7C, 0x01, 0x03], some .len16),
    ([0x2B, 0x06, 0x01, 0x04, 0x01, 0x82, 0xA2, 0x7C, 0x01, 0x04], some .len16),
    ([0x2B, 0x06, 0x01, 0x04, 0x01, 0x82, 0xA2, 0x7C, 0x01, 0x05], some .len16),
    ([0x2B, 0x06, 0x01, 0x04, 0x01, 0x82, 0xA2, 0x7C, 0x01, 0x06], some .len8)]

/-- Encode a value; an integer only where one is expected, in hexadecimal digits. -/
def encodeValue (expectedLen : Option IntToStringLen) : DNValue → Encode
  | .uint v =>
    match expectedLen with
    | some .len16 => do
      let string ← ofExcept (writeUnwrap 32 (radixText 16 16 v.toNat))
      emit (.utf8str string)
    | some .len8 => do
      let string ← ofExcept (writeUnwrap 32 (radixText 16 8 v.toNat))
      emit (.utf8str string)
    | none => ofExcept (.error (.error .invalid))
  | .utf8 v => emit (.utf8str v)
  | .printableStr v => emit (.printstr v)

def encode (dn : DN) (oid : List UInt8) (expectedLen : Option IntToStringLen) : Encode := do
  emit .startSet
  emit .startSeq
  emit (.oid oid)
  let value ← ofExcept (DN.value dn)
  encodeValue expectedLen value
  emit .endSeq
  emit .endSet

/-- Encode an attribute; one that is not known is skipped. -/
def encodeKnown (dn : DN) : Encode := do
  let tag ← ofExcept (attempt (DN.tag dn))
  match tag with
  | .ok tag =>
    if tag.toIdx ≤ encoding.length then do
      let this ← ofExcept (index encoding tag.toIdx)
      DN.encode dn this.1 this.2
    else pure ()
  | .error _ => pure ()

def encodeAll (values : List (Except ErrorCode DN)) : Encode := do
  emit .startSeq
  forItems encodeKnown values
  emit .endSeq

end DN

/-! ## Certificates -/

abbrev CertRef := List UInt8

namespace CertRef

variable (cert : CertRef)

/-- A member of the certificate that is read in some way. -/
def get {α : Type} (ctx : BitVec 8) (read : List UInt8 → Except (Stop ErrorCode) α) :
    Except (Stop ErrorCode) α := do
  let elem ← member ctx cert
  read elem

def serialNo : Except (Stop ErrorCode) (List UInt8) := cert.get 1 str

def signAlgo : Except (Stop ErrorCode) (BitVec 8) := cert.get 2 u8

def issuer : Except (Stop ErrorCode) (List UInt8) := cert.get 3 newList

def notBefore : Except (Stop ErrorCode) (BitVec 32) := cert.get 4 u32

/-- The time until which it is valid; zero for ever. -/
def notAfter : Except (Stop ErrorCode) (BitVec 32) := cert.get 5 u32

def subject : Except (Stop ErrorCode) (List UInt8) := cert.get 6 newList

def pubkeyAlgo : Except (Stop ErrorCode) (BitVec 8) := cert.get 7 u8

def ecCurveId : Except (Stop ErrorCode) (BitVec 8) := cert.get 8 u8

def pubkey : Except (Stop ErrorCode) (List UInt8) := cert.get 9 str

def extensions : Except (Stop ErrorCode) (List UInt8) := cert.get 10 newList

def signature : Except (Stop ErrorCode) (List UInt8) := cert.get 11 str

def subjectItems : Except (Stop ErrorCode) (List (Except ErrorCode DN)) := do
  let list ← cert.subject
  iterAll (fun elem => .ok elem) list

def extensionItems : Except (Stop ErrorCode) (List (Except ErrorCode Extension)) := do
  let list ← cert.extensions
  iterAll Extension.fromTlv list

/-- The first attribute of the subject of some kind, as an integer. -/
def getSubjectId (tag : DNTag) (code : ErrorCode) : Except (Stop ErrorCode) (BitVec 64) := do
  let items ← cert.subjectItems
  let dn ← doTryFind (fun dn => do
    let dnTag ← DN.tag dn
    return decide (dnTag = tag)) items
  match dn with
  | some dn => DN.uint dn
  | none => .error (.error code)

def getNodeId : Except (Stop ErrorCode) (BitVec 64) := cert.getSubjectId .nodeId .noNodeId

def getFabricId : Except (Stop ErrorCode) (BitVec 64) := cert.getSubjectId .fabricId .noFabricId

/-- The loop of `getCatIds`. -/
def catIdsLoop : ℕ → List (BitVec 32) → List (Except ErrorCode DN) →
    Except (Stop ErrorCode) (List (BitVec 32))
  | _, output, [] => return output
  | _, _, .error code :: _ => .error (.error code)
  | offset, output, .ok dn :: items => do
    let tag ← DN.tag dn
    if tag = .nocCat then
      if offset = output.length then .error (.error .invalidData)
      else do
        let v ← DN.uint dn
        let output ← store output offset (v.setWidth 32)
        catIdsLoop (offset + 1) output items
    else catIdsLoop offset output items

/-- The authenticated tags, written to the start of the output. -/
def getCatIds (output : List (BitVec 32)) : Except (Stop ErrorCode) (List (BitVec 32)) := do
  let items ← cert.subjectItems
  catIdsLoop 0 output items

def isSubjectKeyId : Extension → Bool
  | .subjectKeyId _ => .true
  | _ => .false

def getSubjectKeyId : Except (Stop ErrorCode) (List UInt8) := do
  let items ← cert.extensionItems
  let extension ← doTryFind (fun extension => .ok (isSubjectKeyId extension)) items
  match extension with
  | some (.subjectKeyId id) => return id
  | some _ => .error .panic
  | none => .error (.error .invalid)

/-- Is the extension the key id of an authority? -/
def isAuthorityKeyId (id : List UInt8) : Extension → Bool
  | .authorityKeyId t => t == id
  | _ => .false

/-- Is another certificate the authority of this one? -/
def isAuthority (their : CertRef) : Except (Stop ErrorCode) Bool := do
  let theirSubject ← their.getSubjectKeyId
  let items ← cert.extensionItems
  let authority ← doTryFind (fun extension => .ok (isAuthorityKeyId theirSubject extension)) items
  return authority.isSome

/-- The only value there is for an algorithm or a curve. -/
def oidOf (oid : List UInt8) (algo : BitVec 8) : Except (Stop ErrorCode) (List UInt8) :=
  if algo = 1 then return oid else .error (.error .invalid)

/-- Encode the end of the validity; zero is a date far in the future. -/
def encodeNotAfter (notAfter : BitVec 32) : Encode :=
  if notAfter = 0 then emit (.utctime matterCertDoesntExpire)
  else emit (.utctime notAfter.toNat)

/-- Encode the certificate, without its signature. -/
def encode : Encode := do
  emit .startSeq
  emit (.startCtx 0)
  emit (.integer [2])
  emit .endCtx
  let serialNo ← ofExcept cert.serialNo
  emit (.integer serialNo)
  emit .startSeq
  let signAlgo ← ofExcept cert.signAlgo
  let oid ← ofExcept (oidOf [0x2A, 0x86, 0x48, 0xCE, 0x3D, 0x04, 0x03, 0x02] signAlgo)
  emit (.oid oid)
  emit .endSeq
  let issuer ← ofExcept cert.issuer
  let issuer ← ofExcept (iterAll (fun elem => .ok elem) issuer)
  DN.encodeAll issuer
  emit .startSeq
  let notBefore ← ofExcept cert.notBefore
  emit (.utctime notBefore.toNat)
  let notAfter ← ofExcept cert.notAfter
  encodeNotAfter notAfter
  emit .endSeq
  let subject ← ofExcept cert.subject
  let subject ← ofExcept (iterAll (fun elem => .ok elem) subject)
  DN.encodeAll subject
  emit .startSeq
  emit .startSeq
  let pubkeyAlgo ← ofExcept cert.pubkeyAlgo
  let pubKey ← ofExcept (oidOf [0x2A, 0x86, 0x48, 0xCE, 0x3D, 0x02, 0x01] pubkeyAlgo)
  emit (.oid pubKey)
  let ecCurveId ← ofExcept cert.ecCurveId
  let curveId ← ofExcept (oidOf [0x2A, 0x86, 0x48, 0xCE, 0x3D, 0x03, 0x01, 0x07] ecCurveId)
  emit (.oid curveId)
  emit .endSeq
  let pubkey ← ofExcept cert.pubkey
  emit (.bitstr .false pubkey)
  emit .endSeq
  let extensions ← ofExcept cert.extensions
  let extensions ← ofExcept (iterAll Extension.fromTlv extensions)
  Extension.encodeAll extensions
  emit .endSeq

/-- The DER of the certificate, written to a buffer. -/
def asAsn1 (cal : Calendar) (buf : List UInt8) : Except (Stop ErrorCode) (List UInt8) := do
  let (w, _) ← cert.encode.run (ASN1Writer.consume cal) (ASN1Writer.new buf)
  w.asSlice

/-- The signature check of the crypto backend: a public key, then data and a signature. -/
abbrev Verify := List UInt8 → Except ErrorCode (List UInt8 → List UInt8 → Except ErrorCode Bool)

/-- `try_into` an array of a length. -/
def tryInto (n : ℕ) (slice : List UInt8) : Except (Stop ErrorCode) (List UInt8) :=
  if slice.length = n then .ok slice else .error (.error .invalidData)

/-- Check that another certificate signed this one. -/
def addCert (cal : Calendar) (verify : Verify) (parent : CertRef) (buf : List UInt8) :
    Except (Stop ErrorCode) Unit := do
  let authority ← cert.isAuthority parent
  if authority then do
    let asn1 ← cert.asAsn1 cal buf
    let pubkey ← parent.pubkey
    let pubkey ← tryInto 65 pubkey
    let key ← lift (verify pubkey)
    let signature ← cert.signature
    let signature ← tryInto 64 signature
    let result ← lift (key asn1 signature)
    if result then return () else .error (.error .invalidSignature)
  else .error (.error .invalidAuthKey)

def finalise (cal : Calendar) (verify : Verify) (buf : List UInt8) :
    Except (Stop ErrorCode) Unit :=
  cert.addCert cal verify cert buf

end CertRef

end RsMatter
