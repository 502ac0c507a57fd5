import RsMatter.Mdns

/-!
# The mDNS responder (`mdns/builtin/proto.rs`, `mdns/builtin/types.rs`)

A host answers a query out of one service description: `answer` puts the records asked
for into the answer section and notes what else the asker will want, `additional` adds
that. DNS messages are composed and parsed by a library of its own; what the code uses
of it is a parameter (`Dns`), so that a message is here what the library composes and
parses: a header, questions and two sections of records. A record section that cannot be
read is one without records, and a record that cannot be read is left out of its section.
-/

namespace RsMatter

/-! ## Messages -/

/-- A domain name: its labels, the root left out. -/
abbrev DomainName := List (List UInt8)

inductive Rtype where
  | a
  | aaaa
  | ptr
  | srv
  | txt
  | any
  | other (code : BitVec 16)
  deriving DecidableEq

inductive RData where
  | ptr (name : DomainName)
  | srv (priority weight port : BitVec 16) (target : DomainName)
  | txt (rdata : List UInt8)
  | a (addr : BitVec 32)
  | aaaa (addr : BitVec 128)
  | other (code : BitVec 16) (rdata : List UInt8)
  deriving DecidableEq

structure Record where
  owner : DomainName
  /-- the class, with the cache-flush bit on top -/
  cls : BitVec 16
  ttl : BitVec 32
  data : RData
  deriving DecidableEq

structure Question where
  qname : DomainName
  qtype : Rtype
  qclass : BitVec 16
  deriving DecidableEq

structure Message where
  id : BitVec 16
  qr : Bool
  aa : Bool
  /-- the questions, up to the first that cannot be read -/
  questions : List (Option Question)
  /-- the readable records of the answer section -/
  answer : List Record
  /-- the readable records of the additional section -/
  additional : List Record
  deriving DecidableEq

structure Dns where
  display : DomainName → String
  /-- `Name::from_chars`, for a name of at most 64 bytes -/
  fromChars : String → Option DomainName
  size : Message → ℕ
  /-- the character strings of a TXT record, if its data consists of such -/
  charStrings : List UInt8 → Option (List (List UInt8))

/-- `Class::IN`. -/
def classIn : BitVec 16 := 1

/-- `Host::auth_class`: with the cache-flush bit. -/
def authClass (flush : Bool) : BitVec 16 := if flush then classIn ||| 0x8000 else classIn

inductive RecordSection where
  | answer
  | additional

namespace Message

def new (id : BitVec 16) (qr aa : Bool) : Message := ⟨id, qr, aa, [], [], []⟩

def add (m : Message) (r : Record) : RecordSection → Message
  | .answer => { m with answer := m.answer ++ [r] }
  | .additional => { m with additional := m.additional ++ [r] }

end Message

/-! ## Names -/

/-- `Label::from_slice`, unwrapped. -/
def labelFromSlice (s : String) : Except (Stop ErrorCode) (List UInt8) :=
  if s.utf8ByteSize ≤ 63 then .ok (utf8Bytes s) else .error .panic

/-- `NameSlice`: a name of given labels. -/
def nameSlice (labels : List String) : Except (Stop ErrorCode) DomainName :=
  labels.mapM labelFromSlice

def lowerByte (b : UInt8) : UInt8 := if 65 ≤ b ∧ b ≤ 90 then b + 32 else b

/-- `name.name_eq(&NameSlice::new(labels))`: label by label, up to the first difference. -/
def nameEq : DomainName → List String → Except (Stop ErrorCode) Bool
  | [], [] => .ok true
  | _ :: _, [] => .ok false
  | [], s :: _ => do
    let _ ← labelFromSlice s
    .ok false
  | label :: name, s :: labels => do
    let other ← labelFromSlice s
    if label.map lowerByte = other.map lowerByte then nameEq name labels else .ok false

/-- `types::Txt::compose_rdata`: the length of an item is one byte. -/
def composeTxt (kvs : List (String × String)) : List UInt8 :=
  if kvs = [] then [0]
  else kvs.flatMap fun kv =>
    UInt8.ofNat (kv.1.utf8ByteSize + kv.2.utf8ByteSize + 1) ::
      (utf8Bytes kv.1 ++ [61] ++ utf8Bytes kv.2)

/-! ## The host -/

/-- `Host`. -/
structure Host where
  hostname : String
  ip : BitVec 32
  ipv6 : BitVec 128

/-- `AdditionalData`: what to put into the additional section. -/
structure AdditionalData where
  ips : Bool
  srv : Bool
  txt : Bool
  deriving DecidableEq

namespace AdditionalData

def empty : AdditionalData := ⟨false, false, false⟩

def all : AdditionalData := ⟨true, true, true⟩

end AdditionalData

/-- `RespondMode`: how a response is sent. -/
inductive RespondMode where
  | skip
  | multicast (delay : Bool)
  | unicast
  deriving DecidableEq

section Push

variable (dns : Dns) (cap : ℕ)

/-- Push a record whose names are given by their labels. A label that is too long panics
before the buffer is looked at. -/
def push (m : Message) (sec : RecordSection) (owner : List String) (cls : BitVec 16)
    (ttlSec : BitVec 32) (data : Except (Stop ErrorCode) RData) :
    Except (Stop ErrorCode) Message := do
  let owner ← nameSlice owner
  let data ← data
  let m := m.add ⟨owner, cls, ttlSec, data⟩ sec
  if dns.size m ≤ cap then .ok m else .error (.error .bufferTooSmall)

/-- `Host::host_fqdn`. -/
def hostFqdn (hostname : String) : List String := [hostname, "local"]

/-- `add_ipv4`. -/
def addIpv4 (host : Host) (sec : RecordSection) (ttlSec : BitVec 32) (flush : Bool)
    (m : Message) : Except (Stop ErrorCode) Message :=
  if host.ip ≠ 0 then
    push dns cap m sec (hostFqdn host.hostname) (authClass flush) ttlSec (.ok (.a host.ip))
  else .ok m

/-- `add_ipv6`. -/
def addIpv6 (host : Host) (sec : RecordSection) (ttlSec : BitVec 32) (flush : Bool)
    (m : Message) : Except (Stop ErrorCode) Message :=
  if host.ipv6 ≠ 0 then
    push dns cap m sec (hostFqdn host.hostname) (authClass flush) ttlSec
      (.ok (.aaaa host.ipv6))
  else .ok m

namespace Service

/-- `service_fqdn`. -/
def serviceFqdn (s : Service) : List String := [s.name, s.service, s.protocol, "local"]

/-- `service_type_fqdn`. -/
def serviceTypeFqdn (s : Service) : List String := [s.service, s.protocol, "local"]

/-- `service_subtype_fqdn`. -/
def serviceSubtypeFqdn (s : Service) (serviceSubtype : String) : List String :=
  [serviceSubtype, "_sub", s.service, s.protocol, "local"]

/-- `dns_sd_fqdn`. -/
def dnsSdFqdn : List String := ["_services", "_dns-sd", "_udp", "local"]

def addPtr (sec : RecordSection) (owner target : List String) (ttlSec : BitVec 32)
    (m : Message) : Except (Stop ErrorCode) Message :=
  push dns cap m sec owner classIn ttlSec (do .ok (.ptr (← nameSlice target)))

variable (s : Service)

/-- `add_service`. -/
def addService (sec : RecordSection) (hostname : String) (ttlSec : BitVec 32) (flush : Bool)
    (m : Message) : Except (Stop ErrorCode) Message :=
  push dns cap m sec s.serviceFqdn (authClass flush) ttlSec
    (do .ok (.srv 0 0 s.port (← nameSlice (hostFqdn hostname))))

/-- `add_service_type`. -/
def addServiceType (sec : RecordSection) (ttlSec : BitVec 32) (m : Message) :
    Except (Stop ErrorCode) Message :=
  addPtr dns cap sec s.serviceTypeFqdn s.serviceFqdn ttlSec m

/-- `add_dns_sd_service_type`. -/
def addDnsSdServiceType (sec : RecordSection) (ttlSec : BitVec 32) (m : Message) :
    Except (Stop ErrorCode) Message :=
  addPtr dns cap sec dnsSdFqdn s.serviceTypeFqdn ttlSec m

/-- `add_service_subtype`. -/
def addServiceSubtype (sec : RecordSection) (serviceSubtype : String) (ttlSec : BitVec 32)
    (m : Message) : Except (Stop ErrorCode) Message :=
  addPtr dns cap sec (s.serviceSubtypeFqdn serviceSubtype) s.serviceFqdn ttlSec m

/-- `add_dns_sd_service_subtypes`. -/
def addDnsSdServiceSubtypes (sec : RecordSection) (ttlSec : BitVec 32) (m : Message) :
    Except (Stop ErrorCode) Message :=
  s.serviceSubtypes.foldlM
    (fun m subtype => addPtr dns cap sec dnsSdFqdn (s.serviceSubtypeFqdn subtype) ttlSec m) m

/-- `add_txt`. -/
def addTxt (sec : RecordSection) (ttlSec : BitVec 32) (flush : Bool) (m : Message) :
    Except (Stop ErrorCode) Message :=
  push dns cap m sec s.serviceFqdn (authClass flush) ttlSec (.ok (.txt (composeTxt s.txtKvs)))

end Service

/-! ## Answers -/

/-- What the answers to the questions so far have come to. -/
structure Answering where
  m : Message
  ad : AdditionalData
  delay : Bool
  replied : Bool

namespace Host

variable (host : Host) (s : Service)

def answerSubtypes (name : DomainName) (ttlSec : BitVec 32) (st : Answering) :
    List String → Except (Stop ErrorCode) Answering
  | [] => .ok st
  | subtype :: subtypes => do
    if ← nameEq name (s.serviceSubtypeFqdn subtype) then
      let m ← s.addServiceSubtype dns cap .answer subtype ttlSec st.m
      .ok { st with m := m, ad := .all, replied := true }
    else answerSubtypes name ttlSec st subtypes

/-- `answer_simple`. -/
def answerSimple (name : DomainName) (rtype : Rtype) (ttlSec : BitVec 32) (flush : Bool)
    (st : Answering) : Except (Stop ErrorCode) Answering :=
  match rtype with
  | .a => do
    if ← nameEq name (hostFqdn host.hostname) then
      let m ← addIpv4 dns cap host .answer ttlSec flush st.m
      .ok { st with m := m, replied := true }
    else .ok st
  | .aaaa => do
    if ← nameEq name (hostFqdn host.hostname) then
      let m ← addIpv6 dns cap host .answer ttlSec flush st.m
      .ok { st with m := m, replied := true }
    else .ok st
  | .srv => do
    if ← nameEq name s.serviceFqdn then
      let m ← s.addService dns cap .answer host.hostname ttlSec flush st.m
      .ok { st with m := m, ad := { st.ad with ips := true }, replied := true }
    else .ok st
  | .ptr => do
    if ← nameEq name Service.dnsSdFqdn then
      let m ← s.addDnsSdServiceType dns cap .answer ttlSec st.m
      let m ← s.addDnsSdServiceSubtypes dns cap .answer ttlSec m
      .ok { m := m, ad := .all, delay := true, replied := true }
    else if ← nameEq name s.serviceTypeFqdn then
      let m ← s.addServiceType dns cap .answer ttlSec st.m
      .ok { st with m := m, ad := .all, replied := true }
    else answerSubtypes dns cap s name ttlSec st s.serviceSubtypes
  | .txt => do
    if ← nameEq name s.serviceFqdn then
      let m ← s.addTxt dns cap .answer ttlSec flush st.m
      .ok { st with m := m, replied := true }
    else .ok st
  | .any | .other _ => .ok st

/-- `answer_one`: a question of any type is one of each type. -/
def answerOne (name : DomainName) (rtype : Rtype) (ttlSec : BitVec 32) (flush : Bool)
    (st : Answering) : Except (Stop ErrorCode) Answering :=
  if rtype = .any then
    [Rtype.a, .aaaa, .ptr, .srv, .txt].foldlM
      (fun st rtype => answerSimple dns cap host s name rtype ttlSec flush st) st
  else answerSimple dns cap host s name rtype ttlSec flush st

/-- `answer`: one question after the other. -/
def answer (ttlSec : BitVec 32) (flush : Bool) :
    List (Option Question) → Answering → Except (Stop ErrorCode) Answering
  | [], st => .ok st
  | none :: _, _ => .error (.error .mdnsError)
  | some q :: questions, st => do
    let st ← answerOne dns cap host s q.qname q.qtype ttlSec flush st
    answer ttlSec flush questions st

/-- `additional`: addresses, SRV and TXT, in this order. -/
def additional (ad : AdditionalData) (ttlSec : BitVec 32) (flush : Bool) (m : Message) :
    Except (Stop ErrorCode) Message := do
  let m ← if ad.ips then do
      let m ← addIpv4 dns cap host .additional ttlSec flush m
      addIpv6 dns cap host .additional ttlSec flush m
    else .ok m
  let m ← if ad.srv then s.addService dns cap .additional host.hostname ttlSec flush m
    else .ok m
  if ad.txt then s.addTxt dns cap .additional ttlSec flush m else .ok m

/-- The question section a legacy resolver gets back. -/
def echo (questions : List (Option Question)) (m : Message) :
    Except (Stop ErrorCode) Message :=
  questions.foldlM (fun m question =>
    match question with
    | none => .error (.error .mdnsError)
    | some q =>
      let m := { m with questions := m.questions ++ [some q] }
      if dns.size m ≤ cap then .ok m else .error (.error .bufferTooSmall)) m

/-- `respond`: the response to a datagram and how it is sent. `data` is what the library
makes of the datagram. -/
def respond (data : Option Message) (ttlSec : BitVec 32) (legacyUnicast : Bool) :
    Except (Stop ErrorCode) (Option Message × RespondMode) :=
  match data with
  | none => .error (.error .mdnsError)
  | some messageIn =>
    if messageIn.qr then .ok (none, .skip)
    else if dns.size (Message.new 0 true true) > cap then .error (.error .bufferTooSmall)
    else do
      let effectiveTtl := if legacyUnicast ∧ 10 < ttlSec then 10 else ttlSec
      let flush := !legacyUnicast
      let m ← if legacyUnicast then
          echo dns cap messageIn.questions (Message.new messageIn.id true true)
        else .ok (Message.new 0 true true)
      let st ← answer dns cap host s effectiveTtl flush messageIn.questions
        { m := m, ad := .empty, delay := false, replied := false }
      if !st.replied then .ok (none, .skip)
      else do
        let m ← additional dns cap host s st.ad effectiveTtl flush st.m
        .ok (some m, if legacyUnicast then .unicast else .multicast st.delay)

end Host

end Push

/-! ## Queries -/

/-- `build_ptr_query`: ask for the PTR records of a name. -/
def buildPtrQuery (dns : Dns) (cap : ℕ) (serviceType : String) : Except ErrorCode Message :=
  let m := Message.new 0 false false
  if dns.size m > cap then .error .bufferTooSmall
  else match dns.fromChars serviceType with
    | none => .error .mdnsError
    | some name =>
      let m := { m with questions := [some ⟨name, .ptr, classIn⟩] }
      if dns.size m > cap then .error .bufferTooSmall else .ok m

end RsMatter
