import RsMatter.MdnsPanic
import RsMatter.Prog

/-!
# Responder and querier together

What a host answers to the query for a commissionable device is one PTR record, followed by
its addresses, the SRV record and the TXT record. The querier drops addresses of hosts it
has not yet heard of in an SRV record, so that it never completes a device from such a
reply; had the addresses come last, the device would be complete.
-/

namespace RsMatter

open Prog (except_bind_eq_ok)

/-! ## The records of a reply -/

section Reply

variable {dns : Dns} {cap : ℕ}

variable {ttl : BitVec 32} {m m' : Message}

theorem push_ok {sec : RecordSection} {owner : List String}
    {cls : BitVec 16} {data : Except (Stop ErrorCode) RData}
    (h : push dns cap m sec owner cls ttl data = .ok m') :
    ∃ o d, nameSlice owner = .ok o ∧ data = .ok d ∧ m' = m.add ⟨o, cls, ttl, d⟩ sec := by
  rw [push] at h
  cases ho : nameSlice owner with
  | error e => rw [ho] at h; cases h
  | ok o =>
    cases hd : data with
    | error e => rw [ho, hd] at h; cases h
    | ok d =>
      rw [ho, hd, ok_bind, ok_bind] at h
      simp only at h
      split at h
      · exact ⟨o, d, rfl, rfl, (Except.ok.inj h).symm⟩
      · cases h

def addressRecords (host : Host) (owner : DomainName) (ttl : BitVec 32) (flush : Bool) :
    List Record :=
  (if host.ip ≠ 0 then [⟨owner, authClass flush, ttl, .a host.ip⟩] else []) ++
    if host.ipv6 ≠ 0 then [⟨owner, authClass flush, ttl, .aaaa host.ipv6⟩] else []

def serviceRecords (s : Service) (owner target : DomainName) (ttl : BitVec 32)
    (flush : Bool) : List Record :=
  [⟨owner, authClass flush, ttl, .srv 0 0 s.port target⟩,
    ⟨owner, authClass flush, ttl, .txt (composeTxt s.txtKvs)⟩]

variable {name : DomainName} {host : Host} {flush : Bool}

theorem addIpv4_ok
    (hname : nameSlice (hostFqdn host.hostname) = .ok name)
    (h : addIpv4 dns cap host .additional ttl flush m = .ok m') :
    m' = { m with additional := m.additional ++
      if host.ip ≠ 0 then [⟨name, authClass flush, ttl, .a host.ip⟩] else [] } := by
  rw [addIpv4] at h
  split at h
  case isTrue hip =>
    obtain ⟨o, d, ho, hd, rfl⟩ := push_ok h
    obtain rfl := Except.ok.inj (hname.symm.trans ho)
    obtain rfl := Except.ok.inj hd
    rw [if_pos hip]
    rfl
  case isFalse hip =>
    obtain rfl := Except.ok.inj h
    rw [if_neg hip, List.append_nil]

theorem addIpv6_ok
    (hname : nameSlice (hostFqdn host.hostname) = .ok name)
    (h : addIpv6 dns cap host .additional ttl flush m = .ok m') :
    m' = { m with additional := m.additional ++
      if host.ipv6 ≠ 0 then [⟨name, authClass flush, ttl, .aaaa host.ipv6⟩] else [] } := by
  rw [addIpv6] at h
  split at h
  case isTrue hip =>
    obtain ⟨o, d, ho, hd, rfl⟩ := push_ok h
    obtain rfl := Except.ok.inj (hname.symm.trans ho)
    obtain rfl := Except.ok.inj hd
    rw [if_pos hip]
    rfl
  case isFalse hip =>
    obtain rfl := Except.ok.inj h
    rw [if_neg hip, List.append_nil]

variable {s : Service}

/-- What `additional` puts behind a PTR answer: the addresses, then SRV and TXT. -/
theorem additional_ok
    (h : host.additional dns cap s .all ttl flush m = .ok m') :
    ∃ hostName serviceName, nameSlice (hostFqdn host.hostname) = .ok hostName ∧
      nameSlice s.serviceFqdn = .ok serviceName ∧
      m' = { m with additional := m.additional ++ (addressRecords host hostName ttl flush ++
        serviceRecords s serviceName hostName ttl flush) } := by
  rw [Host.additional] at h
  simp only [AdditionalData.all, if_true] at h
  obtain ⟨m1, hipv4, h⟩ := except_bind_eq_ok.mp h
  obtain ⟨m2, hipv6, h⟩ := except_bind_eq_ok.mp h
  obtain ⟨m3, hsrv, htxt⟩ := except_bind_eq_ok.mp h
  obtain ⟨o, d, ho, hd, rfl⟩ := push_ok hsrv
  obtain ⟨hostName, hhost, hd⟩ := except_bind_eq_ok.mp hd
  obtain rfl := Except.ok.inj hd
  obtain ⟨o', d, ho', hd, rfl⟩ := push_ok htxt
  obtain rfl := Except.ok.inj (ho.symm.trans ho')
  obtain rfl := Except.ok.inj hd
  obtain rfl := addIpv4_ok hhost hipv4
  obtain rfl := addIpv6_ok hhost hipv6
  refine ⟨hostName, o, hhost, ho, ?_⟩
  simp [Message.add, addressRecords, serviceRecords]

theorem addPtr_ok {owner target : List String}
    (h : Service.addPtr dns cap .answer owner target ttl m = .ok m') :
    ∃ o n, nameSlice owner = .ok o ∧ nameSlice target = .ok n ∧
      m' = { m with answer := m.answer ++ [⟨o, classIn, ttl, .ptr n⟩] } := by
  obtain ⟨o, d, ho, hd, rfl⟩ := push_ok h
  obtain ⟨n, hn, hd⟩ := except_bind_eq_ok.mp hd
  obtain rfl := Except.ok.inj hd
  exact ⟨o, n, ho, hn, rfl⟩

/-- An answering that has only added PTR records since another. -/
structure OnlyPtr (m m' : Message) : Prop where
  answer : ∃ rs, m'.answer = m.answer ++ rs ∧ ∀ r ∈ rs, ∃ n, r.data = .ptr n
  additional : m'.additional = m.additional

theorem OnlyPtr.refl (m : Message) : OnlyPtr m m := ⟨⟨[], by simp, by simp⟩, rfl⟩

theorem OnlyPtr.trans {m1 m2 m3 : Message} (h12 : OnlyPtr m1 m2) (h23 : OnlyPtr m2 m3) :
    OnlyPtr m1 m3 := by
  obtain ⟨⟨rs, hrs, hptr⟩, hadd⟩ := h12
  obtain ⟨⟨rs', hrs', hptr'⟩, hadd'⟩ := h23
  refine ⟨⟨rs ++ rs', by rw [hrs', hrs, List.append_assoc], ?_⟩, hadd'.trans hadd⟩
  intro r hr
  rcases List.mem_append.mp hr with hr | hr
  · exact hptr r hr
  · exact hptr' r hr

theorem OnlyPtr.of_addPtr {owner target : List String}
    (h : Service.addPtr dns cap .answer owner target ttl m = .ok m') : OnlyPtr m m' := by
  obtain ⟨o, n, _, _, rfl⟩ := addPtr_ok h
  exact ⟨⟨_, rfl, by simp⟩, rfl⟩

theorem OnlyPtr.of_addDnsSdServiceSubtypes
    (h : s.addDnsSdServiceSubtypes dns cap .answer ttl m = .ok m') : OnlyPtr m m' := by
  rw [Service.addDnsSdServiceSubtypes] at h
  generalize s.serviceSubtypes = subtypes at h
  induction subtypes generalizing m with
  | nil =>
    obtain rfl := Except.ok.inj h
    exact OnlyPtr.refl m
  | cons subtype subtypes ih =>
    rw [List.foldlM_cons] at h
    obtain ⟨m1, hm1, h⟩ := except_bind_eq_ok.mp h
    exact (OnlyPtr.of_addPtr hm1).trans (ih h)

/-- A PTR question is answered with PTR records, and if it is answered at all, then with
everything else in addition. -/
structure AnsweredPtr (st st' : Answering) : Prop where
  records : OnlyPtr st.m st'.m
  /-- with an answer comes everything else -/
  all : st'.replied = true → st.replied = false → st'.ad = .all

theorem answerSubtypes_ok
    {st st' : Answering} {subtypes : List String}
    (h : Host.answerSubtypes dns cap s name ttl st subtypes = .ok st') :
    AnsweredPtr st st' := by
  induction subtypes with
  | nil =>
    obtain rfl := Except.ok.inj h
    exact ⟨OnlyPtr.refl _, fun h1 h2 => absurd (h1.symm.trans h2) (by decide)⟩
  | cons subtype subtypes ih =>
    rw [Host.answerSubtypes] at h
    obtain ⟨eq, _, h⟩ := except_bind_eq_ok.mp h
    split at h
    · obtain ⟨m, hm, h⟩ := except_bind_eq_ok.mp h
      obtain rfl := Except.ok.inj h
      exact ⟨OnlyPtr.of_addPtr hm, fun _ _ => rfl⟩
    · exact ih h

theorem answerSimple_ptr_ok
    {st st' : Answering}
    (h : host.answerSimple dns cap s name .ptr ttl flush st = .ok st') :
    AnsweredPtr st st' := by
  rw [Host.answerSimple] at h
  obtain ⟨eqSd, _, h⟩ := except_bind_eq_ok.mp h
  split at h
  · obtain ⟨m1, hm1, h⟩ := except_bind_eq_ok.mp h
    obtain ⟨m2, hm2, h⟩ := except_bind_eq_ok.mp h
    obtain rfl := Except.ok.inj h
    exact ⟨(OnlyPtr.of_addPtr hm1).trans (OnlyPtr.of_addDnsSdServiceSubtypes hm2),
      fun _ _ => rfl⟩
  · obtain ⟨eqType, _, h⟩ := except_bind_eq_ok.mp h
    split at h
    · obtain ⟨m, hm, h⟩ := except_bind_eq_ok.mp h
      obtain rfl := Except.ok.inj h
      exact ⟨OnlyPtr.of_addPtr hm, fun _ _ => rfl⟩
    · exact answerSubtypes_ok h

theorem echo_ok {questions : List (Option Question)}
    (h : Host.echo dns cap questions m = .ok m') :
    m'.answer = m.answer ∧ m'.additional = m.additional ∧ m'.qr = m.qr := by
  rw [Host.echo] at h
  induction questions generalizing m with
  | nil =>
    obtain rfl := Except.ok.inj h
    exact ⟨rfl, rfl, rfl⟩
  | cons question questions ih =>
    rw [List.foldlM_cons] at h
    obtain ⟨m1, hm1, h⟩ := except_bind_eq_ok.mp h
    cases question with
    | none => cases hm1
    | some q =>
      simp only at hm1
      split at hm1
      · obtain rfl := Except.ok.inj hm1
        have hrest := ih h
        exact hrest
      · cases hm1

/-- The shape of a reply: PTR records, then the addresses, the SRV and the TXT record. -/
structure Reply (host : Host) (s : Service) (m : Message) : Prop where
  answer : ∀ r ∈ m.answer, ∃ n, r.data = .ptr n
  additional : ∃ hostName serviceName ttl flush,
    nameSlice (hostFqdn host.hostname) = .ok hostName ∧
    nameSlice s.serviceFqdn = .ok serviceName ∧
    m.additional = addressRecords host hostName ttl flush ++
      serviceRecords s serviceName hostName ttl flush

/-- **The reply** to a query for the PTR records of one name. -/
theorem respond_ptr {query m : Message}
    {legacy : Bool} {mode : RespondMode} {cls : BitVec 16}
    (hquery : query.questions = [some ⟨name, .ptr, cls⟩])
    (h : host.respond dns cap s (some query) ttl legacy = .ok (some m, mode)) :
    Reply host s m := by
  -- the reply starts without records, with or without the questions echoed
  have hanswered (m0 : Message) (hnone : m0.answer = [] ∧ m0.additional = [])
      (ttl : BitVec 32) (flush : Bool) (st : Answering)
      (hst : host.answer dns cap s ttl flush query.questions
        { m := m0, ad := .empty, delay := false, replied := false } = .ok st)
      (hreplied : st.replied = true)
      (hm : host.additional dns cap s st.ad ttl flush st.m = .ok m) : Reply host s m := by
    rw [hquery, Host.answer] at hst
    obtain ⟨st1, hst1, hst⟩ := except_bind_eq_ok.mp hst
    obtain rfl := Except.ok.inj hst
    rw [Host.answerOne, if_neg (by simp)] at hst1
    have hptr := answerSimple_ptr_ok hst1
    rw [hptr.all hreplied rfl] at hm
    obtain ⟨hostName, serviceName, hhost, hservice, rfl⟩ := additional_ok hm
    obtain ⟨rs, hrs, hall⟩ := hptr.records.answer
    refine ⟨?_, hostName, serviceName, ttl, flush, hhost, hservice, ?_⟩
    · simpa [hrs, hnone.1] using hall
    · simp [hptr.records.additional, hnone.2]
  rw [Host.respond] at h
  split at h
  · cases h
  split at h
  · cases h
  cases legacy with
  | true =>
    simp only [if_true] at h
    obtain ⟨m0, hm0, h⟩ := except_bind_eq_ok.mp h
    obtain ⟨st, hst, h⟩ := except_bind_eq_ok.mp h
    split at h
    · cases h
    case isFalse hreplied =>
      obtain ⟨m1, hm1, h⟩ := except_bind_eq_ok.mp h
      obtain ⟨⟨⟩, _⟩ := Prod.mk.inj (Except.ok.inj h)
      obtain ⟨hanswer, hadditional, _⟩ := echo_ok hm0
      exact hanswered m0 ⟨hanswer, hadditional⟩ _ _ st hst (by simpa using hreplied) hm1
  | false =>
    simp only [Bool.false_eq_true, if_false] at h
    obtain ⟨m0, hm0, h⟩ := except_bind_eq_ok.mp h
    obtain rfl := Except.ok.inj hm0
    obtain ⟨st, hst, h⟩ := except_bind_eq_ok.mp h
    split at h
    · cases h
    case isFalse hreplied =>
      obtain ⟨m1, hm1, h⟩ := except_bind_eq_ok.mp h
      obtain ⟨⟨⟩, _⟩ := Prod.mk.inj (Except.ok.inj h)
      exact hanswered _ ⟨rfl, rfl⟩ _ _ st hst (by simpa using hreplied) hm1

end Reply

/-! ## What the querier makes of a reply -/

section Parse

variable {A : ℕ} {dns : Dns}

structure Hostless (state : DiscoveryState A) : Prop where
  addresses : state.device.addresses.1 = []
  hostname : state.hostname.1 = ""

def KeepsAll (P : DiscoveryState A → Prop) (states : List (DiscoveryState A))
    (x : Except (Stop ErrorCode) (List (DiscoveryState A))) : Prop :=
  (∀ state ∈ states, P state) → ∀ states', x = .ok states' → ∀ state ∈ states', P state

theorem KeepsAll.of_forMatching {P : DiscoveryState A → Prop} {p : DiscoveryState A → Bool}
    {f : DiscoveryState A → Except (Stop ErrorCode) (DiscoveryState A)}
    (hf : ∀ state state', P state → p state = true → f state = .ok state' → P state')
    (states : List (DiscoveryState A)) : KeepsAll P states (forMatching p f states) := by
  intro hall states' h
  rw [forMatching] at h
  induction states generalizing states' with
  | nil =>
    obtain rfl := Except.ok.inj h
    exact hall
  | cons state states ih =>
    rw [List.mapM_cons] at h
    obtain ⟨state1, h1, h⟩ := except_bind_eq_ok.mp h
    obtain ⟨rest, h2, h⟩ := except_bind_eq_ok.mp h
    obtain rfl := Except.ok.inj h
    rw [List.forall_mem_cons] at hall ⊢
    refine ⟨?_, ih hall.2 rest h2⟩
    split at h1
    case isTrue hp => exact hf state state1 hall.1 hp h1
    case isFalse =>
      obtain rfl := Except.ok.inj h1
      exact hall.1

theorem keepsAll_processAnswer {D : ℕ} {r : Record} {n : DomainName} (hr : r.data = .ptr n)
    (states : List (DiscoveryState A)) :
    KeepsAll Hostless states (processAnswer dns D states r) := by
  intro hall states' h
  rw [processAnswer] at h
  obtain ⟨owner, _, h⟩ := except_bind_eq_ok.mp h
  rw [hr] at h
  obtain ⟨name, _, h⟩ := except_bind_eq_ok.mp h
  rw [processPtr] at h
  split at h
  · obtain ⟨device, hdevice, h⟩ := except_bind_eq_ok.mp h
    obtain ⟨s, _, hdevice⟩ := except_bind_eq_ok.mp hdevice
    obtain rfl := Except.ok.inj hdevice
    obtain rfl := Except.ok.inj h
    intro state hstate
    rcases List.mem_append.mp hstate with hstate | hstate
    · exact hall state hstate
    · obtain rfl := List.mem_singleton.mp hstate
      exact ⟨rfl, rfl⟩
  · obtain rfl := Except.ok.inj h
    exact hall

theorem keepsAll_processAddress (owner : String) (ip : IpAddr)
    (states : List (DiscoveryState A)) :
    KeepsAll Hostless states (processAddress owner ip states) := by
  apply KeepsAll.of_forMatching
  intro state state' hstate hp _
  simp [hstate.hostname] at hp

theorem keepsAll_processRecord {owner : String} {data : RData}
    (hdata : ∀ ip, data ≠ .a ip) (hdata' : ∀ ip, data ≠ .aaaa ip)
    (states : List (DiscoveryState A)) :
    KeepsAll (fun state => state.device.addresses.1 = []) states
      (processRecord dns owner data states) := by
  intro hall states' h
  cases data with
  | ptr name =>
    obtain rfl := Except.ok.inj h
    exact hall
  | other code rdata =>
    obtain rfl := Except.ok.inj h
    exact hall
  | a addr => exact absurd rfl (hdata addr)
  | aaaa addr => exact absurd rfl (hdata' addr)
  | srv priority weight port target =>
    obtain ⟨s, _, h⟩ := except_bind_eq_ok.mp h
    refine KeepsAll.of_forMatching (fun state state' hstate _ hf => ?_) states hall states' h
    obtain ⟨hostname, _, hf⟩ := except_bind_eq_ok.mp hf
    obtain rfl := Except.ok.inj hf
    exact hstate
  | txt rdata =>
    rw [processRecord] at h
    split at h
    case h_2 =>
      obtain rfl := Except.ok.inj h
      exact hall
    case h_1 txt _ =>
      refine KeepsAll.of_forMatching (fun state state' hstate _ hf => ?_) states hall states' h
      obtain ⟨device, hdevice, hf⟩ := except_bind_eq_ok.mp hf
      obtain rfl := Except.ok.inj hf
      have hplace := (parseTxtRecord_returns txt state.device).post hdevice
      exact (Prod.mk.inj hplace).2 ▸ hstate

theorem keepsAll_foldlM {P : DiscoveryState A → Prop} {records : List Record}
    {f : List (DiscoveryState A) → Record →
      Except (Stop ErrorCode) (List (DiscoveryState A))}
    (hf : ∀ r ∈ records, ∀ states, KeepsAll P states (f states r))
    (states : List (DiscoveryState A)) : KeepsAll P states (records.foldlM f states) := by
  intro hall states' h
  induction records generalizing states with
  | nil =>
    obtain rfl := Except.ok.inj h
    exact hall
  | cons r records ih =>
    rw [List.foldlM_cons] at h
    obtain ⟨states1, h1, h⟩ := except_bind_eq_ok.mp h
    exact ih (fun r hr => hf r (List.mem_cons_of_mem _ hr)) states1
      (hf r List.mem_cons_self states hall states1 h1) h

/-- The address records of a reply say nothing while no host is known. -/
theorem keepsAll_addressRecords {host : Host} {owner : DomainName} {ttl : BitVec 32}
    {flush : Bool} {r : Record} (hr : r ∈ addressRecords host owner ttl flush)
    (states : List (DiscoveryState A)) :
    KeepsAll Hostless states (processAdditional dns states r) := by
  intro hall states' h
  obtain ⟨name, _, h⟩ := except_bind_eq_ok.mp h
  rcases List.mem_append.mp hr with hr | hr
  all_goals
    split at hr
    · obtain rfl := List.mem_singleton.mp hr
      exact keepsAll_processAddress _ _ states hall states' h
    · cases hr

theorem keepsAll_serviceRecords {s : Service} {owner target : DomainName} {ttl : BitVec 32}
    {flush : Bool} {r : Record} (hr : r ∈ serviceRecords s owner target ttl flush)
    (states : List (DiscoveryState A)) :
    KeepsAll (fun state => state.device.addresses.1 = []) states
      (processAdditional dns states r) := by
  intro hall states' h
  obtain ⟨name, _, h⟩ := except_bind_eq_ok.mp h
  rw [serviceRecords, List.mem_cons, List.mem_singleton] at hr
  obtain rfl | rfl := hr
  · exact keepsAll_processRecord (by simp) (by simp) states hall states' h
  · exact keepsAll_processRecord (by simp) (by simp) states hall states' h

/-- **Replies never complete a device.** The addresses of a reply come before the SRV record
that says whose they are. -/
theorem isComplete_of_reply {D : ℕ} {host : Host} {s : Service} {m : Message}
    (hreply : Reply host s m) {states : List (DiscoveryState A)}
    (h : parseResponse dns D (some m) [] = .ok states) :
    ∀ state ∈ states, state.isComplete = false := by
  obtain ⟨hostName, serviceName, ttl, flush, _, _, hadditional⟩ := hreply.additional
  have hptr : ∀ r ∈ m.answer, ∀ states : List (DiscoveryState A),
      KeepsAll Hostless states (processAnswer dns D states r) := by
    intro r hr states
    obtain ⟨n, hn⟩ := hreply.answer r hr
    exact keepsAll_processAnswer hn states
  rw [parseResponse] at h
  split at h
  · obtain rfl := Except.ok.inj h
    simp
  · obtain ⟨states1, h1, h⟩ := except_bind_eq_ok.mp h
    rw [hadditional, List.foldlM_append] at h
    obtain ⟨states2, h2, h3⟩ := except_bind_eq_ok.mp h
    have hstates1 := keepsAll_foldlM hptr [] (by simp) states1 h1
    have hstates2 := keepsAll_foldlM (fun r hr => keepsAll_addressRecords hr) states1
      hstates1 states2 h2
    have hstates3 := keepsAll_foldlM (fun r hr => keepsAll_serviceRecords hr) states2
      (fun state hstate => (hstates2 state hstate).addresses) states h3
    intro state hstate
    rw [DiscoveryState.isComplete, hstates3 state hstate]
    rfl

end Parse

/-! ## The agreement -/

/-- A host with a commissionable service, and a search for it. -/
structure Search where
  dns : Dns
  host : Host
  devDet : BasicInfoConfig
  id : BitVec 64
  discriminator : BitVec 16
  /-- is this an enhanced commissioning window? -/
  enhanced : Bool
  port : BitVec 16
  filter : CommissionableFilter
  /-- the bytes of the responder's buffer -/
  room : ℕ
  queryRoom : ℕ
  ttl : BitVec 32
  /-- does the query come from another port than 5353? -/
  legacy : Bool
  /-- how many devices the querier can collect -/
  devices : ℕ
  /-- how many addresses it can collect for a device -/
  addresses : ℕ

namespace Search

variable (q : Search)

def service : Except (Stop ErrorCode) (Service × ℕ) :=
  Stop.lift ((MatterService.commissionable q.id q.discriminator q.enhanced).service
    q.devDet q.port q.room)

def query : Except (Stop ErrorCode) Message := do
  let serviceType ← q.filter.serviceType true
  Stop.lift (buildPtrQuery q.dns q.queryRoom serviceType.1)

/-- The reply, if there is one (`respond_one`). -/
def reply : Except (Stop ErrorCode) (Option Message) := do
  let query ← q.query
  let (service, room) ← q.service
  let (m, _) ← q.host.respond q.dns room service (some query) q.ttl q.legacy
  .ok m

def found (m : Message) : Except (Stop ErrorCode) (List (DiscoveredDevice q.addresses)) := do
  let states ← parseResponse q.dns q.devices (some m) []
  .ok ((states.filter fun state => state.isComplete).map fun state => state.device)

/-- The device is the one the responder advertises. -/
structure Advertised (dev : DiscoveredDevice q.addresses) : Prop where
  /-- its addresses are the host's, as far as these are specified -/
  addresses : ∀ ip, ip ∈ dev.addresses.1 ↔
    ip.isUnspecified = false ∧ (ip = .v4 q.host.ip ∨ ip = .v6 q.host.ipv6)
  port : dev.port = q.port
  discriminator : dev.discriminator = q.discriminator
  vendorId : dev.vendorId = q.devDet.vid
  productId : dev.productId = q.devDet.pid
  commissioningMode : dev.commissioningMode = if q.enhanced then .enhanced else .basic
  deviceType : dev.deviceType = (q.devDet.deviceType.getD 0).setWidth 32
  idle : dev.mrpRetryIntervalIdle = q.devDet.sii
  active : dev.mrpRetryIntervalActive = q.devDet.sai
  pairingHint : dev.pairingHint.map (·.toNat) = some q.devDet.pairingHint.toNat
  pairingInstruction : dev.pairingInstruction.1 = q.devDet.pairingInstruction
  deviceName : dev.deviceName.1 = q.devDet.deviceName

/-- Responder and querier agree: the reply yields exactly the advertised device, and so
does every reply with the records of a section in another order. -/
def Agree : Prop :=
  ∃ m dev, q.reply = .ok (some m) ∧ q.found m = .ok [dev] ∧ q.Advertised dev ∧
    ∀ m', m'.qr = m.qr → m'.answer.Perm m.answer → m'.additional.Perm m.additional →
      ∃ devs, q.found m' = .ok devs ∧ ∀ d, d ∈ devs ↔ d = dev

theorem query_questions {query : Message} (h : q.query = .ok query) :
    ∃ name cls, query.questions = [some ⟨name, .ptr, cls⟩] := by
  obtain ⟨serviceType, _, h⟩ := except_bind_eq_ok.mp h
  cases hbuild : buildPtrQuery q.dns q.queryRoom serviceType.1 with
  | error e =>
    rw [hbuild] at h
    cases h
  | ok m =>
    rw [hbuild] at h
    obtain rfl := Except.ok.inj h
    rw [buildPtrQuery] at hbuild
    split at hbuild
    · cases hbuild
    split at hbuild
    · cases hbuild
    simp only at hbuild
    split at hbuild
    · cases hbuild
    · obtain rfl := Except.ok.inj hbuild
      exact ⟨_, classIn, rfl⟩

theorem found_reply {m : Message} {devs : List (DiscoveredDevice q.addresses)}
    (hreply : q.reply = .ok (some m)) (hfound : q.found m = .ok devs) : devs = [] := by
  obtain ⟨query, hquery, hreply⟩ := except_bind_eq_ok.mp hreply
  obtain ⟨⟨service, room⟩, _, hreply⟩ := except_bind_eq_ok.mp hreply
  obtain ⟨⟨m', mode⟩, hrespond, hreply⟩ := except_bind_eq_ok.mp hreply
  obtain rfl := Except.ok.inj hreply
  obtain ⟨states, hstates, hdevs⟩ := except_bind_eq_ok.mp hfound
  obtain rfl := Except.ok.inj hdevs
  obtain ⟨name, cls, hquestions⟩ := q.query_questions hquery
  have hnone := isComplete_of_reply (respond_ptr hquestions hrespond) hstates
  rw [List.map_eq_nil_iff, List.filter_eq_nil_iff]
  intro state hstate
  simp [hnone state hstate]

/-- **Responder and querier never agree**: whatever the host advertises and whatever is
searched for, the reply yields no complete device. -/
theorem not_agree : ¬ q.Agree := by
  rintro ⟨m, dev, hreply, hfound, -⟩
  exact absurd (q.found_reply hreply hfound) (by simp)

/-- A lamp with an IPv4 and a link-local IPv6 address, searched for by its discriminator. -/
def lamp : Search where
  dns := plainDns
  host := { hostname := "lamp", ip := 0xC0A80007, ipv6 := 0xfe80 <<< 112 ||| 7 }
  devDet := {
    vid := 0xFFF1
    pid := 0x8001
    deviceName := "Lamp"
    deviceType := some 0x100
    pairingHint := 33
    pairingInstruction := "Press"
    sai := some 300
    sii := none
    tcpSupported := false }
  id := 0x1234
  discriminator := 3840
  enhanced := false
  port := 5540
  filter := {
    discriminator := some 3840
    shortDiscriminator := none
    vendorId := none
    productId := none
    deviceType := none
    commissioningModeOnly := true }
  room := 1024
  queryRoom := 1024
  ttl := 60
  legacy := false
  devices := 8
  addresses := 4

/-- What is found in a reply whose additional records have been rearranged. -/
def foundIn (rearrange : List Record → List Record) :
    Except (Stop ErrorCode) (List (DiscoveredDevice q.addresses)) := do
  match ← q.reply with
  | some m => q.found { m with additional := rearrange m.additional }
  | none => .ok []

set_option maxRecDepth 20000 in
/-- The lamp answers, but is not found in its answer. -/
theorem lamp_not_found : (∃ m, lamp.reply = .ok (some m)) ∧ lamp.foundIn (fun records => records) = .ok [] ∧
    ¬ lamp.Agree := by
  have hfound : lamp.foundIn (fun records => records) = .ok [] := by decide +kernel
  have hreply : lamp.reply.toOption.join.isSome = true := by decide +kernel
  refine ⟨?_, hfound, ?_⟩
  · cases h : lamp.reply with
    | error e =>
      rw [h] at hreply
      cases hreply
    | ok m =>
      cases m with
      | none =>
        rw [h] at hreply
        cases hreply
      | some m => exact ⟨m, rfl⟩
  · rintro ⟨m, dev, h, hdev, -⟩
    rw [foundIn, h, ok_bind] at hfound
    exact absurd (hfound.symm.trans hdev) (by simp)

end Search

end RsMatter
