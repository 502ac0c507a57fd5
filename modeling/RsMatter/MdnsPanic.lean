import RsMatter.MdnsQuerier

/-!
# Which responses make discovery panic

The strings of the querier are smaller than what may stand in a DNS message: a name has up
to 255 bytes and a TXT value up to 253. For each function the exact condition is given
under which it goes through; the conditions of a whole response are those of its records,
each in the light of the device names that the records before it made known.
-/

namespace RsMatter

/-! ## The value setter -/

/-- The value of a TXT item has room in the string it is written into. -/
structure ValueFits (key value : String) : Prop where
  instruction : toAsciiLowercase key = "pi" → value.utf8ByteSize ≤ 128
  name : toAsciiLowercase key = "dn" → value.utf8ByteSize ≤ 32

/-- The value of an item `key=value` of a TXT record fits, if both are text. -/
def ItemFits (item : List UInt8) : Prop :=
  ∀ k v key value, item = k ++ 61 :: v → (61 : UInt8) ∉ k → fromUtf8 k = some key →
    fromUtf8 v = some value → ValueFits key value

theorem write_new_returns {n : ℕ} (text : String) :
    ReturnsIff ((HString.new : HString n).write text) (text.utf8ByteSize ≤ n)
      fun s => s.1 = text := by
  rw [HString.write]
  split
  case isTrue h => exact .inl ⟨by simpa [HString.new] using h, _, rfl, by simp [HString.new]⟩
  case isFalse h => exact .inr ⟨fun hle => h (by simpa [HString.new] using hle), rfl⟩

variable {A : ℕ}

namespace DiscoveredDevice

/-- What TXT records say nothing about: the instance name and the addresses. -/
def place (dev : DiscoveredDevice A) : HString 128 × HVec IpAddr A :=
  (dev.instanceName, dev.addresses)

/-- **The value setter** panics exactly on a pairing instruction or a device name that is
too long, and leaves instance name and addresses as they are. -/
theorem setTxtValue_returns (dev : DiscoveredDevice A) (key value : String) :
    ReturnsIff (dev.setTxtValue key value) (ValueFits key value)
      fun dev' => dev'.place = dev.place := by
  -- every key but two only reads the value
  have hother (x : DiscoveredDevice A) (hx : x.place = dev.place)
      (hpi : toAsciiLowercase key ≠ "pi") (hdn : toAsciiLowercase key ≠ "dn") :
      ReturnsIff (.ok x : Except (Stop ErrorCode) _) (ValueFits key value)
        fun dev' => dev'.place = dev.place :=
    returnsIff_ok ⟨fun h => absurd h hpi, fun h => absurd h hdn⟩ hx
  rw [setTxtValue]
  simp only
  by_cases hpi : toAsciiLowercase key = "pi"
  · simp only [hpi, String.reduceEq, if_false, if_true]
    refine ((write_new_returns value).map fun s _ => ?_).congr
      ⟨fun h => ?_, fun h => h.instruction hpi⟩ fun _ h => h
    · rfl
    · exact ⟨fun _ => h, fun hdn => absurd (hpi.symm.trans hdn) (by decide)⟩
  by_cases hdn : toAsciiLowercase key = "dn"
  · simp only [hdn, String.reduceEq, if_false, if_true]
    refine ((write_new_returns value).map fun s _ => ?_).congr
      ⟨fun h => ?_, fun h => h.name hdn⟩ fun _ h => h
    · rfl
    · exact ⟨fun hpi' => absurd hpi' hpi, fun _ => h⟩
  rw [if_neg hpi, if_neg hdn]
  repeat' split
  all_goals exact hother _ rfl hpi hdn

/-- Adding an address always has a result: there is room for it once the last one is out. -/
theorem addAddress_returns (dev : DiscoveredDevice A) (addr : IpAddr) :
    ReturnsIff (dev.addAddress addr) True fun dev' => dev'.instanceName = dev.instanceName := by
  rw [addAddress]
  split
  · exact returnsIff_ok trivial rfl
  simp only
  split
  case isFalse => exact returnsIff_ok trivial rfl
  case isTrue hpos =>
    have hle : dev.addresses.1.findIdx (fun a => scoreIpAddress a < scoreIpAddress addr) ≤
        dev.addresses.1.length := List.findIdx_le_length
    have hcap := dev.addresses.2
    rw [HVec.insert, dif_pos]
    · exact returnsIff_ok trivial rfl
    · split
      · rw [HVec.pop, List.length_dropLast]
        omega
      · omega

theorem setInstanceName_returns (name : String) :
    ReturnsIff ((new : DiscoveredDevice A).setInstanceName name) (name.utf8ByteSize ≤ 128)
      fun dev => dev.instanceName.1 = name :=
  (write_new_returns name).map fun _ hs => hs

end DiscoveredDevice

/-! ## Items of TXT records -/

theorem span_equals {k : List UInt8} (hk : (61 : UInt8) ∉ k) (v : List UInt8) :
    (k ++ 61 :: v).span (· ≠ 61) = (k, 61 :: v) := by
  have hne : ∀ b ∈ k, decide (b ≠ 61) = true := fun b hb =>
    decide_eq_true fun h => hk (h ▸ hb)
  rw [List.span_eq_takeWhile_dropWhile, List.takeWhile_append_of_pos hne,
    List.dropWhile_append_of_pos hne]
  simp

theorem span_of_not_mem {item : List UInt8} (h : (61 : UInt8) ∉ item) :
    item.span (· ≠ 61) = (item, []) := by
  have hne : ∀ b ∈ item, decide (b ≠ 61) = true := fun b hb =>
    decide_eq_true fun heq => h (heq ▸ hb)
  rw [List.span_eq_takeWhile_dropWhile, List.takeWhile_eq_self_iff.mpr hne,
    List.dropWhile_eq_nil_iff.mpr hne]

theorem itemFits_iff {k v : List UInt8} (hk : (61 : UInt8) ∉ k) :
    ItemFits (k ++ 61 :: v) ↔ ∀ key value, fromUtf8 k = some key → fromUtf8 v = some value →
      ValueFits key value := by
  constructor
  · intro h key value hkey hvalue
    exact h k v key value rfl hk hkey hvalue
  · intro h k' v' key value heq hk' hkey hvalue
    have hspan : (k, 61 :: v) = (k', 61 :: v') := by
      rw [← span_equals hk v, heq, span_equals hk' v']
    obtain ⟨rfl, hv⟩ := Prod.mk.inj hspan
    obtain ⟨_, rfl⟩ := List.cons.inj hv
    exact h key value hkey hvalue

/-- **An item** panics exactly when its value has no room. -/
theorem parseTxtItem_returns (dev : DiscoveredDevice A) (item : List UInt8) :
    ReturnsIff (parseTxtItem dev item) (ItemFits item) fun dev' => dev'.place = dev.place := by
  by_cases hmem : (61 : UInt8) ∈ item
  · obtain ⟨k, v, rfl, hk⟩ := List.eq_append_cons_of_mem hmem
    rw [parseTxtItem, span_equals hk, itemFits_iff hk]
    simp only
    cases hkey : fromUtf8 k with
    | none => exact returnsIff_ok (by simp) rfl
    | some key =>
      cases hvalue : fromUtf8 v with
      | none => exact returnsIff_ok (by simp) rfl
      | some value => exact (dev.setTxtValue_returns key value).congr (by simp) fun _ h => h
  · rw [parseTxtItem, span_of_not_mem hmem]
    refine returnsIff_ok ?_ rfl
    rintro k v key value rfl
    exact absurd (List.mem_append_right k List.mem_cons_self) hmem

theorem parseTxtRecord_returns (txt : List (List UInt8)) (dev : DiscoveredDevice A) :
    ReturnsIff (parseTxtRecord txt dev) (∀ item ∈ txt, ItemFits item)
      fun dev' => dev'.place = dev.place := by
  refine (ReturnsIff.foldlM (fun dev : DiscoveredDevice A => dev.place)
    (fun place (_ : List UInt8) => place) (fun _ item => ItemFits item)
    (fun dev item => parseTxtItem_returns dev item) dev txt).congr ?_ fun dev' h => ?_
  · constructor
    · intro h item hitem
      obtain ⟨before, after, heq⟩ := List.append_of_mem hitem
      exact h before item after heq
    · intro h before item after heq
      exact h item (heq ▸ List.mem_append_right before List.mem_cons_self)
  · rw [h, List.foldl_fixed]

/-! ## Records -/

def knownNames (states : List (DiscoveryState A)) : List String :=
  states.map fun state => state.device.instanceName.1

def Names (names : List String) (owner : String) : Prop :=
  ∃ name ∈ names, namesMatch owner name = true

/-- What a record of an owner says has room in the strings it is written into. -/
structure DataFits (dns : Dns) (names : List String) (owner : String) (data : RData) :
    Prop where
  target : ∀ priority weight port target, data = .srv priority weight port target →
    (dns.display target).utf8ByteSize ≤ 72
  /-- the host name of an SRV record of a known device -/
  host : ∀ priority weight port target, data = .srv priority weight port target →
    Names names owner → (trimEndDots (dns.display target)).utf8ByteSize ≤ 64
  /-- the items of a TXT record of a known device -/
  items : ∀ rdata txt, data = .txt rdata → dns.charStrings rdata = some txt →
    Names names owner → ∀ item ∈ txt, ItemFits item

/-- A record has room: its owner, and what it says. -/
structure RecordFits (dns : Dns) (names : List String) (r : Record) : Prop where
  owner : (dns.display r.owner).utf8ByteSize ≤ 128
  data : DataFits dns names (dns.display r.owner) r.data

/-- The same for a record of the answer section, which may name a device. -/
structure AnswerFits (dns : Dns) (names : List String) (r : Record) : Prop
    extends RecordFits dns names r where
  instance_name : ∀ name, r.data = .ptr name → (dns.display name).utf8ByteSize ≤ 128

/-- The device names known after a record of the answer section, with room for `D`. -/
def learn (dns : Dns) (D : ℕ) (names : List String) (r : Record) : List String :=
  match r.data with
  | .ptr name =>
    if !(names.any fun known => namesMatch known (dns.display name)) ∧ names.length < D then
      names ++ [dns.display name]
    else names
  | _ => names

/-- Changing some states goes through exactly when each change does, and keeps the names
when each change does. -/
theorem forMatching_returns {p : DiscoveryState A → Bool}
    {f : DiscoveryState A → Except (Stop ErrorCode) (DiscoveryState A)} {C : Prop}
    (hf : ∀ state, ReturnsIff (f state) C
      fun state' => state'.device.instanceName = state.device.instanceName)
    (states : List (DiscoveryState A)) :
    ReturnsIff (forMatching p f states) ((∃ state ∈ states, p state = true) → C)
      fun states' => knownNames states' = knownNames states := by
  have hbody : ∀ state ∈ states, ReturnsIff (if p state then f state else .ok state)
      (p state = true → C)
      fun state' => state'.device.instanceName = state.device.instanceName := by
    intro state _
    by_cases hp : p state = true
    · rw [if_pos hp]
      exact (hf state).congr (by simp [hp]) fun _ h => h
    · rw [if_neg hp]
      exact returnsIff_ok (by simp [hp]) rfl
  refine (ReturnsIff.mapM hbody).congr (by simp) fun states' h => ?_
  have hnames : List.Forall₂ (fun state state' : DiscoveryState A =>
      state.device.instanceName.1 = state'.device.instanceName.1) states states' :=
    h.imp fun _ _ heq => by rw [heq]
  rw [knownNames, knownNames, eq_comm, ← List.forall₂_eq_eq_eq, List.forall₂_map_left_iff,
    List.forall₂_map_right_iff]
  exact hnames

theorem exists_namesMatch {states : List (DiscoveryState A)} {owner : String} :
    (∃ state ∈ states, namesMatch owner state.device.instanceName.1 = true) ↔
      Names (knownNames states) owner := by
  simp [Names, knownNames]

theorem processSrv_returns (owner : String) (port : BitVec 16) (target : String)
    (states : List (DiscoveryState A)) :
    ReturnsIff (processSrv owner port target states)
      (Names (knownNames states) owner → (trimEndDots target).utf8ByteSize ≤ 64)
      fun states' => knownNames states' = knownNames states := by
  refine (forMatching_returns (fun state => ?_) states).congr
    (imp_congr_left exists_namesMatch) fun _ h => h
  exact (write_new_returns _).map fun _ _ => rfl

theorem processTxt_returns (owner : String) (txt : List (List UInt8))
    (states : List (DiscoveryState A)) :
    ReturnsIff (processTxt owner txt states)
      (Names (knownNames states) owner → ∀ item ∈ txt, ItemFits item)
      fun states' => knownNames states' = knownNames states := by
  refine (forMatching_returns (fun state => ?_) states).congr
    (imp_congr_left exists_namesMatch) fun _ h => h
  exact (parseTxtRecord_returns txt state.device).map fun _ h => (Prod.mk.inj h).1

theorem processAddress_returns (owner : String) (ip : IpAddr)
    (states : List (DiscoveryState A)) :
    ReturnsIff (processAddress owner ip states) True
      fun states' => knownNames states' = knownNames states := by
  refine (forMatching_returns (fun state => ?_) states).congr (iff_true_intro fun _ => trivial)
    fun _ h => h
  exact (state.device.addAddress_returns ip).map fun _ h => h

/-- **A record** other than a PTR panics exactly when something it says has no room. -/
theorem processRecord_returns (dns : Dns) (owner : String) (data : RData)
    (states : List (DiscoveryState A)) :
    ReturnsIff (processRecord dns owner data states)
      (DataFits dns (knownNames states) owner data)
      fun states' => knownNames states' = knownNames states := by
  cases data with
  | ptr name => exact returnsIff_ok ⟨by simp, by simp, by simp⟩ rfl
  | other code rdata => exact returnsIff_ok ⟨by simp, by simp, by simp⟩ rfl
  | a addr =>
    exact (processAddress_returns owner (.v4 addr) states).congr
      (iff_of_true trivial ⟨by simp, by simp, by simp⟩) fun _ h => h
  | aaaa addr =>
    exact (processAddress_returns owner (.v6 addr) states).congr
      (iff_of_true trivial ⟨by simp, by simp, by simp⟩) fun _ h => h
  | srv priority weight port target =>
    have hprocess (s : HString 72) (hs : s.1 = dns.display target) :
        ReturnsIff (processSrv owner port s.1 states)
          (Names (knownNames states) owner →
            (trimEndDots (dns.display target)).utf8ByteSize ≤ 64)
          fun states' => knownNames states' = knownNames states := by
      rw [hs]
      exact processSrv_returns owner port (dns.display target) states
    refine ((write_new_returns (dns.display target)).bind hprocess).congr ?_ fun _ h => h
    constructor
    · rintro ⟨htarget, hhost⟩
      refine ⟨?_, ?_, by simp⟩
      · rintro _ _ _ _ ⟨⟩
        exact htarget
      · rintro _ _ _ _ ⟨⟩
        exact hhost
    · intro h
      exact ⟨h.target _ _ _ _ rfl, h.host _ _ _ _ rfl⟩
  | txt rdata =>
    rw [processRecord]
    cases htxt : dns.charStrings rdata with
    | none =>
      refine returnsIff_ok ⟨by simp, by simp, ?_⟩ rfl
      rintro _ txt ⟨⟩ hsome
      rw [htxt] at hsome
      cases hsome
    | some txt =>
      refine (processTxt_returns owner txt states).congr ?_ fun _ h => h
      constructor
      · intro hitems
        refine ⟨by simp, by simp, ?_⟩
        rintro _ txt' ⟨⟩ hsome
        rw [htxt] at hsome
        obtain rfl := Option.some.inj hsome
        exact hitems
      · intro h
        exact h.items rdata txt rfl htxt

theorem processAdditional_returns (dns : Dns) (r : Record) (states : List (DiscoveryState A)) :
    ReturnsIff (processAdditional dns states r) (RecordFits dns (knownNames states) r)
      fun states' => knownNames states' = knownNames states := by
  have hprocess (s : HString 128) (hs : s.1 = dns.display r.owner) :
      ReturnsIff (processRecord dns s.1 r.data states)
        (DataFits dns (knownNames states) (dns.display r.owner) r.data)
        fun states' => knownNames states' = knownNames states :=
    hs ▸ processRecord_returns dns s.1 r.data states
  refine ((write_new_returns (dns.display r.owner)).bind hprocess).congr ?_ fun _ h => h
  exact ⟨fun h => ⟨h.1, h.2⟩, fun h => ⟨h.owner, h.data⟩⟩

theorem processPtr_returns (D : ℕ) (name : String) (hname : name.utf8ByteSize ≤ 128)
    (states : List (DiscoveryState A)) :
    ReturnsIff (processPtr D name states) True fun states' =>
      knownNames states' =
        if !((knownNames states).any fun known => namesMatch known name) ∧
            (knownNames states).length < D then knownNames states ++ [name]
        else knownNames states := by
  have hany : ((knownNames states).any fun known => namesMatch known name) =
      states.any fun state => namesMatch state.device.instanceName.1 name := by
    rw [knownNames, List.any_map]
    rfl
  have hlength : (knownNames states).length = states.length := List.length_map _
  rw [processPtr, hany, hlength]
  split
  · refine ((DiscoveredDevice.setInstanceName_returns name).map fun dev hdev => ?_).congr
      (iff_true_intro hname) fun _ h => h
    simp [knownNames, hdev]
  · exact returnsIff_ok trivial rfl

/-- **A record of the answer section** panics exactly when something in it has no room, and
a PTR record makes its device known. -/
theorem processAnswer_returns (dns : Dns) (D : ℕ) (states : List (DiscoveryState A))
    (r : Record) :
    ReturnsIff (processAnswer dns D states r) (AnswerFits dns (knownNames states) r)
      fun states' => knownNames states' = learn dns D (knownNames states) r := by
  -- all records but PTR are treated as in the additional section
  have hother (hptr : ∀ name, r.data ≠ .ptr name)
      (hsame : processAnswer dns D states r = processAdditional dns states r)
      (hlearn : learn dns D (knownNames states) r = knownNames states) :
      ReturnsIff (processAnswer dns D states r) (AnswerFits dns (knownNames states) r)
        fun states' => knownNames states' = learn dns D (knownNames states) r := by
    rw [hsame, hlearn]
    exact (processAdditional_returns dns r states).congr
      ⟨fun h => ⟨h, fun name hname => absurd hname (hptr name)⟩, fun h => h.toRecordFits⟩
      fun _ h => h
  obtain ⟨owner, cls, ttl, data⟩ := r
  cases data with
  | srv priority weight port target => exact hother (by simp) rfl rfl
  | txt rdata => exact hother (by simp) rfl rfl
  | a addr => exact hother (by simp) rfl rfl
  | aaaa addr => exact hother (by simp) rfl rfl
  | other code rdata => exact hother (by simp) rfl rfl
  | ptr name =>
    have hprocess (s : HString 128) (hs : s.1 = dns.display name) :
        ReturnsIff (processPtr D s.1 states) True fun states' =>
          knownNames states' = learn dns D (knownNames states) ⟨owner, cls, ttl, .ptr name⟩ := by
      simp only [learn]
      rw [← hs]
      exact processPtr_returns D s.1 s.2 states
    refine ((write_new_returns (dns.display owner)).bind fun _ _ =>
      (write_new_returns (dns.display name)).bind hprocess).congr ?_ fun _ h => h
    constructor
    · rintro ⟨howner, hname, -⟩
      refine ⟨⟨howner, ⟨by simp, by simp, by simp⟩⟩, ?_⟩
      rintro _ ⟨⟩
      exact hname
    · intro h
      exact ⟨h.owner, h.instance_name name rfl, trivial⟩

/-! ## Responses -/

/-- Everything in a response has room where it is written, each record being looked at in
the light of the device names known when it is reached: the names known before, and those
of the PTR records in front of it. -/
structure ResponseFits (dns : Dns) (D : ℕ) (names : List String) (m : Message) : Prop where
  answer : ∀ before r after, m.answer = before ++ r :: after →
    AnswerFits dns (before.foldl (learn dns D) names) r
  additional : ∀ r ∈ m.additional, RecordFits dns (m.answer.foldl (learn dns D) names) r

theorem additional_returns (dns : Dns) (records : List Record)
    (states : List (DiscoveryState A)) :
    ReturnsIff (records.foldlM (processAdditional dns) states)
      (∀ r ∈ records, RecordFits dns (knownNames states) r)
      fun states' => knownNames states' = knownNames states := by
  refine (ReturnsIff.foldlM knownNames (fun names (_ : Record) => names) (RecordFits dns)
    (fun states r => processAdditional_returns dns r states) states records).congr ?_
    fun states' h => ?_
  · constructor
    · intro h r hr
      obtain ⟨before, after, heq⟩ := List.append_of_mem hr
      simpa using h before r after heq
    · intro h before r after heq
      simpa using h r (heq ▸ List.mem_append_right before List.mem_cons_self)
  · rw [h, List.foldl_fixed]

/-- **Panics of discovery.** A datagram makes `parse_response` panic exactly when it is a
response and something in it has no room in the string it is written into. -/
theorem noPanic_parseResponse_iff (dns : Dns) (D : ℕ) (data : Option Message)
    (states : List (DiscoveryState A)) :
    NoPanic (parseResponse dns D data states) ↔
      ∀ m, data = some m → m.qr = true → ResponseFits dns D (knownNames states) m := by
  cases data with
  | none => exact iff_of_true (noPanic_error _) (by simp)
  | some m =>
    rw [parseResponse]
    cases hqr : m.qr with
    | false => exact iff_of_true (noPanic_ok _) (by simp [hqr])
    | true =>
      have hanswer := ReturnsIff.foldlM knownNames (learn dns D) (AnswerFits dns)
        (fun states r => processAnswer_returns dns D states r) states m.answer
      have hadditional (states' : List (DiscoveryState A))
          (hnames : knownNames states' = m.answer.foldl (learn dns D) (knownNames states)) :
          ReturnsIff (m.additional.foldlM (processAdditional dns) states')
            (∀ r ∈ m.additional,
              RecordFits dns (m.answer.foldl (learn dns D) (knownNames states)) r)
            fun _ => True := by
        rw [← hnames]
        exact (additional_returns dns m.additional states').congr Iff.rfl fun _ _ => trivial
      refine (hanswer.bind hadditional).noPanic_iff.trans ?_
      constructor
      · rintro ⟨h1, h2⟩ m' ⟨⟩ -
        exact ⟨h1, h2⟩
      · intro h
        have hfits := h m rfl hqr
        exact ⟨hfits.answer, hfits.additional⟩

/-! ## A name that is too long -/

/-- The library on names of letters, digits, hyphens and underscores, which it prints as
they are. -/
def plainDns : Dns where
  display name := String.intercalate "."
    (name.map fun label => String.ofList (label.map fun b => Char.ofNat b.toNat))
  fromChars text := some ((text.toList.splitOn '.').map fun cs => utf8Bytes (String.ofList cs))
  size m := 12 + (m.answer ++ m.additional).length
  charStrings rdata := charStringsIn rdata.length rdata
where
  /-- The character strings, with `fuel` for their number. -/
  charStringsIn : ℕ → List UInt8 → Option (List (List UInt8))
    | _, [] => some []
    | 0, _ :: _ => none
    | fuel + 1, n :: bytes =>
      if n.toNat ≤ bytes.length then
        (charStringsIn fuel (bytes.drop n.toNat)).map (bytes.take n.toNat :: ·)
      else none

/-- A response with one A record, whose owner has three labels of 63 bytes: 193 bytes of
the 255 that a name may have. -/
def longOwner : Message where
  id := 0
  qr := true
  aa := true
  questions := []
  answer := [⟨List.replicate 3 (List.replicate 63 97), classIn, 120, .a 0xC0A80001⟩]
  additional := []

/-- A single record that nobody asked for makes discovery panic. -/
theorem parseResponse_panics_longOwner :
    ¬ ∀ (D : ℕ) (data : Option Message) (states : List (DiscoveryState 4)),
      NoPanic (parseResponse plainDns D data states) := by
  intro h
  have hno := h 8 (some longOwner) []
  have hpanic : parseResponse plainDns 8 (some longOwner) ([] : List (DiscoveryState 4)) =
      .error .panic := by decide +kernel
  exact hno hpanic

end RsMatter
