/-
# Trust policies

The trust section of a configuration (`internal/config/schema.go`) and the payload of
`/domain/trust` events (`internal/daemon/trust_resource.go`): normal form, validation,
comparison through JSON, and the payload's JSON in both directions.

* `trustConfigsEqual_iff` : the comparison compares normal forms;
* `parseDomainTrustPayload_domainTrustPayload` : a written payload reads back as the
  normal form of its policy.
-/
import TrustIX.ConfigEvent
import TrustIX.Pki

namespace TrustPolicy

open Pki JsonText GoJson Fallible

/-! ## Policies -/

structure AdminPolicyConfig where
  threshold : Int64
  allowedFingerprints : List String
  deriving DecidableEq

structure TrustConfig where
  revokedCertFingerprints : List String
  trustRootsPEM : List String
  adminPolicy : AdminPolicyConfig
  deriving DecidableEq

/-- `config.TrustConfig{}`. -/
def emptyTrust : TrustConfig := ⟨[], [], ⟨0, []⟩⟩

def effectiveAdminThreshold (trust : TrustConfig) : Int64 :=
  if trust.adminPolicy.threshold > 0 then trust.adminPolicy.threshold else 1

section Normal

variable (crypto : Crypto)

/-- A fingerprint in normal form; what is none is only trimmed. -/
def normalizeEntry (raw : String) : String :=
  match normalizeCertificateFingerprintSHA256 raw with
  | .ok fingerprint => fingerprint
  | .error _ => GoText.trimSpace raw

theorem normalizeCertificateFingerprintSHA256_normalizeEntry {raw fingerprint : String} :
    normalizeCertificateFingerprintSHA256 (normalizeEntry raw) = .ok fingerprint ↔
      normalizeCertificateFingerprintSHA256 raw = .ok fingerprint := by
  unfold normalizeEntry
  cases h : normalizeCertificateFingerprintSHA256 raw with
  | ok normal =>
    simp [normalizeCertificateFingerprintSHA256_idem h]
  | error err =>
    simp [normalizeCertificateFingerprintSHA256_trimSpace, h]

/-- `sort.Strings`: the order of UTF-8 bytes is that of code points. -/
def sortStrings (items : List String) : List String := items.insertionSort (· ≤ ·)

/-- A root's sort key and its PEM text in normal form. -/
def normalizeRoot (raw : String) : String × String :=
  match crypto.parseCertificatePEM raw with
  | .ok cert => (crypto.fingerprint cert, crypto.encodePEM cert.raw)
  | .error _ => (GoText.trimSpace raw, GoText.trimSpace raw)

def normalizeTrust (trust : TrustConfig) : TrustConfig where
  revokedCertFingerprints := sortStrings (trust.revokedCertFingerprints.map normalizeEntry)
  trustRootsPEM :=
    ((trust.trustRootsPEM.map (normalizeRoot crypto)).insertionSort fun a b => a.1 ≤ b.1).map
      Prod.snd
  adminPolicy :=
    { threshold := trust.adminPolicy.threshold
      allowedFingerprints :=
        sortStrings (trust.adminPolicy.allowedFingerprints.map normalizeEntry) }

/-! ## Validation -/

/-- The keys of the items, which must differ. -/
def collectDistinct {α : Type} (key : α → Except String String) (duplicate : String → String)
    (items : List α) : Except String (List String) :=
  items.foldlM (fun seen item => do
    let k ← key item
    if k ∈ seen then .error (duplicate k) else .ok (seen ++ [k])) []

/-- A root of a policy must be a CA certificate. -/
def rootKey (entry : String × ℕ) : Except String String := do
  let cert ← (crypto.parseCertificatePEM entry.1).mapError
    (fun err => "trust trust_roots_pem entry " ++ toString entry.2 ++ ": " ++ err)
  if !cert.isCA then
    .error ("trust trust_roots_pem entry " ++ toString entry.2 ++ " is not a CA certificate")
  else .ok (crypto.fingerprint cert)

/-- `TrustConfig.Validate`. -/
def TrustConfig.validate (trust : TrustConfig) : Except String Unit := do
  let _ ← collectDistinct
    (fun raw => (normalizeCertificateFingerprintSHA256 raw).mapError
      (fun err => "trust revoked_cert_fingerprints entry " ++ raw.quote ++ ": " ++ err))
    (fun fingerprint => "duplicate revoked certificate fingerprint " ++ fingerprint.quote)
    trust.revokedCertFingerprints
  if trust.adminPolicy.threshold < 0 then
    .error "trust admin_policy threshold must be non-negative"
  else do
    let adminSeen ← collectDistinct
      (fun raw => (normalizeCertificateFingerprintSHA256 raw).mapError
        (fun err => "trust admin_policy allowed_fingerprints entry " ++ raw.quote ++ ": " ++ err))
      (fun fingerprint => "duplicate admin policy fingerprint " ++ fingerprint.quote)
      trust.adminPolicy.allowedFingerprints
    if 0 < adminSeen.length ∧ (effectiveAdminThreshold trust).toInt > adminSeen.length then
      .error ("trust admin_policy threshold " ++ toString (effectiveAdminThreshold trust) ++
        " exceeds " ++ toString adminSeen.length ++ " allowed admin fingerprints")
    else do
      let _ ← collectDistinct (rootKey crypto)
        (fun fingerprint => "duplicate trust root fingerprint " ++ fingerprint.quote)
        trust.trustRootsPEM.zipIdx
      .ok ()

end Normal

/-! ## JSON -/

inductive PolicyField where
  | threshold
  | allowedFingerprints
  deriving DecidableEq

def PolicyField.name : PolicyField → String
  | .threshold => "threshold"
  | .allowedFingerprints => "allowed_fingerprints"

def PolicyField.ofKey (key : List Char) : Option PolicyField :=
  [PolicyField.threshold, .allowedFingerprints].find? (fun f => keyMatches f.name key)

inductive TrustField where
  | revokedCertFingerprints
  | trustRootsPEM
  | adminPolicy
  deriving DecidableEq

def TrustField.name : TrustField → String
  | .revokedCertFingerprints => "revoked_cert_fingerprints"
  | .trustRootsPEM => "trust_roots_pem"
  | .adminPolicy => "admin_policy"

def TrustField.ofKey (key : List Char) : Option TrustField :=
  [TrustField.revokedCertFingerprints, .trustRootsPEM, .adminPolicy].find?
    (fun f => keyMatches f.name key)

/-- A list with `omitempty`. -/
def stringsField (name : String) : List String → List (List Char × Json)
  | [] => []
  | items => [field name (strings items)]

/-- A number with `omitempty`. -/
def intField (name : String) (n : Int64) : List (List Char × Json) :=
  if n = 0 then [] else [field name (int n.toInt)]

def AdminPolicyConfig.toJson (policy : AdminPolicyConfig) : Json :=
  object (intField PolicyField.threshold.name policy.threshold ++
    stringsField PolicyField.allowedFingerprints.name policy.allowedFingerprints)

def TrustConfig.toJson (trust : TrustConfig) : Json :=
  object (stringsField TrustField.revokedCertFingerprints.name trust.revokedCertFingerprints ++
    (stringsField TrustField.trustRootsPEM.name trust.trustRootsPEM ++
      [field TrustField.adminPolicy.name trust.adminPolicy.toJson]))

def AdminPolicyConfig.set (f : PolicyField) (v : Json) (policy : AdminPolicyConfig) :
    Except String AdminPolicyConfig :=
  match f with
  | .threshold => (decodeInt policy.threshold v).map fun x => { policy with threshold := x }
  | .allowedFingerprints =>
    (decodeStrings v).map fun x => { policy with allowedFingerprints := x }

/-- The members of an object, written over a policy. -/
def decodePolicy (policy : AdminPolicyConfig) : Json → Except String AdminPolicyConfig :=
  decodeObject PolicyField.ofKey AdminPolicyConfig.set policy

def TrustConfig.set (f : TrustField) (v : Json) (trust : TrustConfig) :
    Except String TrustConfig :=
  match f with
  | .revokedCertFingerprints =>
    (decodeStrings v).map fun x => { trust with revokedCertFingerprints := x }
  | .trustRootsPEM => (decodeStrings v).map fun x => { trust with trustRootsPEM := x }
  | .adminPolicy => (decodePolicy trust.adminPolicy v).map fun x => { trust with adminPolicy := x }

def decodeTrust (trust : TrustConfig) : Json → Except String TrustConfig :=
  decodeObject TrustField.ofKey TrustConfig.set trust

/-! ### The codec of a policy -/

theorem PolicyField.ofKey_name (f : PolicyField) : PolicyField.ofKey f.name.toList = some f := by
  cases f <;> decide

theorem TrustField.ofKey_name (f : TrustField) : TrustField.ofKey f.name.toList = some f := by
  cases f <;> decide

@[simp] theorem PolicyField.validToken_name (f : PolicyField) : ValidToken f.name.toList := by
  cases f <;> exact GoJson.validToken_name (by decide)

@[simp] theorem TrustField.validToken_name (f : TrustField) : ValidToken f.name.toList := by
  cases f <;> exact GoJson.validToken_name (by decide)

/-- What decoding makes of a list that may be left out: an absent list stays empty. -/
theorem foldlM_stringsField {F α : Type} {resolve : List Char → Option F} {f : F}
    {name : String} (hname : resolve name.toList = some f)
    (set : F → Json → α → Except String α) (get : α → List String) (put : List String → α → α)
    (hset : ∀ v value, set f v value = (decodeStrings v).map fun x => put x value)
    (hput : ∀ value, get value = [] → put [] value = value) (items : List String) (value : α)
    (hvalue : get value = []) (rest : List (List Char × Json)) :
    (stringsField name items ++ rest).foldlM (decodeMember resolve set) value
      = rest.foldlM (decodeMember resolve set) (put items value) := by
  cases items with
  | nil => rw [stringsField, List.nil_append, hput value hvalue]
  | cons s items =>
    rw [stringsField, List.singleton_append, List.foldlM_cons,
      decodeMember_field hname, hset, decodeStrings_strings]
    · rfl
    · simp

theorem foldlM_intField {F α : Type} {resolve : List Char → Option F} {f : F} {name : String}
    (hname : resolve name.toList = some f) (set : F → Json → α → Except String α)
    (get : α → Int64) (put : Int64 → α → α)
    (hset : ∀ v value, set f v value = (decodeInt (get value) v).map fun x => put x value)
    (hput : ∀ value, get value = 0 → put 0 value = value) (n : Int64) (value : α)
    (hvalue : get value = 0) (rest : List (List Char × Json)) :
    (intField name n ++ rest).foldlM (decodeMember resolve set) value
      = rest.foldlM (decodeMember resolve set) (put n value) := by
  unfold intField
  split_ifs with hzero
  · rw [List.nil_append, hzero, hput value hvalue]
  · rw [List.singleton_append, List.foldlM_cons, decodeMember_field hname, hset, decodeInt_int]
    rfl

theorem decodePolicy_toJson (policy : AdminPolicyConfig) :
    decodePolicy ⟨0, []⟩ policy.toJson = .ok policy := by
  have hallowed := foldlM_stringsField (PolicyField.ofKey_name .allowedFingerprints)
    AdminPolicyConfig.set AdminPolicyConfig.allowedFingerprints
    (fun x p => { p with allowedFingerprints := x }) (fun _ _ => rfl)
    (fun p hp => by cases p; simp_all) policy.allowedFingerprints ⟨policy.threshold, []⟩ rfl []
  rw [List.append_nil] at hallowed
  rw [decodePolicy, AdminPolicyConfig.toJson, decodeObject_object,
    foldlM_intField (PolicyField.ofKey_name .threshold) AdminPolicyConfig.set
      AdminPolicyConfig.threshold (fun x p => { p with threshold := x }) (fun _ _ => rfl)
      (fun p hp => by cases p; simp_all) policy.threshold ⟨0, []⟩ rfl, hallowed]
  rfl

theorem decodeTrust_toJson (trust : TrustConfig) :
    decodeTrust emptyTrust trust.toJson = .ok trust := by
  rw [decodeTrust, TrustConfig.toJson, decodeObject_object,
    foldlM_stringsField (TrustField.ofKey_name .revokedCertFingerprints)
      TrustConfig.set TrustConfig.revokedCertFingerprints
      (fun x t => { t with revokedCertFingerprints := x }) (fun _ _ => rfl)
      (fun t ht => by cases t; simp_all) trust.revokedCertFingerprints emptyTrust rfl,
    foldlM_stringsField (TrustField.ofKey_name .trustRootsPEM)
      TrustConfig.set TrustConfig.trustRootsPEM (fun x t => { t with trustRootsPEM := x })
      (fun _ _ => rfl) (fun t ht => by cases t; simp_all) trust.trustRootsPEM
      { emptyTrust with revokedCertFingerprints := trust.revokedCertFingerprints } rfl,
    List.foldlM_cons, decodeMember_field (TrustField.ofKey_name .adminPolicy), TrustConfig.set]
  have hpolicy := decodePolicy_toJson trust.adminPolicy
  rw [show emptyTrust.adminPolicy = ⟨0, []⟩ from rfl, hpolicy]
  rfl

theorem TrustConfig.toJson_injective : Function.Injective TrustConfig.toJson := by
  intro t t' h
  have hdecode := decodeTrust_toJson t
  rw [h, decodeTrust_toJson] at hdecode
  injection hdecode with hdecode
  exact hdecode.symm

@[simp] theorem validFields_stringsField {name : String} {items : List String}
    (h : ValidToken name.toList) : ValidFields (stringsField name items) := by
  cases items with
  | nil => exact validFields_nil
  | cons s items => simp [stringsField, h]

theorem AdminPolicyConfig.valid_toJson (policy : AdminPolicyConfig) : policy.toJson.Valid := by
  refine valid_object (validFields_append.mpr ⟨?_, by simp⟩)
  unfold intField
  split_ifs <;> simp

theorem TrustConfig.valid_toJson (trust : TrustConfig) : trust.toJson.Valid :=
  valid_object (by simp [trust.adminPolicy.valid_toJson])

/-! ## Comparison -/

/-- `trustConfigsEqual`. -/
def trustConfigsEqual (crypto : Crypto) (left right : TrustConfig) : Bool :=
  (normalizeTrust crypto left).toJson.print == (normalizeTrust crypto right).toJson.print

/-- **The comparison compares normal forms.** -/
theorem trustConfigsEqual_iff {crypto : Crypto} {left right : TrustConfig} :
    trustConfigsEqual crypto left right = true ↔
      normalizeTrust crypto left = normalizeTrust crypto right := by
  unfold trustConfigsEqual
  rw [beq_iff_eq]
  constructor
  · intro h
    exact TrustConfig.toJson_injective
      (print_injective (TrustConfig.valid_toJson _) (TrustConfig.valid_toJson _) h)
  · intro h
    rw [h]

/-! ## The payload of trust events -/

/-- `domainTrustResource`. -/
def domainTrustResource : String := "/domain/trust"

structure DomainTrustPayload where
  version : Int64
  domainID : String
  trustEpoch : ℕ
  effectiveSeq : ℕ
  effectiveAt : GoTime.Time
  revokedCertFingerprints : List String
  trustRootsPEM : List String
  adminPolicy : AdminPolicyConfig
  trust : Option TrustConfig
  deriving DecidableEq

inductive PayloadField where
  | version
  | domainID
  | trustEpoch
  | effectiveSeq
  | effectiveAt
  | revokedCertFingerprints
  | trustRootsPEM
  | adminPolicy
  | trust
  deriving DecidableEq

def PayloadField.name : PayloadField → String
  | .version => "version"
  | .domainID => "domain_id"
  | .trustEpoch => "trust_epoch"
  | .effectiveSeq => "effective_seq"
  | .effectiveAt => "effective_at"
  | .revokedCertFingerprints => "revoked_cert_fingerprints"
  | .trustRootsPEM => "trust_roots_pem"
  | .adminPolicy => "admin_policy"
  | .trust => "trust"

def PayloadField.ofKey (key : List Char) : Option PayloadField :=
  [PayloadField.version, .domainID, .trustEpoch, .effectiveSeq, .effectiveAt,
    .revokedCertFingerprints, .trustRootsPEM, .adminPolicy, .trust].find?
    (fun f => keyMatches f.name key)

/-- A pointer with `omitempty`. -/
def trustPointerField : Option TrustConfig → List (List Char × Json)
  | none => []
  | some trust => [field PayloadField.trust.name trust.toJson]

def DomainTrustPayload.toJson (payload : DomainTrustPayload) : Except String Json := do
  let effectiveAt ← time payload.effectiveAt
  .ok (object
    ([field PayloadField.version.name (int payload.version.toInt),
        field PayloadField.domainID.name (string payload.domainID),
        field PayloadField.trustEpoch.name (nat payload.trustEpoch),
        field PayloadField.effectiveSeq.name (nat payload.effectiveSeq),
        field PayloadField.effectiveAt.name effectiveAt] ++
      (stringsField PayloadField.revokedCertFingerprints.name payload.revokedCertFingerprints ++
        (stringsField PayloadField.trustRootsPEM.name payload.trustRootsPEM ++
          (field PayloadField.adminPolicy.name payload.adminPolicy.toJson ::
            trustPointerField payload.trust)))))

/-- A pointer is allocated when an object comes for it, and cleared by `null`. -/
def decodeTrustPointer (old : Option TrustConfig) : Json → Except String (Option TrustConfig)
  | .null => .ok none
  | v => (decodeTrust (old.getD emptyTrust) v).map some

def DomainTrustPayload.set (f : PayloadField) (v : Json) (payload : DomainTrustPayload) :
    Except String DomainTrustPayload :=
  match f with
  | .version => (decodeInt payload.version v).map fun x => { payload with version := x }
  | .domainID => (decodeString payload.domainID v).map fun x => { payload with domainID := x }
  | .trustEpoch => (decodeNat payload.trustEpoch v).map fun x => { payload with trustEpoch := x }
  | .effectiveSeq =>
    (decodeNat payload.effectiveSeq v).map fun x => { payload with effectiveSeq := x }
  | .effectiveAt =>
    (decodeTime payload.effectiveAt v).map fun x => { payload with effectiveAt := x }
  | .revokedCertFingerprints =>
    (decodeStrings v).map fun x => { payload with revokedCertFingerprints := x }
  | .trustRootsPEM => (decodeStrings v).map fun x => { payload with trustRootsPEM := x }
  | .adminPolicy =>
    (decodePolicy payload.adminPolicy v).map fun x => { payload with adminPolicy := x }
  | .trust => (decodeTrustPointer payload.trust v).map fun x => { payload with trust := x }

def zeroPayload : DomainTrustPayload := ⟨0, "", 0, 0, GoTime.zeroTime, [], [], ⟨0, []⟩, none⟩

def decodePayload : Json → Except String DomainTrustPayload :=
  decodeObject PayloadField.ofKey DomainTrustPayload.set zeroPayload

/-- `json.Unmarshal` of a byte slice. -/
def unmarshal (payload : List UInt8) : Except String Json :=
  match JsonText.parse (GoText.decodeUtf8 payload) with
  | some v => .ok v
  | none => .error "invalid JSON"

section Payload

variable (crypto : Crypto)

/-- The policy a decoded payload carries, before it is normalised. -/
def DomainTrustPayload.policy (payload : DomainTrustPayload) : TrustConfig :=
  payload.trust.getD
    ⟨payload.revokedCertFingerprints, payload.trustRootsPEM, payload.adminPolicy⟩

def parseDomainTrustPayload (payload : List UInt8) (domain : String) :
    Except String TrustConfig := do
  let v ← (unmarshal payload).mapError ("decode domain trust payload: " ++ ·)
  let decoded ← (decodePayload v).mapError ("decode domain trust payload: " ++ ·)
  if decoded.version ≠ 1 ∧ decoded.version ≠ 2 then
    .error ("domain trust payload version is " ++ toString decoded.version ++ ", want 1 or 2")
  else if decoded.domainID ≠ "" ∧ decoded.domainID ≠ domain then
    .error ("domain trust payload domain is " ++ decoded.domainID.quote ++ ", want " ++
      domain.quote)
  else do
    let trust := normalizeTrust crypto decoded.policy
    trust.validate crypto
    .ok trust

/-- `domainTrustPayload`, made at a time. -/
def domainTrustPayload (now : GoTime.Time) (domain : String) (trust : TrustConfig)
    (effectiveSeq : ℕ) : Except String (List UInt8) := do
  let trust := normalizeTrust crypto trust
  trust.validate crypto
  let v ← DomainTrustPayload.toJson
    { version := 2
      domainID := domain
      trustEpoch := effectiveSeq
      effectiveSeq := effectiveSeq
      effectiveAt := now
      revokedCertFingerprints := trust.revokedCertFingerprints
      trustRootsPEM := trust.trustRootsPEM
      adminPolicy := trust.adminPolicy
      trust := some trust }
  .ok (GoText.encodeUtf8 v.print)

end Payload

theorem PayloadField.ofKey_name (f : PayloadField) : PayloadField.ofKey f.name.toList = some f := by
  cases f <;> decide

@[simp] theorem PayloadField.validToken_name (f : PayloadField) : ValidToken f.name.toList := by
  cases f <;> exact GoJson.validToken_name (by decide)

theorem decodePayload_toJson {payload : DomainTrustPayload} {v : Json}
    (h : payload.toJson = .ok v) :
    decodePayload v = .ok { payload with effectiveAt := payload.effectiveAt.truncate } := by
  obtain ⟨effectiveAt, htime, hv⟩ := bind_eq_ok.mp h
  rw [← Except.ok.inj hv, decodePayload, decodeObject_object]
  simp only [List.cons_append, List.nil_append, List.foldlM_cons,
    decodeMember_field (PayloadField.ofKey_name _),
    DomainTrustPayload.set, decodeInt_int, decodeString_string, decodeNat_nat,
    decodeTime_time htime, Except.map, ok_bind]
  rw [foldlM_stringsField (PayloadField.ofKey_name .revokedCertFingerprints)
      DomainTrustPayload.set DomainTrustPayload.revokedCertFingerprints
      (fun x p => { p with revokedCertFingerprints := x }) (fun _ _ => rfl)
      (fun p hp => by cases p; simp_all) payload.revokedCertFingerprints _ rfl,
    foldlM_stringsField (PayloadField.ofKey_name .trustRootsPEM)
      DomainTrustPayload.set DomainTrustPayload.trustRootsPEM
      (fun x p => { p with trustRootsPEM := x }) (fun _ _ => rfl)
      (fun p hp => by cases p; simp_all) payload.trustRootsPEM _ rfl,
    List.foldlM_cons, decodeMember_field (PayloadField.ofKey_name .adminPolicy)]
  simp only [DomainTrustPayload.set, zeroPayload, decodePolicy_toJson, Except.map, ok_bind]
  cases htrust : payload.trust with
  | none =>
    cases payload
    rfl
  | some trust =>
    have hpointer : decodeTrustPointer none trust.toJson = .ok (some trust) := by
      show (decodeTrust (Option.getD none emptyTrust) trust.toJson).map some = _
      rw [Option.getD_none, decodeTrust_toJson]
      rfl
    rw [trustPointerField, List.foldlM_cons,
      decodeMember_field (PayloadField.ofKey_name .trust), DomainTrustPayload.set, hpointer]
    cases payload
    rfl

theorem DomainTrustPayload.valid_toJson {payload : DomainTrustPayload} {v : Json}
    (h : payload.toJson = .ok v) : v.Valid := by
  obtain ⟨effectiveAt, htime, hv⟩ := bind_eq_ok.mp h
  rw [← Except.ok.inj hv]
  refine valid_object ?_
  cases htrust : payload.trust with
  | none => simp [trustPointerField, valid_time htime, payload.adminPolicy.valid_toJson]
  | some trust =>
    simp [trustPointerField, valid_time htime, payload.adminPolicy.valid_toJson, trust.valid_toJson]

theorem unmarshal_encodeUtf8_print {v : Json} (h : v.Valid) :
    unmarshal (GoText.encodeUtf8 v.print) = .ok v := by
  rw [unmarshal, GoText.decodeUtf8_encodeUtf8, parse_print h]

/-- **A written payload reads back** as the policy's normal form, if that is valid. -/
theorem parseDomainTrustPayload_domainTrustPayload {crypto : Crypto} {now : GoTime.Time}
    {domain : String} {trust : TrustConfig} {effectiveSeq : ℕ} {payload : List UInt8}
    (h : domainTrustPayload crypto now domain trust effectiveSeq = .ok payload) :
    parseDomainTrustPayload crypto payload domain = (do
      (normalizeTrust crypto (normalizeTrust crypto trust)).validate crypto
      .ok (normalizeTrust crypto (normalizeTrust crypto trust))) := by
  obtain ⟨-, -, h⟩ := bind_eq_ok.mp h
  obtain ⟨v, hv, h⟩ := bind_eq_ok.mp h
  cases h
  unfold parseDomainTrustPayload
  rw [unmarshal_encodeUtf8_print (DomainTrustPayload.valid_toJson hv), Except.mapError, ok_bind,
    decodePayload_toJson hv, Except.mapError, ok_bind]
  rw [if_neg (fun hversion => hversion.2 rfl), if_neg (fun hdomain => hdomain.2 rfl)]
  rfl

/-- No certificate parses, and no signature verifies. -/
def noCertificates : Crypto :=
  ⟨fun _ => "", fun _ => .error "", fun _ => .error "", fun _ => "", fun _ _ _ => false,
    fun _ _ _ => false⟩

theorem emptyTrust_reads_back :
    ∃ payload, domainTrustPayload noCertificates GoTime.unixEpoch "lab" emptyTrust 1 = .ok payload ∧
      parseDomainTrustPayload noCertificates payload "lab" = .ok emptyTrust := by
  obtain ⟨payload, h⟩ : ∃ payload,
    domainTrustPayload noCertificates GoTime.unixEpoch "lab" emptyTrust 1 = .ok payload := ⟨_, rfl⟩
  exact ⟨payload, h, (parseDomainTrustPayload_domainTrustPayload h).trans rfl⟩

/-- The policy that a payload carries, as it is written there. -/
def carriedPolicy (payload : List UInt8) : Except String TrustConfig := do
  let v ← unmarshal payload
  let decoded ← decodePayload v
  .ok decoded.policy

theorem carriedPolicy_domainTrustPayload {crypto : Crypto} {now : GoTime.Time}
    {domain : String} {trust : TrustConfig} {effectiveSeq : ℕ} {payload : List UInt8}
    (h : domainTrustPayload crypto now domain trust effectiveSeq = .ok payload) :
    carriedPolicy payload = .ok (normalizeTrust crypto trust) := by
  obtain ⟨-, -, h⟩ := bind_eq_ok.mp h
  obtain ⟨v, hv, h⟩ := bind_eq_ok.mp h
  cases h
  unfold carriedPolicy
  rw [unmarshal_encodeUtf8_print (DomainTrustPayload.valid_toJson hv), ok_bind,
    decodePayload_toJson hv]
  rfl

end TrustPolicy
