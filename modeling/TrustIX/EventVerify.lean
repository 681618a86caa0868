/-
# Verification of config events

What a daemon checks before it takes a config event (`internal/daemon/config_sync.go`,
`admin_auth.go`, `revocation.go`, `membership.go`): the signer's certificate and
signature, the admin proofs, and the payload of each kind of resource.
-/
import TrustIX.TrustPolicy

namespace EventVerify

open Pki TrustPolicy ConfigEvent GoJson Fallible

/-! ## The outside world and the verifying node -/

/-- A desired configuration: the fields that the log code reads, and the rest. -/
structure Desired (R : Type) where
  domainID : String
  domainTrustRoots : List String
  ixID : String
  ixCertPath : String
  ixKeyPath : String
  trust : TrustConfig
  rest : R
  deriving DecidableEq

/-- What the daemon finds outside the log code: cryptography, the clock, certificate
files, and the parsers of the payloads that are not modelled. -/
structure World (R : Type) where
  crypto : Crypto
  now : GoTime.Time
  /-- `LoadCertificate` of a path. -/
  loadCertificate : String → Except String Certificate
  /-- `json.Unmarshal` into a desired configuration. -/
  decodeDesired : List UInt8 → Except String (Desired R)
  /-- `config.Normalize` of the fields in `rest`. -/
  normalizeRest : Desired R → R
  /-- `parseAdmissionPayload`: the admitted IX. -/
  parseAdmissionPayload : List UInt8 → String → Except String String
  /-- `parseEndpointGrantPayload`: the grant. -/
  parseEndpointGrantPayload : List UInt8 → String → Except String String

/-- Certificates by signer id. -/
abbrev SignerMap := AList (fun _ : String => Certificate)

/-- What verification reads of a daemon. -/
structure Node (R : Type) where
  domainID : String
  domainTrustRoots : List String
  signerCerts : SignerMap
  /-- `validateDesiredSchemaForRuntime`, with the members and peers of the moment. -/
  validateDesiredSchema : Desired R → Except String Unit

variable {R : Type} (w : World R) (node : Node R)

/-- `config.Normalize`. -/
def normalize (desired : Desired R) : Desired R :=
  { desired with
    trust := normalizeTrust w.crypto desired.trust
    rest := w.normalizeRest desired }

/-! ## Resources and signer ids -/

def genesisResource : String := "/domain/genesis"
def domainAdmissionsLead : String := "/domain/admissions/"
def domainEndpointGrantsLead : String := "/domain/endpoint-grants/"

def signerIDForIX (ix : String) : String := "ix:" ++ ix

def desiredResourceForIX (ix : String) : String := "/ix/" ++ ix ++ "/desired"

def isIXDesiredResource (resource : String) : Bool :=
  GoText.startsWith resource "/ix/" && GoText.endsWith resource "/desired" &&
    decide ("/ix//desired".utf8ByteSize < resource.utf8ByteSize)

def ixFromSignerID (signer : String) : Option String :=
  match GoText.cut signer ':' with
  | some (kind, value) =>
    if kind ≠ "ix" ∨ GoText.trimSpace value = "" then none else some value
  | none => none

def isDomainAdmissionResource (resource : String) : Bool :=
  GoText.startsWith resource domainAdmissionsLead &&
    decide (domainAdmissionsLead.utf8ByteSize < resource.utf8ByteSize)

/-- What follows a resource's lead. -/
def resourceName (resource lead : String) : String :=
  String.ofList (GoText.dropLead lead.toList resource.toList)

def ixFromAdmissionResource (resource : String) : Option String :=
  if !isDomainAdmissionResource resource then none
  else if GoText.trimSpace (resourceName resource domainAdmissionsLead) = "" then none
  else some (resourceName resource domainAdmissionsLead)

def admissionResourceForIX (ix : String) : String := domainAdmissionsLead ++ ix

def isDomainEndpointGrantResource (resource : String) : Bool :=
  GoText.startsWith resource domainEndpointGrantsLead &&
    decide (domainEndpointGrantsLead.utf8ByteSize < resource.utf8ByteSize)

def validEndpointGrantID (grantID : String) : Bool :=
  let id := GoText.trimSpace grantID
  !(id == "" || decide (128 < id.utf8ByteSize)) &&
    id.toList.all (fun r => ('a' ≤ r && r ≤ 'z') || ('0' ≤ r && r ≤ '9') || r == '-' || r == '_')

def grantIDFromEndpointGrantResource (resource : String) : Option String :=
  if !isDomainEndpointGrantResource resource then none
  else if validEndpointGrantID (resourceName resource domainEndpointGrantsLead) then
    some (resourceName resource domainEndpointGrantsLead)
  else none

def endpointGrantResourceForID (grantID : String) : String :=
  domainEndpointGrantsLead ++ GoText.trimSpace grantID

/-! ## Certificates under a trust policy -/

/-- `revokedCertificateFingerprintsFromTrust`: what is no fingerprint revokes nothing. -/
def revokedCertificateFingerprintsFromTrust (trust : TrustConfig) : List String :=
  trust.revokedCertFingerprints.filterMap fun raw =>
    (normalizeCertificateFingerprintSHA256 raw).toOption

variable {trust : TrustConfig}

theorem mem_revokedCertificateFingerprints {fingerprint : String} :
    fingerprint ∈ revokedCertificateFingerprintsFromTrust trust ↔
      ∃ raw ∈ trust.revokedCertFingerprints,
        normalizeCertificateFingerprintSHA256 raw = .ok fingerprint := by
  unfold revokedCertificateFingerprintsFromTrust
  simp [Fallible.toOption_eq_some]

/-- **The normal form of a policy revokes what the policy revokes.** -/
theorem mem_revoked_normalizeTrust {crypto : Crypto} {trust : TrustConfig} {fingerprint : String} :
    fingerprint ∈ revokedCertificateFingerprintsFromTrust (normalizeTrust crypto trust) ↔
      fingerprint ∈ revokedCertificateFingerprintsFromTrust trust := by
  rw [mem_revokedCertificateFingerprints, mem_revokedCertificateFingerprints]
  simp [normalizeTrust, sortStrings, normalizeCertificateFingerprintSHA256_normalizeEntry]

def verifyCertificateNotRevokedByTrust (crypto : Crypto) (trust : TrustConfig)
    (cert : Certificate) (label : String) : Except String Unit :=
  if crypto.fingerprint cert ∈ revokedCertificateFingerprintsFromTrust trust then
    .error (label ++ " fingerprint " ++ crypto.fingerprint cert ++ " is revoked")
  else .ok ()

/-- The certificates that are not revoked, each once. -/
def activeRoots (crypto : Crypto) (trust : TrustConfig) (certs : List Certificate) :
    List Certificate :=
  certs.foldl (fun roots cert =>
    if crypto.fingerprint cert ∈ revokedCertificateFingerprintsFromTrust trust then roots
    else if crypto.fingerprint cert ∈ roots.map crypto.fingerprint then roots
    else roots ++ [cert]) []

def trustRootCertificatesWithTrust (trust : TrustConfig) : Except String (List Certificate) := do
  let files ← node.domainTrustRoots.mapM w.loadCertificate
  let pems ← trust.trustRootsPEM.zipIdx.mapM fun entry =>
    (w.crypto.parseCertificatePEM entry.1).mapError
      ("parse domain trust root " ++ toString entry.2 ++ ": " ++ ·)
  let roots := activeRoots w.crypto trust (files ++ pems)
  if roots = [] then .error "no active trust root certificates" else .ok roots

/-- `VerifyChain` to the roots of a policy; `lead` stands before its error. -/
def verifyChainWithTrust (lead : String) (trust : TrustConfig) (cert : Certificate) :
    Except String Unit := do
  let roots ← trustRootCertificatesWithTrust w node trust
  if w.crypto.verifyChain w.now cert roots then .ok ()
  else .error (lead ++ "certificate chain does not verify")

/-! ## The signer -/

def verifyConfigEventSignerCertificate (event : Event) (signerIX : String)
    (trust : TrustConfig) (cert : Certificate) : Except String Unit := do
  verifyCertificateNotRevokedByTrust w.crypto trust cert "signer certificate"
  if cert.role ≠ roleIX then
    .error ("signer certificate role is " ++ cert.role.quote ++ ", want " ++ roleIX.quote)
  else if cert.domain ≠ node.domainID then
    .error ("signer certificate domain is " ++ cert.domain.quote ++ ", want " ++
      node.domainID.quote)
  else if cert.ix ≠ signerIX then
    .error ("signer certificate ix is " ++ cert.ix.quote ++ ", want " ++ signerIX.quote)
  else do
    verifyChainWithTrust w node "" trust cert
    let signingBytes ← event.signingBytes
    if w.crypto.verify cert signingBytes event.signature.bytes then .ok ()
    else .error "signature verification failed"

/-- The staged certificate comes first, then the cached one if it is another. -/
def configSignerCertificateCandidates (signer : String) (staged : SignerMap) :
    List Certificate :=
  match staged.lookup signer, node.signerCerts.lookup signer with
  | some cert, some cached => if cert.raw = cached.raw then [cert] else [cert, cached]
  | some cert, none => [cert]
  | none, some cached => [cached]
  | none, none => []

/-- The first certificate that passes. -/
def firstVerified (check : Certificate → Except String Unit) :
    List Certificate → List String → Except String Certificate
  | [], errs => .error ("\n".intercalate errs)
  | cert :: rest, errs =>
    match check cert with
    | .ok () => .ok cert
    | .error err => firstVerified check rest (errs ++ [err])

def verifyConfigEventSigner (event : Event) (signerIX : String) (trust : TrustConfig)
    (staged : SignerMap) : Except String Certificate :=
  if configSignerCertificateCandidates node event.signerID staged = [] then
    .error ("signer certificate " ++ event.signerID.quote ++ " is not known")
  else
    (firstVerified (verifyConfigEventSignerCertificate w node event signerIX trust)
      (configSignerCertificateCandidates node event.signerID staged) []).mapError
      ("verify signer certificate " ++ event.signerID.quote ++ ": " ++ ·)

/-! ## Admin proofs -/

/-- `signerIDForAdminCert`. -/
def signerIDForAdminCert (crypto : Crypto) (cert : Certificate) : String :=
  "admin:" ++ crypto.fingerprint cert

/-- `adminauth.SigningBytesForBodyHash`. -/
def signingBytesForBodyHash (method requestURI : String) (timestamp : List Char)
    (bodyHash : String) : List Char :=
  "TRUSTIX-ADMIN-V1\n".toList ++ (GoText.toUpper method).toList ++ '\n' :: (requestURI.toList ++
    '\n' :: (timestamp ++ '\n' :: (GoText.toLower bodyHash).toList))

def verifyAdminCertificateWithTrust (cert : Certificate) (trust : TrustConfig) :
    Except String Unit := do
  verifyCertificateNotRevokedByTrust w.crypto trust cert "admin certificate"
  if cert.role ≠ roleAdmin then
    .error ("admin certificate role is " ++ cert.role.quote ++ ", want " ++ roleAdmin.quote)
  else if cert.domain ≠ node.domainID then
    .error ("admin certificate domain is " ++ cert.domain.quote ++ ", want " ++ node.domainID.quote)
  else verifyChainWithTrust w node "verify admin certificate chain: " trust cert

/-- One round of `verifyConfigEventAdminProofs`. -/
def verifyAdminProof (trust : TrustConfig) (i : ℕ) (proof : AdminProof) : Except String Unit :=
  let label := "admin proof " ++ toString i
  if proof.signerID = "" then .error (label ++ " signer_id is required")
  else if proof.certificate.bytes.length = 0 then .error (label ++ " certificate is required")
  else if proof.signature.bytes.length = 0 then .error (label ++ " signature is required")
  else if proof.timestamp.isZero then .error (label ++ " timestamp is required")
  else do
    let cert ← (w.crypto.parseCertificate proof.certificate.bytes).mapError
      ("parse " ++ label ++ " certificate: " ++ ·)
    if signerIDForAdminCert w.crypto cert ≠ proof.signerID then
      .error (label ++ " signer is " ++ proof.signerID.quote ++ ", certificate is " ++
        (signerIDForAdminCert w.crypto cert).quote)
    else do
      (verifyAdminCertificateWithTrust w node cert trust).mapError
        ("verify " ++ label ++ " certificate: " ++ ·)
      if proof.timestamp.before cert.notBefore || proof.timestamp.after cert.notAfter then
        .error (label ++ " timestamp is outside certificate validity")
      else if w.crypto.verify cert
          (signingBytesForBodyHash proof.method proof.requestURI proof.timestamp.utc.format
            proof.bodySHA256) proof.signature.bytes then
        .ok ()
      else .error ("verify " ++ label ++ " signature")

def verifyConfigEventAdminProofs (trust : TrustConfig) (proofs : List AdminProof) :
    Except String Unit :=
  proofs.zipIdx.forM fun entry => verifyAdminProof w node trust entry.2 entry.1

/-- One round of the loop of `verifyAdminProofPolicy`: the admins counted so far. -/
def countAdmin (trust : TrustConfig) (allowed unique : List String) (proof : AdminProof) :
    Except String (List String) := do
  let cert ← (w.crypto.parseCertificate proof.certificate.bytes).mapError
    ("parse admin proof certificate: " ++ ·)
  if 0 < allowed.length ∧ w.crypto.fingerprint cert ∉ allowed then .ok unique
  else do
    verifyAdminCertificateWithTrust w node cert trust
    .ok (if w.crypto.fingerprint cert ∈ unique then unique
      else unique ++ [w.crypto.fingerprint cert])

def verifyAdminProofPolicy (proofs : List AdminProof) (trust : TrustConfig) :
    Except String Unit :=
  let threshold := effectiveAdminThreshold trust
  if proofs = [] then
    .error ("domain trust changes require " ++ toString threshold ++ " Admin proof(s)")
  else do
    let allowed ← trust.adminPolicy.allowedFingerprints.mapM normalizeCertificateFingerprintSHA256
    let unique ← proofs.foldlM (countAdmin w node trust allowed) []
    if (unique.length : ℤ) < threshold.toInt then
      .error ("admin policy requires " ++ toString threshold ++
        " distinct Admin proof(s), got " ++ toString unique.length)
    else .ok ()

/-! ## The genesis event -/

def genesisSignature : List UInt8 := GoText.encodeUtf8 "trustix-genesis-v1".toList

/-- `configGenesisPayload`: the sorted fingerprints of the domain's root files. -/
def configGenesisPayload (domainID : String) (trustRoots : List String) :
    Except String (List UInt8) := do
  let fingerprints ← trustRoots.mapM fun path => do
    let cert ← (w.loadCertificate path).mapError
      ("load trust root " ++ path.quote ++ ": " ++ ·)
    .ok (w.crypto.fingerprint cert)
  .ok (GoText.encodeUtf8 (object [field "version" (int 1), field "domain_id" (string domainID),
    field "trust_roots" (strings (sortStrings fingerprints))]).print)

def configGenesisEvent (domainID : String) (trustRoots : List String) :
    Except String Event := do
  let payload ← configGenesisPayload w domainID trustRoots
  .ok
    { domainID := domainID
      eventID := "evt-genesis-" ++ domainID
      seq := 1
      prevHash := ""
      resource := genesisResource
      action := actionCreate
      payload := some payload
      signerID := "genesis:" ++ domainID
      signature := some genesisSignature
      createdAt := GoTime.unixEpoch
      effectiveAt := GoTime.unixEpoch
      adminProofs := [] }

def verifyConfigGenesisEvent (event : Event) : Except String Unit := do
  event.validateBasic
  if event.seq ≠ 1 then .error ("genesis event seq is " ++ toString event.seq ++ ", want 1")
  else if event.domainID ≠ node.domainID then
    .error ("genesis event domain is " ++ event.domainID.quote ++ ", want " ++ node.domainID.quote)
  else if event.eventID ≠ "evt-genesis-" ++ node.domainID then
    .error ("genesis event id is " ++ event.eventID.quote)
  else if event.resource ≠ genesisResource then
    .error ("genesis event resource is " ++ event.resource.quote)
  else if event.action ≠ actionCreate then
    .error ("genesis event action is " ++ event.action.quote ++ ", want " ++ actionCreate.quote)
  else if event.prevHash ≠ "" then .error "genesis event prev_hash must be empty"
  else if event.signerID ≠ "genesis:" ++ node.domainID then
    .error ("genesis event signer is " ++ event.signerID.quote)
  else if event.signature.bytes ≠ genesisSignature then
    .error "genesis event signature is invalid"
  else if !event.createdAt.equal GoTime.unixEpoch || !event.effectiveAt.equal GoTime.unixEpoch then
    .error "genesis event timestamps are not canonical"
  else do
    let want ← configGenesisPayload w node.domainID node.domainTrustRoots
    if event.payload.bytes ≠ want then
      .error "genesis payload does not match local domain trust roots"
    else .ok ()

/-! ## Payloads -/

def verifyDesiredPayload (event : Event) (signerIX : String) : Except String Unit :=
  if event.action ≠ actionUpsert then
    .error ("desired event action is " ++ event.action.quote ++ ", want " ++ actionUpsert.quote)
  else do
    let decoded ← (w.decodeDesired event.payload.bytes).mapError ("decode desired payload: " ++ ·)
    let desired := normalize w decoded
    (node.validateDesiredSchema desired).mapError ("validate desired payload: " ++ ·)
    if desired.domainID ≠ event.domainID then
      .error ("desired payload domain is " ++ desired.domainID.quote ++ ", want " ++
        event.domainID.quote)
    else if desired.ixID ≠ signerIX then
      .error ("desired payload ix is " ++ desired.ixID.quote ++ ", want signer " ++ signerIX.quote)
    else if event.resource ≠ "/desired" ∧ event.resource ≠ desiredResourceForIX signerIX then
      .error ("desired event resource is " ++ event.resource.quote ++ ", want " ++
        (desiredResourceForIX signerIX).quote)
    else .ok ()

/-- The resources that need the admins' consent share their first two checks. -/
def verifyAdminAction (label : String) (event : Event) (trust : TrustConfig) :
    Except String Unit :=
  if event.action ≠ actionUpsert then
    .error (label ++ " event action is " ++ event.action.quote ++ ", want " ++ actionUpsert.quote)
  else verifyAdminProofPolicy w node event.adminProofs trust

def verifyTrustPayload (event : Event) (trust : TrustConfig) : Except String Unit := do
  verifyAdminAction w node "domain trust" event trust
  let _ ← parseDomainTrustPayload w.crypto event.payload.bytes node.domainID
  .ok ()

def verifyAdmissionPayload (event : Event) (trust : TrustConfig) : Except String Unit := do
  verifyAdminAction w node "domain admission" event trust
  let ix ← w.parseAdmissionPayload event.payload.bytes node.domainID
  if ixFromAdmissionResource event.resource ≠ some ix then
    .error ("domain admission resource is " ++ event.resource.quote ++ ", want " ++
      (admissionResourceForIX ix).quote)
  else .ok ()

def verifyEndpointGrantPayload (event : Event) (trust : TrustConfig) : Except String Unit := do
  verifyAdminAction w node "domain endpoint grant" event trust
  let grant ← w.parseEndpointGrantPayload event.payload.bytes node.domainID
  if grantIDFromEndpointGrantResource event.resource ≠ some grant then
    .error ("domain endpoint grant resource is " ++ event.resource.quote ++ ", want " ++
      (endpointGrantResourceForID grant).quote)
  else .ok ()

/-- The payload, by the kind of its resource. -/
def verifyConfigEventPayload (event : Event) (signerIX : String) (trust : TrustConfig) :
    Except String Unit :=
  if event.resource = "/desired" ∨ isIXDesiredResource event.resource then
    verifyDesiredPayload w node event signerIX
  else if event.resource = domainTrustResource then verifyTrustPayload w node event trust
  else if isDomainAdmissionResource event.resource then
    verifyAdmissionPayload w node event trust
  else if isDomainEndpointGrantResource event.resource then
    verifyEndpointGrantPayload w node event trust
  else .error ("unsupported config resource " ++ event.resource.quote)

/-! ## The event -/

/-- `verifyConfigEventWithTrustAndSigners`: the certificate that signed the event, none
for the genesis event. -/
def verifyConfigEventWithTrustAndSigners (event : Event) (trust : TrustConfig)
    (staged : SignerMap) : Except String (Option Certificate) :=
  if event.resource = genesisResource then do
    verifyConfigGenesisEvent w node event
    .ok none
  else do
    event.validateBasic
    if event.domainID ≠ node.domainID then
      .error ("event domain is " ++ event.domainID.quote ++ ", want " ++ node.domainID.quote)
    else
      match ixFromSignerID event.signerID with
      | none => .error ("unsupported signer id " ++ event.signerID.quote)
      | some signerIX => do
        let cert ← verifyConfigEventSigner w node event signerIX trust staged
        verifyConfigEventAdminProofs w node trust event.adminProofs
        verifyConfigEventPayload w node event signerIX trust
        .ok (some cert)

/-! ## What acceptance means -/

variable {w : World R} {node : Node R}

variable {event : Event}

variable {staged : SignerMap}

/-- **An event that is not the genesis event is accepted** iff it passes every check. -/
theorem verifyConfigEvent_eq_ok (hgenesis : event.resource ≠ genesisResource)
    {result : Option Certificate} :
    verifyConfigEventWithTrustAndSigners w node event trust staged = .ok result ↔
      event.validateBasic = .ok () ∧ event.domainID = node.domainID ∧
      ∃ signerIX cert, ixFromSignerID event.signerID = some signerIX ∧
        verifyConfigEventSigner w node event signerIX trust staged = .ok cert ∧
        verifyConfigEventAdminProofs w node trust event.adminProofs = .ok () ∧
        verifyConfigEventPayload w node event signerIX trust = .ok () ∧ result = some cert := by
  unfold verifyConfigEventWithTrustAndSigners
  rw [if_neg hgenesis]
  constructor
  · intro h
    obtain ⟨⟨⟩, hbasic, h⟩ := bind_eq_ok.mp h
    obtain ⟨hdomain, h⟩ := guard_eq_ok.mp h
    refine ⟨hbasic, not_not.mp hdomain, ?_⟩
    cases hsigner : ixFromSignerID event.signerID with
    | none => simp [hsigner] at h
    | some signerIX =>
      simp only [hsigner] at h
      obtain ⟨cert, hcert, h⟩ := bind_eq_ok.mp h
      obtain ⟨⟨⟩, hproofs, h⟩ := bind_eq_ok.mp h
      obtain ⟨⟨⟩, hpayload, h⟩ := bind_eq_ok.mp h
      injection h with h
      exact ⟨signerIX, cert, rfl, hcert, hproofs, hpayload, h.symm⟩
  · rintro ⟨hbasic, hdomain, signerIX, cert, hsigner, hcert, hproofs, hpayload, rfl⟩
    simp [hbasic, hdomain, hsigner, hcert, hproofs, hpayload, ok_bind]

variable {cert : Certificate}

/-- A certificate that passes makes the search succeed. -/
theorem firstVerified_eq_ok {check : Certificate → Except String Unit} {certs : List Certificate}
    (hmem : cert ∈ certs) (hcheck : check cert = .ok ()) (errs : List String) :
    ∃ found, firstVerified check certs errs = .ok found := by
  induction certs generalizing errs with
  | nil => simp at hmem
  | cons c certs ih =>
    rw [firstVerified]
    cases hc : check c with
    | ok _ => exact ⟨c, rfl⟩
    | error err =>
      rcases List.mem_cons.mp hmem with rfl | hmem
      · rw [hc] at hcheck
        cases hcheck
      · exact ih hmem _

/-- The certificate found is a candidate that passes. -/
theorem of_firstVerified {check : Certificate → Except String Unit} {certs : List Certificate}
    {errs : List String} (h : firstVerified check certs errs = .ok cert) :
    cert ∈ certs ∧ check cert = .ok () := by
  induction certs generalizing errs with
  | nil => cases h
  | cons c certs ih =>
    rw [firstVerified] at h
    cases hc : check c with
    | ok _ =>
      simp only [hc] at h
      cases h
      exact ⟨List.mem_cons_self, hc⟩
    | error err =>
      simp only [hc] at h
      obtain ⟨hmem, hcheck⟩ := ih h
      exact ⟨List.mem_cons_of_mem _ hmem, hcheck⟩

variable {signerIX : String}

theorem of_verifyConfigEventSigner
    (h : verifyConfigEventSigner w node event signerIX trust staged = .ok cert) :
    cert ∈ configSignerCertificateCandidates node event.signerID staged ∧
      verifyConfigEventSignerCertificate w node event signerIX trust cert = .ok () := by
  unfold verifyConfigEventSigner at h
  split_ifs at h
  exact of_firstVerified (mapError_eq_ok.mp h)

theorem verifyConfigEventSigner_eq_ok
    (hmem : cert ∈ configSignerCertificateCandidates node event.signerID staged)
    (hcert : verifyConfigEventSignerCertificate w node event signerIX trust cert = .ok ()) :
    ∃ found, verifyConfigEventSigner w node event signerIX trust staged = .ok found := by
  obtain ⟨found, hfound⟩ := firstVerified_eq_ok hmem hcert []
  refine ⟨found, ?_⟩
  unfold verifyConfigEventSigner
  rw [if_neg (List.ne_nil_of_mem hmem)]
  exact mapError_eq_ok.mpr hfound

/-- What a certificate has to be to sign under a policy, whatever it signs. -/
def SignerTrusted (w : World R) (node : Node R) (signerIX : String) (trust : TrustConfig)
    (cert : Certificate) : Prop :=
  verifyCertificateNotRevokedByTrust w.crypto trust cert "signer certificate" = .ok () ∧
    cert.role = roleIX ∧ cert.domain = node.domainID ∧ cert.ix = signerIX ∧
    verifyChainWithTrust w node "" trust cert = .ok ()

theorem verifyConfigEventSignerCertificate_eq_ok :
    verifyConfigEventSignerCertificate w node event signerIX trust cert = .ok () ↔
      SignerTrusted w node signerIX trust cert ∧
        ∃ text, event.signingBytes = .ok text ∧
          w.crypto.verify cert text event.signature.bytes = true := by
  unfold verifyConfigEventSignerCertificate SignerTrusted
  constructor
  · intro h
    obtain ⟨⟨⟩, hrevoked, h⟩ := bind_eq_ok.mp h
    obtain ⟨hrole, h⟩ := guard_eq_ok.mp h
    obtain ⟨hdomain, h⟩ := guard_eq_ok.mp h
    obtain ⟨hix, h⟩ := guard_eq_ok.mp h
    obtain ⟨⟨⟩, hchain, h⟩ := bind_eq_ok.mp h
    obtain ⟨text, htext, h⟩ := bind_eq_ok.mp h
    split_ifs at h with hverify
    exact ⟨⟨hrevoked, not_not.mp hrole, not_not.mp hdomain, not_not.mp hix, hchain⟩, text,
      htext, hverify⟩
  · rintro ⟨⟨hrevoked, hrole, hdomain, hix, hchain⟩, text, htext, hverify⟩
    simp [hrevoked, hrole, hdomain, hix, hchain, htext, hverify, ok_bind]

/-! ## A small world

One root, one admin and one IX in the domain `lab`.  Digests are the bytes themselves in
hexadecimal, and the one signature of a text under a certificate is the certificate
followed by the text: nobody can sign for another. -/

def toHex (bytes : List UInt8) : List Char :=
  bytes.flatMap fun b => [Nat.digitChar (b.toNat / 16), Nat.digitChar (b.toNat % 16)]

/-- At least 64 digits. -/
def labDigest (bytes : List UInt8) : String :=
  String.ofList (toHex bytes ++ List.replicate (64 - (toHex bytes).length) '0')

def labSign (cert : Certificate) (text : List Char) : List UInt8 :=
  cert.raw ++ GoText.encodeUtf8 text

/-- Noon of a day of May 2024. -/
def noonOf (day : ℕ) (h : 1 ≤ day ∧ day ≤ 31) : GoTime.Time where
  date := ⟨2024, 5, day, GoTime.may_range, h⟩
  hour := 12
  minute := 0
  second := 0
  nano := 0
  offset := 0
  hour_lt := GoTime.noon_lt
  minute_lt := GoTime.zero_lt_minute
  second_lt := GoTime.zero_lt_minute
  nano_lt := GoTime.zero_lt_second

def labNow : GoTime.Time := noonOf 17 (by decide)

def labCert (raw : List UInt8) (role ix : String) : Certificate :=
  ⟨raw, role, "lab", ix, role == "root_ca", noonOf 1 (by decide), noonOf 31 (by decide)⟩

def labRoot : Certificate := labCert [0xCA] "root_ca" ""
def labAdmin : Certificate := labCert [0xAD] roleAdmin ""
def labIX : Certificate := labCert [0x01] roleIX "ix-a"

def labCrypto : Crypto where
  sha256Hex := labDigest
  parseCertificate := fun raw =>
    match [labRoot, labAdmin, labIX].find? (fun cert => cert.raw == raw) with
    | some cert => .ok cert
    | none => .error "malformed certificate"
  parseCertificatePEM := fun text =>
    match [labRoot, labAdmin, labIX].find?
        (fun cert => text == "PEM " ++ String.ofList (toHex cert.raw)) with
    | some cert => .ok cert
    | none => .error "missing CERTIFICATE PEM block"
  encodePEM := fun raw => "PEM " ++ String.ofList (toHex raw)
  verifyChain := fun now cert roots =>
    !now.before cert.notBefore && !now.after cert.notAfter && decide (labRoot ∈ roots)
  verify := fun cert text signature => signature == labSign cert text

/-- The desired configuration of `ix-a`; its trust section is all that varies. -/
def labDesired (trust : TrustConfig) : Desired Unit :=
  ⟨"lab", ["root.pem"], "ix-a", "ix-a.pem", "ix-a.key", trust, ()⟩

def labWorld : World Unit where
  crypto := labCrypto
  now := labNow
  loadCertificate := fun path =>
    if path = "root.pem" then .ok labRoot
    else if path = "ix-a.pem" then .ok labIX
    else .error "no such file"
  decodeDesired := fun payload => do
    let v ← unmarshal payload
    let trust ← decodeTrust emptyTrust v
    .ok (labDesired trust)
  normalizeRest := fun _ => ()
  parseAdmissionPayload := fun _ _ => .error "no admissions"
  parseEndpointGrantPayload := fun _ _ => .error "no grants"

def labNode : Node Unit where
  domainID := "lab"
  domainTrustRoots := ["root.pem"]
  signerCerts := AList.singleton "ix:ix-a" labIX
  validateDesiredSchema := fun _ => .ok ()

/-- An event of `ix-a`, signed. -/
def labEvent (seq : ℕ) (prevHash resource : String) (payload : List UInt8)
    (proofs : List AdminProof) : Event :=
  let event : Event :=
    { domainID := "lab"
      eventID := "evt-" ++ toString seq
      seq := seq
      prevHash := prevHash
      resource := resource
      action := actionUpsert
      payload := some payload
      signerID := "ix:ix-a"
      signature := none
      createdAt := labNow
      effectiveAt := labNow
      adminProofs := proofs }
  { event with signature := some (labSign labIX (event.signingBytes.toOption.getD [])) }

/-- The admin's signature over one request: the body's hash stands for its content. -/
def labProof (method requestURI : String) (body : List UInt8) : AdminProof where
  signerID := signerIDForAdminCert labCrypto labAdmin
  certificate := some labAdmin.raw
  method := method
  requestURI := requestURI
  bodySHA256 := labDigest body
  timestamp := labNow
  signature := some (labSign labAdmin
    (signingBytesForBodyHash method requestURI labNow.format (labDigest body)))

end EventVerify
