/-
# Events a daemon writes itself

A daemon that changes its configuration, the domain's trust policy, an admission or an
endpoint grant signs an event with its own key and appends it at the head of the log
(`internal/daemon/daemon.go`, `config_api.go`, `trust_resource.go`,
`admission_resource.go`, `endpoint_grant_resource.go`).  The head that the log will have
then is planned together with the event.
-/
import TrustIX.Daemon

namespace ConfigDaemon

open Pki TrustPolicy ConfigEvent ConfigStore EventVerify LogVerify GoJson Fallible Mutation

variable {R M : Type} (rt : Runtime R M) (m : Moment R M)

/-! ## Signing -/

/-- Signs with the key of a configuration, whose certificate must fit it. -/
def signConfigEvent (event : Event) (desired : Desired R) : Except String Event := do
  rejectIf (desired.ixCertPath = "" ∨ desired.ixKeyPath = "")
    "ix cert and key are required to sign config events"
  let cert ← m.loadCertificate desired.ixCertPath
  verifyCertificateNotRevokedByTrust rt.crypto desired.trust cert "config signer certificate"
  rejectIf (cert.role ≠ roleIX)
    ("signer certificate role is " ++ cert.role.quote ++ ", want " ++ roleIX.quote)
  rejectIf (cert.domain ≠ desired.domainID)
    ("signer certificate domain is " ++ cert.domain.quote ++ ", want " ++ desired.domainID.quote)
  rejectIf (cert.ix ≠ desired.ixID)
    ("signer certificate ix is " ++ cert.ix.quote ++ ", want " ++ desired.ixID.quote)
  let text ← event.signingBytes
  let signature ← m.sign desired.ixKeyPath text
  rejectIf (rt.crypto.verify cert text signature = false) "signature verification failed"
  .ok { event with signature := some signature }

/-- The event that follows a head, and the head it leads to. -/
def signedConfigEventAtHead (resource action : String) (payload : List UInt8)
    (signerDesired : Desired R) (adminProofs : List AdminProof) (head : Head) :
    Except String (Event × Head) := do
  let eventID ← m.newEventID (head.seq + 1)
  let event ← signConfigEvent rt m
    { domainID := signerDesired.domainID
      eventID := eventID
      seq := head.seq + 1
      prevHash := head.hash
      resource := resource
      action := action
      payload := some payload
      signerID := signerIDForIX signerDesired.ixID
      signature := none
      createdAt := m.now
      effectiveAt := m.now
      adminProofs := adminProofs } signerDesired
  let hash ← event.hash rt.crypto.sha256Text
  .ok (event, ⟨event.seq, hash⟩)

/-! ## Events that change something -/

/-- The payload of the last event of a resource. -/
def latestResourcePayload (stored : List Event) (resource : String) :
    Except String (Option Slice) := do
  let events ← storedEvents (rt.world m) stored
  .ok ((events.reverse.find? fun event => event.resource == resource).map Event.payload)

/-- The end of `domainTrustEventIfChangedAtHead`, `admissionEventIfChangedAtHead` and
`endpointGrantEventIfChangedAtHead`: no event if the last one of the resource says the
same. -/
def resourceEventIfChangedAtHead (d : Daemon R M) (resource : String) (payload : List UInt8)
    (adminProofs : List AdminProof) (head : Head) : Except String (Option (Event × Head)) := do
  let latest ← latestResourcePayload rt m d.store.memory resource
  if latest.any fun slice => slice.bytes == payload then .ok none
  else
    (signedConfigEventAtHead rt m resource actionUpsert payload d.desired adminProofs head).map some

def domainTrustEventIfChangedAtHead (d : Daemon R M) (trust : TrustConfig)
    (adminProofs : List AdminProof) (head : Head) : Except String (Option (Event × Head)) := do
  let payload ← domainTrustPayload rt.crypto m.now d.desired.domainID
    (normalizeTrust rt.crypto trust) (head.seq + 1)
  resourceEventIfChangedAtHead rt m d domainTrustResource payload adminProofs head

/-- The last configuration of an IX; every event of the old resource counts as one of the
local IX. -/
def latestDesiredEvent (d : Daemon R M) (ix : String) (events : List Event) : Option Event :=
  events.reverse.find? fun event =>
    event.resource == desiredResourceForIX ix ||
      (event.resource == "/desired" && ix == d.desired.ixID)

def desiredEventIfChangedAtHead (d : Daemon R M) (desired : Desired R)
    (adminProofs : List AdminProof) (head : Head) (payload : List UInt8) :
    Except String (Option (Event × Head)) := do
  let events ← storedEvents (rt.world m) d.store.memory
  if (latestDesiredEvent d desired.ixID events).any fun event => event.payload.bytes == payload then
    .ok none
  else
    (signedConfigEventAtHead rt m (desiredResourceForIX desired.ixID) actionUpsert payload desired
      adminProofs head).map some

def eventIsLocalDesired (event : Event) (ix : String) : Bool :=
  event.resource == "/desired" &&
    (rt.decodeDesired event.payload.bytes).toOption.any fun desired => desired.ixID == ix

/-- An event that carries the configuration of an IX. -/
def isDesiredOf (ix : String) (event : Event) : Bool :=
  event.resource == desiredResourceForIX ix || eventIsLocalDesired rt event ix

def hasLocalDesiredEventLocked (d : Daemon R M) (ix : String) : Except String Bool := do
  let events ← storedEvents (rt.world m) d.store.memory
  .ok (events.any (isDesiredOf rt ix))

/-! ## Single mutations -/

/-- `store.Append` of a planned event, and the head it was planned with. -/
def appendPlanned (planned : Event × Head) : Act R M (Option StoreError) := do
  let commitErr ← storeAppendBatch rt m [planned.1]
  setConfigHead planned.2
  pure commitErr

/-- Writes a policy into the log and puts it in force: whether it changed. -/
def applyTrustConfigLocked (trust : TrustConfig) (adminProofs : List AdminProof) :
    Act R M Bool := do
  let d ← get
  check ((normalizeTrust rt.crypto trust).validate rt.crypto)
  check (verifyAdminProofPolicy (rt.world m) (d.node rt) adminProofs d.desired.trust)
  if trustConfigsEqual rt.crypto d.desired.trust (normalizeTrust rt.crypto trust) then pure false
  else do
    let head ← storeHead rt
    match ← check (domainTrustEventIfChangedAtHead rt m d (normalizeTrust rt.crypto trust)
      adminProofs head) with
    | none => pure false
    | some planned => do
      let commitErr ← appendPlanned rt m planned
      modify fun d =>
        { d with desired := { d.desired with trust := normalizeTrust rt.crypto trust } }
      afterCommit "domain trust mutation" do
        afterTrustStateChangedLocked rt m
        reportCommit commitErr
      pure true

/-- The common part of admissions and grants.  `prepare` fills in and checks the payload
for a head and gives its resource; `follow` is what the change asks of the runtime. -/
def applyResourceLocked (operation : String) (prepare : Head → Except String (String × List UInt8))
    (follow : Act R M Unit) (adminProofs : List AdminProof) : Act R M Bool := do
  let d ← get
  check (verifyAdminProofPolicy (rt.world m) (d.node rt) adminProofs d.desired.trust)
  let head ← storeHead rt
  let (resource, payload) ← check (prepare head)
  match ← check (resourceEventIfChangedAtHead rt m d resource payload adminProofs head) with
  | none => pure false
  | some planned => do
    let commitErr ← appendPlanned rt m planned
    afterCommit operation do
      follow
      reportCommit commitErr
    pure true

/-- `prepare` gives the IX and the payload of the admission. -/
def applyAdmissionConfigLocked (prepare : Head → Except String (String × List UInt8))
    (adminProofs : List AdminProof) : Act R M Bool :=
  applyResourceLocked rt m "admission mutation"
    (fun head => (prepare head).map fun (ix, payload) => (admissionResourceForIX ix, payload))
    (afterAdmissionStateChangedLocked rt m) adminProofs

/-- `prepare` gives the id and the payload of the grant. -/
def applyEndpointGrantConfigLocked (prepare : Head → Except String (String × List UInt8))
    (adminProofs : List AdminProof) : Act R M Bool :=
  applyResourceLocked rt m "endpoint grant mutation"
    (fun head => (prepare head).map fun (grantID, payload) =>
      (endpointGrantResourceForID grantID, payload))
    (do
      let errs ← attemptAll [runEffect m .grantSessions, runEffect m .grantDataplane,
        refreshLocalAdvertisement m .grantAdvertisement]
      failIf errs.head?)
    adminProofs

/-- `ensureLocalDesiredBaselineLocked`: the log gets the configuration in force, unless it
has one of this IX. -/
def ensureLocalDesiredBaselineLocked (adminProofs : List AdminProof) : Act R M Bool := do
  let d ← get
  if ← check (hasLocalDesiredEventLocked rt m d d.desired.ixID) then pure false
  else do
    let payload ← check ((rt.encodeDesired d.desired).mapError ("encode desired config: " ++ ·))
    let head ← storeHead rt
    match ← check (desiredEventIfChangedAtHead rt m d d.desired adminProofs head payload) with
    | none => pure false
    | some planned => do
      let commitErr ← appendPlanned rt m planned
      afterCommit "desired baseline" (reportCommit commitErr)
      pure true

variable {rt m}

/-- What follows a grant is only attempted. -/
theorem steady_afterEndpointGrant :
    Moves Steady (do
      let errs ← attemptAll [runEffect m .grantSessions, runEffect m .grantDataplane,
        refreshLocalAdvertisement m .grantAdvertisement]
      failIf errs.head? : Act R M Unit) := by
  refine Moves.bind (moves_attemptAll fun act hact => ?_) fun errs => moves_failIf _
  simp only [List.mem_cons, List.not_mem_nil, or_false] at hact
  rcases hact with rfl | rfl | rfl
  · exact steady_runEffect _
  · exact steady_runEffect _
  · exact steady_refreshLocalAdvertisement _

/-! ## Planned events -/

/-- An event that can follow a head, and the head that it leads to. -/
structure Follows (rt : Runtime R M) (head : Head) (planned : Event × Head) : Prop where
  seq : planned.1.seq = head.seq + 1
  prevHash : planned.1.prevHash = head.hash
  next_seq : planned.2.seq = planned.1.seq
  next_hash : planned.1.hash rt.crypto.sha256Text = .ok planned.2.hash

variable {desired : Desired R}

theorem signConfigEvent_eq_ok {event signed : Event}
    (h : signConfigEvent rt m event desired = .ok signed) :
    ∃ signature, signed = { event with signature := some signature } := by
  obtain ⟨-, h⟩ := seq_eq_ok.mp h
  obtain ⟨cert, -, h⟩ := bind_eq_ok.mp h
  obtain ⟨-, h⟩ := seq_eq_ok.mp h
  obtain ⟨-, h⟩ := seq_eq_ok.mp h
  obtain ⟨-, h⟩ := seq_eq_ok.mp h
  obtain ⟨-, h⟩ := seq_eq_ok.mp h
  obtain ⟨text, -, h⟩ := bind_eq_ok.mp h
  obtain ⟨signature, -, h⟩ := bind_eq_ok.mp h
  obtain ⟨-, h⟩ := seq_eq_ok.mp h
  injection h with h
  exact ⟨signature, h.symm⟩

variable {planned : Event × Head} {adminProofs : List AdminProof} {head : Head}

variable {payload : List UInt8}

theorem signedConfigEventAtHead_follows {resource action : String}
    (h : signedConfigEventAtHead rt m resource action payload desired adminProofs head =
      .ok planned) : Follows rt head planned ∧ planned.1.resource = resource ∧
      planned.1.payload = some payload := by
  obtain ⟨eventID, -, h⟩ := bind_eq_ok.mp h
  obtain ⟨event, hsign, h⟩ := bind_eq_ok.mp h
  obtain ⟨signature, rfl⟩ := signConfigEvent_eq_ok hsign
  obtain ⟨hash, hhash, h⟩ := bind_eq_ok.mp h
  cases h
  exact ⟨⟨rfl, rfl, rfl, hhash⟩, rfl, rfl⟩

variable {d : Daemon R M}

theorem resourceEventIfChangedAtHead_follows {resource : String}
    (h : resourceEventIfChangedAtHead rt m d resource payload adminProofs head = .ok (some planned)) :
    Follows rt head planned ∧ planned.1.resource = resource ∧ planned.1.payload = some payload := by
  obtain ⟨latest, -, h⟩ := bind_eq_ok.mp h
  split_ifs at h
  · cases h
  · obtain ⟨planned', hplanned, hsome⟩ := map_eq_ok.mp h
    cases hsome
    exact signedConfigEventAtHead_follows hplanned

theorem domainTrustEventIfChangedAtHead_follows {trust : TrustConfig}
    (h : domainTrustEventIfChangedAtHead rt m d trust adminProofs head = .ok (some planned)) :
    Follows rt head planned ∧ planned.1.resource = domainTrustResource := by
  obtain ⟨payload, -, h⟩ := bind_eq_ok.mp h
  exact (resourceEventIfChangedAtHead_follows h).imp_right And.left

theorem desiredEventIfChangedAtHead_follows
    (h : desiredEventIfChangedAtHead rt m d desired adminProofs head payload = .ok (some planned)) :
    Follows rt head planned ∧ planned.1.resource = desiredResourceForIX desired.ixID := by
  obtain ⟨events, -, h⟩ := bind_eq_ok.mp h
  split_ifs at h
  · cases h
  · obtain ⟨planned', hplanned, hsome⟩ := map_eq_ok.mp h
    cases hsome
    exact (signedConfigEventAtHead_follows hplanned).imp_right And.left

/-- The head of a log with the planned event at its end is the planned one. -/
theorem Follows.head_append (h : Follows rt head planned) (stored : List Event) :
    MemoryStore.head rt.crypto.sha256Text (stored ++ [planned.1]) = .ok planned.2 := by
  unfold MemoryStore.head
  simp only [List.getLast?_append, List.getLast?_singleton, Option.some_or, h.next_hash, Except.map]
  rw [← h.next_seq]

/-! ## A small daemon

`ix-a` of the small world, with a configuration of one switch besides the trust policy:
it is on if the JSON text of the policy is written after a blank.  Digests and signatures
are checksums, which keeps the events short. -/

def checksum (bytes : List UInt8) : ℕ :=
  bytes.foldl (fun acc byte => (acc * 257 + byte.toNat + 1) % 1000000007) 0

/-- The checksum in 64 digits. -/
def checksumDigest (bytes : List UInt8) : String :=
  String.ofList ((Nat.toDigits 10 (checksum bytes)).leftpad 64 '0')

def checksumSign (cert : Certificate) (text : List Char) : List UInt8 :=
  cert.raw ++ [UInt8.ofNat (checksum (GoText.encodeUtf8 text))]

def checksumCrypto : Crypto :=
  { labCrypto with
    sha256Hex := checksumDigest
    verify := fun cert text signature => signature == checksumSign cert text }

def labConfig (trust : TrustConfig) (on : Bool) : Desired Bool :=
  ⟨"lab", ["root.pem"], "ix-a", "ix-a.pem", "ix-a.key", trust, on⟩

def labRuntime : Runtime Bool Unit where
  crypto := checksumCrypto
  decodeDesired := fun payload => do
    let v ← unmarshal payload
    let trust ← decodeTrust emptyTrust v
    .ok (labConfig trust (payload.head? == some 0x20))
  encodeDesired := fun desired =>
    .ok (GoText.encodeUtf8 ((if desired.rest then [' '] else []) ++ desired.trust.toJson.print))
  normalizeRest := Desired.rest
  parseAdmissionPayload := fun _ _ => .error "no admissions"
  parseEndpointGrantPayload := fun _ _ => .error "no grants"
  validateDesiredSchema := fun _ _ _ => .ok ()
  verifyLocalRouteAuthorizations := fun _ => .ok ()
  validateRoutes := fun _ => .ok ()
  noMembers := ()

def noReplaceFaults : ReplaceFaults :=
  ⟨false, ⟨false, false, false, false, noFaults, false⟩, noFaults⟩

/-- A call in which nothing fails. -/
def labMoment : Moment Bool Unit where
  now := labNow
  loadCertificate := labWorld.loadCertificate
  sign := fun path text =>
    if path = "ix-a.key" then .ok (checksumSign labIX text) else .error "no such file"
  newEventID := fun seq => .ok ("evt-" ++ toString seq)
  write := noFaults
  replace := noReplaceFaults
  rollback := noReplaceFaults
  persist := fun _ => .done
  effect := fun _ => none
  switchPlan := fun _ _ => ⟨false, false, false, false, false, false, false, false⟩
  pruneMembers := fun _ members => ⟨members, false, false⟩
  admitMembers := fun _ members => members
  admitted := []
  refreshMembers := fun _ members => members
  memberFile := ([], ())

/-- The admin's signature under a request. -/
def checksumProof (method requestURI bodySHA256 : String) : AdminProof where
  signerID := signerIDForAdminCert checksumCrypto labAdmin
  certificate := some labAdmin.raw
  method := method
  requestURI := requestURI
  bodySHA256 := bodySHA256
  timestamp := labNow
  signature := some (checksumSign labAdmin
    (signingBytesForBodyHash method requestURI labNow.format bodySHA256))

/-- The daemon with a log, at a head. -/
def labDaemon (trust : TrustConfig) (log : List Event) (head : Head) : Daemon Bool Unit where
  desired := labConfig trust false
  store := ⟨none, log⟩
  head := head
  signerCerts := AList.singleton "ix:ix-a" labIX
  signerFile := []
  members := ()
  advertised := some head
  moments := [(some head, log)]

/-- The genesis event of the small domain, and its head. -/
def labGenesis : Event :=
  ((configGenesisEvent (labRuntime.world labMoment) "lab" ["root.pem"]).toOption).getD zeroEvent

def labGenesisHead : Head :=
  ⟨1, ((labGenesis.hash checksumCrypto.sha256Text).toOption).getD ""⟩

theorem head_labGenesis :
    MemoryStore.head labRuntime.crypto.sha256Text [labGenesis] = .ok labGenesisHead := rfl

theorem wellFormed_labGenesis : WellFormed labRuntime.crypto.sha256Text [labGenesis] := by
  have hvalid : labGenesis.validateBasic = .ok () := by decide
  have hseq : labGenesis.seq = 1 := by decide
  have hprev : labGenesis.prevHash = "" := by decide
  refine WellFormed.appendEvent wellFormed_nil (MemoryStore.appendEvent_eq_ok.mpr ⟨hvalid, ?_, rfl⟩)
  exact ⟨hseq, congrArg some hprev.symm⟩

end ConfigDaemon
