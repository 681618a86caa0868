/-
# The daemon and config sync

The state of a daemon that the config log depends on, its cache of signer certificates,
and the sync of config events (`internal/daemon/config_sync.go`, `revocation.go`,
`trust_resource.go`, `admission_resource.go`).  Everything outside the log code that a
call meets (the clock, files, the runtime's side effects and their failures) comes with
the call as a `Moment`.
-/
import TrustIX.LogVerify
import TrustIX.Mutation

namespace ConfigDaemon

open Pki TrustPolicy ConfigEvent ConfigStore EventVerify LogVerify

/-! ## Outside the log code -/

/-- The parts of the daemon that stay abstract: codecs, parsers and schema checks.  `M`
is what the daemon knows of the members of its domain. -/
structure Runtime (R M : Type) where
  crypto : Crypto
  decodeDesired : List UInt8 → Except String (Desired R)
  /-- `json.Marshal` of a desired configuration. -/
  encodeDesired : Desired R → Except String (List UInt8)
  normalizeRest : Desired R → R
  parseAdmissionPayload : List UInt8 → String → Except String String
  parseEndpointGrantPayload : List UInt8 → String → Except String String
  /-- `validateDesiredSchemaForRuntime` of a daemon with this configuration and these
  members. -/
  validateDesiredSchema : Desired R → M → Desired R → Except String Unit
  verifyLocalRouteAuthorizations : Desired R → Except String Unit
  /-- `validateDesiredKernelTunnelConflicts` and the routing table. -/
  validateRoutes : Desired R → Except String Unit
  noMembers : M

/-- Where the signer cache is written. -/
inductive PersistPoint where
  | enforce
  | admitted (signer : String)
  | register
  | commit
  | rollback
  deriving DecidableEq

/-- How the write of a state file ends: a write whose directory is not synced is in
place. -/
inductive Persisted where
  | done
  | failed (text : String)
  | unsynced (text : String)
  deriving DecidableEq

/-- Who switches the runtime: an apply, the same apply after a failed append, or a rejoin
that is rolled back. -/
inductive Round where
  | forward
  | back
  | rejoin
  deriving DecidableEq

/-- The steps of `switchDesiredRuntime` and `restoreDesiredRuntimeState` that may fail. -/
inductive SwitchStep where
  | closeDataPath
  | closeCaptureForwarder
  | detach
  | ensureKernelModules
  | reconcileKernelModuleRuntimeTuning
  | closeDataSessions
  | closeDataSessionsForPeers
  | restartHostAPIServers
  | restartDNSServer
  | syncDNSMasq
  | stopKernelDatapathRXStage
  | loadAttachDataplane
  | startKernelDatapathRXStage
  | startCaptureForwarder
  | startTransportListeners
  | refreshLocalAdvertisement
  | applyRuntimeDataplaneSnapshot
  | warmKernelDirectRouteSessions
  deriving DecidableEq

/-- What differs between two configurations, as the switch from one to the other asks. -/
structure SwitchPlan where
  restartListeners : Bool
  restartAllSessions : Bool
  restartPeers : Bool
  restartHostAPI : Bool
  restartDNS : Bool
  restartDNSMasq : Bool
  kernelModuleDataplaneChange : Bool
  reloadAttachSpec : Bool

/-- Side effects on the runtime that may fail, each where it is made. -/
inductive Effect where
  | kernelModules
  | loadMembers
  | persistMembers
  | persistPendingMembers
  | closeSessions
  | afterTrust
  | trustAdvertisement
  | admissionMembers
  | admissionSessions
  | admissionDataplane
  | admissionAdvertisement
  | grantSessions
  | grantDataplane
  | grantAdvertisement
  | syncAdvertisement
  | rejoinAdvertisement
  | applyDataplane
  /-- A step of a switch, before or after the new configuration is installed. -/
  | switch (round : Round) (installed : Bool) (step : SwitchStep)
  | restore (round : Round) (step : SwitchStep)
  | persistRestored
  | startup
  | startAdvertisement
  | restartAdvertisement
  | sessionAdvertisement
  deriving DecidableEq

/-- The members that are left, and whether members or pending members went. -/
structure Pruned (M : Type) where
  members : M
  membersChanged : Bool
  pendingChanged : Bool

/-- What a call meets outside the log code. -/
structure Moment (R M : Type) where
  now : GoTime.Time
  loadCertificate : String → Except String Certificate
  /-- `pki.Sign` with the key in a file. -/
  sign : String → List Char → Except String (List UInt8)
  /-- `newEventID`, for the event at a position. -/
  newEventID : ℕ → Except String String
  write : WriteFaults
  replace : ReplaceFaults
  rollback : ReplaceFaults
  persist : PersistPoint → Persisted
  effect : Effect → Option String
  switchPlan : Desired R → Desired R → SwitchPlan
  /-- `pruneRevokedMembers` and `pruneInvalidPendingMembers`. -/
  pruneMembers : Desired R → M → Pruned M
  /-- `pruneUnadmittedMembersLocked` and `admitPendingMembers`. -/
  admitMembers : List Event → M → M
  /-- The certificates of the pending members that are admitted then. -/
  admitted : List Certificate
  /-- The own record that `refreshLocalAdvertisement` writes. -/
  refreshMembers : Desired R → M → M
  /-- The certificates of the records in the members file that verify, and the members
  they make. -/
  memberFile : List Certificate × M

variable {R M : Type}

/-- What verification reads of the outside. -/
def Runtime.world (rt : Runtime R M) (m : Moment R M) : World R where
  crypto := rt.crypto
  now := m.now
  loadCertificate := m.loadCertificate
  decodeDesired := rt.decodeDesired
  normalizeRest := rt.normalizeRest
  parseAdmissionPayload := rt.parseAdmissionPayload
  parseEndpointGrantPayload := rt.parseEndpointGrantPayload

/-! ## The daemon -/

structure Daemon (R M : Type) where
  desired : Desired R
  store : FileStore
  head : Head
  signerCerts : SignerMap
  /-- `config-signers.json`. -/
  signerFile : List SignerEntry
  members : M
  /-- The `ConfigHead` of the local advertisement, once there is one. -/
  advertised : Option Head
  /-- What a peer could find at each moment so far: the advertised head and the log. -/
  moments : List (Option Head × List Event)

def Daemon.node (rt : Runtime R M) (d : Daemon R M) : Node R where
  domainID := d.desired.domainID
  domainTrustRoots := d.desired.domainTrustRoots
  signerCerts := d.signerCerts
  validateDesiredSchema := rt.validateDesiredSchema d.desired d.members

/-- How a mutation fails: rejected, or `committedConfigMutationError`, where the log has
changed. -/
inductive Failure where
  | rejected (text : String)
  | committed (operation text : String)
  deriving DecidableEq

def Failure.text : Failure → String
  | .rejected text => text
  | .committed operation text => operation ++ " committed: " ++ text

/-- A peer may look at this moment. -/
def Daemon.observed (d : Daemon R M) : Daemon R M :=
  { d with moments := d.moments ++ [(d.advertised, d.store.memory)] }

/-- The store has changed, or has failed to. -/
def Daemon.settled (d : Daemon R M) (store : FileStore) : Daemon R M :=
  Daemon.observed { d with store := store }

abbrev Act (R M α : Type) := Mutation (Daemon R M) Failure α

open Mutation

/-- A check that touches nothing. -/
def check {α : Type} (x : Except String α) : Act R M α := ofResult (x.mapError .rejected)

variable (rt : Runtime R M) (m : Moment R M)

def runEffect (effect : Effect) : Act R M Unit := failIf ((m.effect effect).map .rejected)

/-- Every failure of `act` is one after the commit. -/
def afterCommit {α : Type} (operation : String) (act : Act R M α) : Act R M α :=
  tryCatch act fun
    | .rejected text => throw (.committed operation text)
    | .committed _ text => throw (.committed operation text)

/-- `store.Head`. -/
def storeHead : Act R M Head := do
  let d ← get
  check (MemoryStore.head rt.crypto.sha256Text d.store.memory)

/-- `store.Head` and `store.Range` of the whole log. -/
def storeLog : Act R M (List Event) := do
  let d ← get
  check (storedEvents (rt.world m) d.store.memory)

def setConfigHead (head : Head) : Act R M Unit := modify fun d => { d with head := head }

/-- What a store operation leaves: its commit error is kept for later, any other error
ends the mutation. -/
def settleStore (result : Option StoreError × FileStore) : Act R M (Option StoreError) := do
  modify fun d => d.settled result.2
  match result.1 with
  | none => pure none
  | some err => if commitSucceeded err then pure (some err) else throw (.rejected "config log store")

/-- `store.AppendBatch`. -/
def storeAppendBatch (events : List Event) : Act R M (Option StoreError) := do
  let d ← get
  settleStore (d.store.appendBatch rt.crypto.sha256Text m.write events)

/-- `store.ReplaceAll`. -/
def storeReplaceAll (faults : ReplaceFaults) (events : List Event) :
    Act R M (Option StoreError) := do
  let d ← get
  settleStore (d.store.replaceAll rt.crypto.sha256Text faults events)

/-- A commit error that was kept ends the mutation at last. -/
def reportCommit (err : Option StoreError) : Act R M Unit :=
  failIf (err.map fun _ => .rejected "config log directory is not synced")

/-! ## The signer cache -/

/-- `persistConfigSignerCacheState`: whether the file was replaced, and the error. -/
def persistConfigSignerCacheState (point : PersistPoint) (signers : SignerMap)
    (file : List SignerEntry) : Option String × Bool × List SignerEntry :=
  let entries := signers.entries.map fun entry => ⟨entry.1, entry.2.raw⟩
  match m.persist point with
  | .done => (none, true, entries)
  | .failed text => (some text, false, file)
  | .unsynced text => (some text, true, entries)

/-- A signer's certificate enters the cache unless the cache has it. -/
def putSigner (signers : SignerMap) (signer : String) (cert : Certificate) : SignerMap :=
  match signers.lookup signer with
  | some existing => if existing.raw = cert.raw then signers else signers.insert signer cert
  | none => signers.insert signer cert

/-- `commitConfigSignerCertificates`, once the certificates are checked. -/
def storeSigners (point : PersistPoint) (signers : SignerMap) (persist : Bool) :
    Act R M Unit := do
  let d ← get
  let next := signers.entries.foldl (fun next entry => putSigner next entry.1 entry.2) d.signerCerts
  let changed := signers.entries.any fun entry =>
    (d.signerCerts.lookup entry.1).all fun existing => existing.raw != entry.2.raw
  if persist && changed then
    let (err, replaced, file) := persistConfigSignerCacheState m point next d.signerFile
    modify fun d =>
      { d with signerFile := file, signerCerts := if replaced then next else d.signerCerts }
    failIf (err.map .rejected)
  else
    modify fun d => { d with signerCerts := next }

def commitConfigSignerCertificates (point : PersistPoint) (signers : SignerMap)
    (persist : Bool) : Act R M Unit := do
  let d ← get
  signers.entries.forM fun entry => do
    let expected ← check (configSignerIDForCertificate (d.node rt) entry.2)
    if expected ≠ entry.1 then
      throw (.rejected ("signer certificate id is " ++ expected.quote ++ ", used as " ++
        entry.1.quote))
    else pure ()
  storeSigners m point signers persist

def registerConfigSignerCertificate (point : PersistPoint) (cert : Certificate)
    (persist : Bool) : Act R M Unit := do
  let d ← get
  if cert.role ≠ roleIX then
    throw (.rejected ("signer certificate role is " ++ cert.role.quote))
  else if cert.domain ≠ d.desired.domainID then
    throw (.rejected ("signer certificate domain is " ++ cert.domain.quote))
  else do
    check (verifyCertificateNotRevokedByTrust rt.crypto d.desired.trust cert "signer certificate")
    if GoText.trimSpace cert.ix = "" then
      throw (.rejected "signer certificate ix is required")
    else do
      check (verifyChainWithTrust (rt.world m) (d.node rt) "" d.desired.trust cert)
      commitConfigSignerCertificates rt m point
        (AList.singleton (signerIDForIX cert.ix) cert) persist

/-- A failed write is retried in memory. -/
def commitConfigSignerCertificatesAfterLogCommit (signers : SignerMap) : Act R M Unit :=
  tryCatch (commitConfigSignerCertificates rt m .commit signers true) fun err => do
    commitConfigSignerCertificates rt m .commit signers false
    throw err

/-! ## After the log has changed -/

/-- `pruneRevokedConfigSigners`: whether the cache changed.  Only the local signer's
certificate is dropped, and the one in the certificate file takes its place. -/
def pruneRevokedConfigSigners : Act R M Bool := do
  let d ← get
  let signer := signerIDForIX d.desired.ixID
  let revoked := (d.signerCerts.lookup signer).any fun cert =>
    decide (rt.crypto.fingerprint cert ∈ revokedCertificateFingerprintsFromTrust d.desired.trust)
  let kept := if revoked then d.signerCerts.erase signer else d.signerCerts
  modify fun d => { d with signerCerts := kept }
  if d.desired.ixCertPath = "" then pure revoked
  else do
    let cert ← check (m.loadCertificate d.desired.ixCertPath)
    if (kept.lookup signer).any (fun existing => existing.raw == cert.raw) then pure revoked
    else do
      check (verifyCertificateNotRevokedByTrust rt.crypto d.desired.trust cert
        "local config signer certificate")
      modify fun d => { d with signerCerts := kept.insert signer cert }
      pure true

/-- `persistConfigSignerCache`. -/
def persistConfigSignerCache (point : PersistPoint) : Act R M Unit := do
  let d ← get
  let (err, _, file) := persistConfigSignerCacheState m point d.signerCerts d.signerFile
  modify fun d => { d with signerFile := file }
  failIf (err.map .rejected)

/-- The head in force is advertised. -/
def Daemon.published (d : Daemon R M) : Daemon R M :=
  Daemon.observed
    { d with advertised := some d.head, members := m.refreshMembers d.desired d.members }

/-- Signs the local advertisement and publishes it. -/
def refreshLocalAdvertisement (point : Effect) : Act R M Unit := do
  runEffect m point
  modify (Daemon.published m)

/-- Whether members or signers changed. -/
def enforceRuntimeTrustState : Act R M Bool := do
  let d ← get
  let pruned := m.pruneMembers d.desired d.members
  modify fun d => { d with members := pruned.members }
  let signersChanged ← pruneRevokedConfigSigners rt m
  onlyIf pruned.membersChanged (runEffect m .persistMembers)
  onlyIf pruned.pendingChanged (runEffect m .persistPendingMembers)
  onlyIf signersChanged (persistConfigSignerCache m .enforce)
  onlyIf (pruned.membersChanged || signersChanged) (runEffect m .closeSessions)
  pure (pruned.membersChanged || pruned.pendingChanged || signersChanged)

/-- Sessions, dataplane and advertisement are all attempted. -/
def afterTrustStateChangedLocked : Act R M Unit := do
  let _ ← enforceRuntimeTrustState rt m
  let errs ← attemptAll
    [runEffect m .afterTrust, refreshLocalAdvertisement m .trustAdvertisement]
  failIf errs.head?

def applyLatestDomainTrustFromLogLocked : Act R M Unit := do
  let events ← storeLog rt m
  let d ← get
  match ← check (latestDomainTrust (rt.world m) d.desired.domainID events) with
  | none => pure ()
  | some trust =>
    if trustConfigsEqual rt.crypto d.desired.trust trust then pure ()
    else do
      modify fun d => { d with desired := { d.desired with trust := trust } }
      afterTrustStateChangedLocked rt m

/-- The errors of single pending members stay with them. -/
def admitPendingMembers : Act R M Unit :=
  m.admitted.forM fun cert =>
    tryCatch
      (registerConfigSignerCertificate rt m (.admitted (signerIDForIX cert.ix)) cert true)
      fun _ => pure ()

/-- A session that does not close does not stop the rest. -/
def afterAdmissionStateChangedLocked : Act R M Unit := do
  modify fun d => { d with members := m.admitMembers d.store.memory d.members }
  admitPendingMembers rt m
  runEffect m .admissionMembers
  runEffect m .admissionDataplane
  let errs ← attemptAll
    [runEffect m .admissionSessions, refreshLocalAdvertisement m .admissionAdvertisement]
  failIf errs.head?

/-! ## Sync -/

/-- The policy under which the first event of a sync is checked. -/
def syncTrust (localTrust : TrustConfig) (stored events : List Event) : TrustConfig :=
  if !eventsContainDomainTrust stored && eventsContainDomainTrust events then emptyTrust
  else localTrust

/-- What follows the append: the new head, the policy in force, the members, and the
certificates that were used. -/
def afterSync (used : SignerMap) (commitErr : Option StoreError) : Act R M Unit := do
  let head ← storeHead rt
  setConfigHead head
  applyLatestDomainTrustFromLogLocked rt m
  afterAdmissionStateChangedLocked rt m
  refreshLocalAdvertisement m .syncAdvertisement
  commitConfigSignerCertificatesAfterLogCommit rt m used
  reportCommit commitErr

/-- `appendVerifiedConfigEvents`: the number of events appended. -/
def appendVerifiedConfigEvents (events : List Event) (signers : List SignerEntry) :
    Act R M ℕ :=
  if events = [] then pure 0
  else do
    let head ← storeHead rt
    let stored ← storeLog rt m
    let d ← get
    let staged ← check (parseConfigSignerCertificates (rt.world m) (d.node rt) signers)
    let s ← check (walk (rt.world m) (d.node rt) staged
      (walkFrom (syncTrust d.desired.trust stored events) head) events)
    let commitErr ← storeAppendBatch rt m events
    afterCommit "config sync" (afterSync rt m s.used commitErr)
    pure events.length

/-! ## Reads and writes of the store -/

variable {rt m}

variable {α : Type}

theorem exec_check (x : Except String α) (d : Daemon R M) :
    exec (check x) d = (x.mapError .rejected, d) := rfl

variable {d d' : Daemon R M}

theorem exec_check_eq_ok {x : Except String α} {a : α} :
    exec (check x) d = (.ok a, d') ↔ x = .ok a ∧ d' = d := by
  rw [exec_check]
  cases x with
  | error err => simp [Except.mapError]
  | ok b => simp [Except.mapError, eq_comm]

theorem exec_runEffect_eq_ok {effect : Effect}
    (h : exec (runEffect m effect) d = (.ok (), d')) : d' = d := by
  unfold runEffect at h
  cases heffect : m.effect effect with
  | none =>
    rw [heffect] at h
    cases h
    rfl
  | some text =>
    rw [heffect] at h
    cases h

theorem exec_reportCommit_eq_ok {commitErr : Option StoreError}
    (h : exec (reportCommit commitErr) d = (.ok (), d')) : d' = d := by
  cases commitErr with
  | none =>
    cases h
    rfl
  | some err => cases h

/-- A check that passes is known to have passed. -/
theorem moves_check_bind {r : Daemon R M → Daemon R M → Prop} [Std.Refl r]
    {α β : Type} {x : Except String α} {f : α → Act R M β}
    (hf : ∀ a, x = .ok a → Moves r (f a)) : Moves r (check x >>= f) := by
  intro d
  cases x with
  | error err => exact Std.Refl.refl d
  | ok a => exact hf a rfl d

theorem exec_storeHead (d : Daemon R M) :
    exec (storeHead rt) d =
      ((MemoryStore.head rt.crypto.sha256Text d.store.memory).mapError .rejected, d) := rfl

theorem exec_storeLog (d : Daemon R M) :
    exec (storeLog rt m) d =
      ((storedEvents (rt.world m) d.store.memory).mapError .rejected, d) := rfl

theorem exec_storeHead_eq_ok {head : Head} :
    exec (storeHead rt) d = (.ok head, d') ↔
      MemoryStore.head rt.crypto.sha256Text d.store.memory = .ok head ∧ d' = d := by
  rw [exec_storeHead]
  exact exec_check_eq_ok

theorem exec_storeLog_eq_ok {events : List Event} :
    exec (storeLog rt m) d = (.ok events, d') ↔
      storedEvents (rt.world m) d.store.memory = .ok events ∧ d' = d := by
  rw [exec_storeLog]
  exact exec_check_eq_ok

/-- A call on the store does nothing, or all it was asked. -/
theorem exec_settleStore (sha256Hex : List Char → String) (call : ConfigStore.Call)
    (d : Daemon R M) :
    (Failed (step sha256Hex d.store call).1 ∧
      exec (settleStore (step sha256Hex d.store call)) d =
        (.error (.rejected "config log store"), d.settled d.store)) ∨
    (¬ Failed (step sha256Hex d.store call).1 ∧
      ∃ commitErr store, store.memory = call.applied d.store.memory ∧
        (WellFormed sha256Hex d.store.memory → WellFormed sha256Hex store.memory) ∧
        exec (settleStore (step sha256Hex d.store call)) d = (.ok commitErr, d.settled store)) := by
  obtain ⟨hfailed, happlied⟩ := @step_all_or_nothing sha256Hex d.store call
  have hwell : WellFormed sha256Hex d.store.memory →
      WellFormed sha256Hex (step sha256Hex d.store call).2.memory :=
    fun h => wellFormed_step h call
  generalize step sha256Hex d.store call = result at hfailed happlied hwell ⊢
  obtain ⟨err, store⟩ := result
  cases err with
  | none =>
    have hnot : ¬ Failed none := by
      rintro ⟨e, he, -⟩
      cases he
    exact .inr ⟨hnot, none, store, happlied hnot, hwell, rfl⟩
  | some err =>
    cases hcommit : commitSucceeded err with
    | true =>
      have hnot : ¬ Failed (some err) := by
        rintro ⟨e, he, hfalse⟩
        cases he
        rw [hcommit] at hfalse
        cases hfalse
      refine .inr ⟨hnot, some err, store, happlied hnot, hwell, ?_⟩
      unfold settleStore
      simp only [hcommit, if_true]
      rfl
    | false =>
      have hfail : Failed (some err) := ⟨err, rfl, hcommit⟩
      refine .inl ⟨hfail, ?_⟩
      unfold settleStore
      rw [exec_bind, exec_modify]
      simp only [hcommit, Bool.false_eq_true, if_false, exec_throw]
      rw [show store = d.store from hfailed hfail]

theorem exec_storeAppendBatch (events : List Event) (d : Daemon R M) :
    (Failed (d.store.appendBatch rt.crypto.sha256Text m.write events).1 ∧
      exec (storeAppendBatch rt m events) d =
        (.error (.rejected "config log store"), d.settled d.store)) ∨
    (¬ Failed (d.store.appendBatch rt.crypto.sha256Text m.write events).1 ∧
      ∃ commitErr store, store.memory = d.store.memory ++ events ∧
        (WellFormed rt.crypto.sha256Text d.store.memory →
          WellFormed rt.crypto.sha256Text store.memory) ∧
        exec (storeAppendBatch rt m events) d = (.ok commitErr, d.settled store)) :=
  exec_settleStore rt.crypto.sha256Text (.appendBatch events m.write) d

theorem exec_storeReplaceAll (faults : ReplaceFaults) (events : List Event) (d : Daemon R M) :
    (Failed (d.store.replaceAll rt.crypto.sha256Text faults events).1 ∧
      exec (storeReplaceAll rt faults events) d =
        (.error (.rejected "config log store"), d.settled d.store)) ∨
    (¬ Failed (d.store.replaceAll rt.crypto.sha256Text faults events).1 ∧
      ∃ commitErr store, store.memory = events ∧
        (WellFormed rt.crypto.sha256Text d.store.memory →
          WellFormed rt.crypto.sha256Text store.memory) ∧
        exec (storeReplaceAll rt faults events) d = (.ok commitErr, d.settled store)) :=
  exec_settleStore rt.crypto.sha256Text (.replaceAll events faults) d

/-! ## What stays steady

Around the changes of log, head and configuration a call makes many others: to members,
signer certificates and the advertisement.  None of them touches the former, and what
they publish is the head in force. -/

/-- Log and head stay, and nothing but the head is published. -/
structure Calm (d d' : Daemon R M) : Prop where
  store : d'.store = d.store
  head : d'.head = d.head
  advertised : d'.advertised = d.advertised ∨ d'.advertised = some d.head
  moments : ∃ seen, d'.moments = d.moments ++ seen ∧
    ∀ x ∈ seen, x.2 = d.store.memory ∧ (x.1 = d.advertised ∨ x.1 = some d.head)

/-- The configuration stays as well. -/
structure Steady (d d' : Daemon R M) : Prop extends Calm d d' where
  desired : d'.desired = d.desired

theorem Calm.refl (d : Daemon R M) : Calm d d :=
  ⟨rfl, rfl, .inl rfl, [], (List.append_nil _).symm, by simp⟩

theorem Calm.trans {d₁ d₂ d₃ : Daemon R M} (h : Calm d₁ d₂) (h' : Calm d₂ d₃) : Calm d₁ d₃ := by
  obtain ⟨seen, hseen, hall⟩ := h.moments
  obtain ⟨seen', hseen', hall'⟩ := h'.moments
  have hpublished : ∀ a, a = d₂.advertised ∨ a = some d₂.head →
      a = d₁.advertised ∨ a = some d₁.head := by
    intro a ha
    rcases ha with rfl | rfl
    · exact h.advertised
    · rw [h.head]
      exact .inr rfl
  refine ⟨h'.store.trans h.store, h'.head.trans h.head, hpublished _ h'.advertised,
    seen ++ seen', ?_, ?_⟩
  · rw [hseen', hseen, List.append_assoc]
  · intro x hx
    rcases List.mem_append.mp hx with hx | hx
    · exact hall x hx
    · obtain ⟨hlog, hx⟩ := hall' x hx
      rw [h.store] at hlog
      exact ⟨hlog, hpublished _ hx⟩

instance : IsPreorder (Daemon R M) Calm where
  refl := Calm.refl
  trans _ _ _ := Calm.trans

instance : IsPreorder (Daemon R M) Steady where
  refl d := ⟨Calm.refl d, rfl⟩
  trans _ _ _ h h' := ⟨h.toCalm.trans h'.toCalm, h'.desired.trans h.desired⟩

theorem calm_of_steady {act : Act R M α} (h : Moves Steady act) : Moves Calm act :=
  fun d => (h d).toCalm

/-- A change to the members and the signer certificates only. -/
theorem steady_of_eq (hstore : d'.store = d.store) (hhead : d'.head = d.head)
    (hdesired : d'.desired = d.desired) (hadvertised : d'.advertised = d.advertised)
    (hmoments : d'.moments = d.moments) : Steady d d' :=
  ⟨⟨hstore, hhead, .inl hadvertised, [], by rw [hmoments, List.append_nil], by simp⟩, hdesired⟩

theorem steady_check (x : Except String α) : Moves Steady (check x : Act R M α) := moves_ofResult _

/-- What follows a commit reports its errors as committed, and does nothing else to them. -/
theorem moves_afterCommit {r : Daemon R M → Daemon R M → Prop}
    [IsPreorder (Daemon R M) r] {operation : String} {act : Act R M α} (h : Moves r act) :
    Moves r (afterCommit operation act) := by
  refine h.tryCatch fun err => ?_
  cases err with
  | rejected text => exact moves_throw _
  | committed _ text => exact moves_throw _

theorem steady_runEffect (effect : Effect) : Moves Steady (runEffect m effect) := moves_failIf _

theorem steady_refreshLocalAdvertisement (point : Effect) :
    Moves Steady (refreshLocalAdvertisement m point) := by
  refine (steady_runEffect point).bind fun _ => moves_modify fun d => ?_
  refine ⟨⟨rfl, rfl, .inr rfl, [(some d.head, d.store.memory)], rfl, ?_⟩, rfl⟩
  intro x hx
  rw [List.mem_singleton] at hx
  subst hx
  exact ⟨rfl, .inr rfl⟩

theorem steady_persistConfigSignerCache (point : PersistPoint) :
    Moves Steady (persistConfigSignerCache m point : Act R M Unit) := by
  refine moves_get.bind fun d => ?_
  refine Moves.bind (moves_modify fun d => steady_of_eq rfl rfl rfl rfl rfl) fun _ => ?_
  exact moves_failIf _

theorem steady_storeSigners (point : PersistPoint) (signers : SignerMap) (persist : Bool) :
    Moves Steady (storeSigners m point signers persist : Act R M Unit) := by
  refine moves_get.bind fun d => moves_ite ?_ ?_
  · refine Moves.bind (moves_modify fun d => steady_of_eq rfl rfl rfl rfl rfl) fun _ => ?_
    exact moves_failIf _
  · exact moves_modify fun d => steady_of_eq rfl rfl rfl rfl rfl

theorem steady_commitConfigSignerCertificates (point : PersistPoint) (signers : SignerMap)
    (persist : Bool) : Moves Steady (commitConfigSignerCertificates rt m point signers persist) := by
  refine moves_get.bind fun d => Moves.bind (moves_forM fun entry => ?_) fun _ =>
    steady_storeSigners point signers persist
  exact (steady_check _).bind fun expected => moves_ite (moves_throw _) (moves_pure _)

theorem steady_registerConfigSignerCertificate (point : PersistPoint) (cert : Certificate)
    (persist : Bool) : Moves Steady (registerConfigSignerCertificate rt m point cert persist) := by
  refine moves_get.bind fun d => moves_ite (moves_throw _) (moves_ite (moves_throw _) ?_)
  refine (steady_check _).bind fun _ => moves_ite (moves_throw _) ?_
  exact (steady_check _).bind fun _ => steady_commitConfigSignerCertificates _ _ _

theorem steady_commitAfterLogCommit (signers : SignerMap) :
    Moves Steady (commitConfigSignerCertificatesAfterLogCommit rt m signers) :=
  (steady_commitConfigSignerCertificates _ _ _).tryCatch fun _ =>
    (steady_commitConfigSignerCertificates _ _ _).bind fun _ => moves_throw _

theorem steady_pruneRevokedConfigSigners : Moves Steady (pruneRevokedConfigSigners rt m) := by
  refine moves_get.bind fun d => ?_
  refine Moves.bind (moves_modify fun d => steady_of_eq rfl rfl rfl rfl rfl) fun _ => ?_
  refine moves_ite (moves_pure _) ((steady_check _).bind fun cert => ?_)
  refine moves_ite (moves_pure _) ((steady_check _).bind fun _ => ?_)
  exact Moves.bind (moves_modify fun d => steady_of_eq rfl rfl rfl rfl rfl) fun _ => moves_pure _

theorem steady_enforceRuntimeTrustState : Moves Steady (enforceRuntimeTrustState rt m) := by
  refine moves_get.bind fun d => ?_
  refine Moves.bind (moves_modify fun d => steady_of_eq rfl rfl rfl rfl rfl) fun _ => ?_
  refine steady_pruneRevokedConfigSigners.bind fun signersChanged => ?_
  refine ((steady_runEffect _).onlyIf _).bind fun _ => ?_
  refine ((steady_runEffect _).onlyIf _).bind fun _ => ?_
  refine ((steady_persistConfigSignerCache _).onlyIf _).bind fun _ => ?_
  exact ((steady_runEffect _).onlyIf _).bind fun _ => moves_pure _

/-- An effect and a refresh that are both attempted. -/
theorem steady_attemptRefresh (effect point : Effect) :
    Moves Steady (do
      let errs ← attemptAll [runEffect m effect, refreshLocalAdvertisement m point]
      failIf errs.head? : Act R M Unit) := by
  refine Moves.bind (moves_attemptAll ?_) fun errs => moves_failIf _
  intro act hact
  rcases List.mem_cons.mp hact with rfl | hact
  · exact steady_runEffect _
  · rw [List.mem_singleton] at hact
    rw [hact]
    exact steady_refreshLocalAdvertisement _

theorem steady_afterTrustStateChangedLocked : Moves Steady (afterTrustStateChangedLocked rt m) :=
  steady_enforceRuntimeTrustState.bind fun _ => steady_attemptRefresh _ _

theorem steady_admitPendingMembers : Moves Steady (admitPendingMembers rt m) :=
  moves_forM fun _ =>
    (steady_registerConfigSignerCertificate _ _ _).tryCatch fun _ => moves_pure _

theorem steady_afterAdmissionStateChangedLocked :
    Moves Steady (afterAdmissionStateChangedLocked rt m) := by
  refine Moves.bind (moves_modify fun d => steady_of_eq rfl rfl rfl rfl rfl) fun _ => ?_
  refine steady_admitPendingMembers.bind fun _ => ?_
  refine (steady_runEffect _).bind fun _ => ?_
  exact (steady_runEffect _).bind fun _ => steady_attemptRefresh _ _

/-- The policy of the log comes into force. -/
theorem calm_applyLatestDomainTrustFromLogLocked :
    Moves Calm (applyLatestDomainTrustFromLogLocked rt m) := by
  refine Moves.bind (Moves.bind moves_get fun d => moves_ofResult _) fun events => ?_
  refine moves_get.bind fun d => (calm_of_steady (steady_check _)).bind fun latest => ?_
  cases latest with
  | none => exact moves_pure _
  | some trust =>
    refine moves_ite (moves_pure _) ?_
    refine Moves.bind (moves_modify fun d => ?_) fun _ =>
      calm_of_steady steady_afterTrustStateChangedLocked
    exact ⟨rfl, rfl, .inl rfl, [], (List.append_nil _).symm, by simp⟩

end ConfigDaemon
