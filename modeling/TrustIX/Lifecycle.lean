/-
# The life of a daemon

A daemon starts from its files (`loadAndApply` of `internal/daemon/daemon.go`), then
applies configurations, changes trust, admissions and grants, takes events from peers,
and may replace its whole log with the verified snapshot of a peer
(`replaceConfigLogWithVerifiedSnapshot` of `config_sync.go`, with its rollback in
`config_restore_archive.go`).
-/
import TrustIX.DesiredApply
import TrustIX.Runs

namespace ConfigDaemon

open Pki TrustPolicy ConfigEvent ConfigStore EventVerify LogVerify Fallible Mutation

variable {R M : Type} (rt : Runtime R M) (m : Moment R M)

/-! ## Start -/

/-- A new process has read nothing yet. -/
def Daemon.booted (d : Daemon R M) : Daemon R M :=
  Daemon.observed
    { d with head := ⟨0, ""⟩, signerCerts := ∅, members := rt.noMembers, advertised := none }

/-- `configlog.NewFileStore`. -/
def openStore : Act R M Unit := do
  let d ← get
  match newFileStore rt.crypto.sha256Text d.store.file with
  | .ok store => modify fun d => d.settled store
  | .error _ => throw (.rejected "open config log")

def registerLocalConfigSigner : Act R M Unit := do
  let d ← get
  if d.desired.ixCertPath = "" then pure ()
  else do
    let cert ← check (m.loadCertificate d.desired.ixCertPath)
    let signerID ← check (configSignerIDForCertificate (d.node rt) cert)
    commitConfigSignerCertificates rt m .register (AList.singleton signerID cert) false

def loadConfigSignerCache : Act R M Unit := do
  let d ← get
  let signers ← check (parseConfigSignerCertificates (rt.world m) (d.node rt) d.signerFile)
  commitConfigSignerCertificates rt m .register signers false

/-- `loadPersistedMembers`: a record whose certificate is refused is left out. -/
def loadPersistedMembers : Act R M Unit := do
  runEffect m .loadMembers
  m.memberFile.1.forM fun cert =>
    tryCatch (registerConfigSignerCertificate rt m .register cert false) fun _ => pure ()
  modify fun d => { d with members := m.memberFile.2 }

/-- The genesis event of an empty log. -/
def ensureConfigGenesisEvent (desired : Desired R) : Act R M Unit := do
  let head ← storeHead rt
  if 0 < head.seq then pure ()
  else do
    let event ← check
      (configGenesisEvent (rt.world m) desired.domainID desired.domainTrustRoots)
    let commitErr ← storeAppendBatch rt m [event]
    reportCommit commitErr

/-- The last configuration of this IX in the log. -/
def latestLocalDesiredFromEvents (d : Daemon R M) (events : List Event) :
    Except String (Option (Desired R)) :=
  match events.reverse.find? (isDesiredOf rt d.desired.ixID) with
  | none => .ok none
  | some event => do
    let decoded ← (rt.decodeDesired event.payload.bytes).mapError
      ("decode desired event seq " ++ toString event.seq ++ ": " ++ ·)
    (validateDesiredForRuntime rt m d (normalize (rt.world m) decoded)).mapError
      ("validate desired event seq " ++ toString event.seq ++ ": " ++ ·)
    .ok (some (normalize (rt.world m) decoded))

/-- The whole configuration of the last local event comes into force, its trust policy
included. -/
def restoreLatestLocalDesiredFromLogLocked : Act R M Unit := do
  let head ← storeHead rt
  let events ← storeLog rt m
  let d ← get
  match ← check (latestLocalDesiredFromEvents rt m d events) with
  | none => pure ()
  | some desired =>
    if desiredConfigsEqual rt d.desired desired then pure ()
    else do
      runEffect m .kernelModules
      setRuntimeDesired desired head

/-- What follows the check of the log. -/
def restoreFromLog : Act R M Unit := do
  let head ← storeHead rt
  setConfigHead head
  applyLatestDomainTrustFromLogLocked rt m
  restoreLatestLocalDesiredFromLogLocked rt m

/-- Starts with the configuration file `file`. -/
def loadAndApply (file : Except String (Desired R)) : Act R M Unit := do
  modify (Daemon.booted rt)
  let desired ← check file
  check (rt.verifyLocalRouteAuthorizations desired)
  modify fun d => { d with desired := desired }
  runEffect m .kernelModules
  openStore rt
  registerLocalConfigSigner rt m
  loadConfigSignerCache rt m
  loadPersistedMembers rt m
  ensureConfigGenesisEvent rt m desired
  let d ← get
  check (verifyExistingConfigLog (rt.world m) (d.node rt) desired.trust d.store.memory)
  restoreFromLog rt m
  admitPendingMembers rt m
  refreshLocalAdvertisement m .startAdvertisement
  runEffect m .startup
  refreshLocalAdvertisement m .restartAdvertisement

/-! ## Rejoin -/

/-- Members, advertisement and signer certificates as they were; the errors of writing
them are returned. -/
def restoreConfigRestoreMutableState (old : Daemon R M) : Act R M (List Failure) := do
  modify fun d => Daemon.observed
    { d with
      members := old.members
      advertised := old.advertised
      signerCerts := old.signerCerts }
  attemptAll [runEffect m .persistRestored, persistConfigSignerCache m .rollback]

/-- Brings the old log back, then what belongs to it. -/
def rollbackFailedConfigSnapshotRestore {α : Type} (operation : String) (old : Daemon R M)
    (oldEvents : List Event) (cause : Failure) : Act R M α := do
  let replaceErr ← tryCatch (storeReplaceAll rt m.rollback oldEvents) fun err =>
    throw (.committed operation (cause.text ++ "\nrollback previous config log: " ++ err.text))
  let stateErrs ← restoreConfigRestoreMutableState m old
  let runtimeErrs ← restoreDesiredRuntimeState m .rejoin old.desired old.head
  if replaceErr.isNone && stateErrs.isEmpty && runtimeErrs.isEmpty then
    throw (.rejected ("restore failed and was rolled back: " ++ cause.text))
  else throw (.rejected (cause.text ++ "\nrestore rollback incomplete"))

/-- The configuration in force goes into the new log; a commit error is kept for later. -/
def rejoinBaseline (preserveLocalDesired : Bool) : Act R M (Bool × Option Failure) :=
  if preserveLocalDesired then
    tryCatch
      (do
        let changed ← ensureLocalDesiredBaselineLocked rt m []
        pure (changed, none))
      fun
      | .committed operation text => pure (true, some (.committed operation text))
      | .rejected text => throw (.rejected text)
  else pure (false, none)

/-- The new log is put to use: whether the configuration was appended. -/
def adoptReplacedLog (preserveLocalDesired : Bool) : Act R M (Bool × Option Failure) := do
  let head ← storeHead rt
  setConfigHead head
  applyLatestDomainTrustFromLogLocked rt m
  afterAdmissionStateChangedLocked rt m
  rejoinBaseline rt m preserveLocalDesired

/-- What follows the replacement of the log. -/
def afterReplace (preserveLocalDesired : Bool) : Act R M (Bool × Option Failure) := do
  let result ← adoptReplacedLog rt m preserveLocalDesired
  refreshLocalAdvertisement m .rejoinAdvertisement
  pure result

/-- Replaces the log by that of a peer. -/
def replaceConfigLogWithVerifiedSnapshot (snapshot : Snapshot) (preserveLocalDesired : Bool) :
    Act R M Bool := do
  let old ← get
  let used ← check
    (verifyConfigSnapshotLocked (rt.world m) (old.node rt) old.desired.trust snapshot)
  let head ← storeHead rt
  check (rejectIf (head ≠ old.head) "config log head changed before rejoin")
  let oldEvents ← storeLog rt m
  let commitErr ← storeReplaceAll rt m.replace snapshot.events
  let result ← tryCatch (afterReplace rt m preserveLocalDesired)
    (rollbackFailedConfigSnapshotRestore rt m "config rejoin" old oldEvents)
  afterCommit "config rejoin" do
    commitConfigSignerCertificatesAfterLogCommit rt m used
    reportCommit commitErr
    failIf result.2
  pure result.1

/-! ## Calls -/

/-- What a daemon is asked to do. -/
inductive Call (R : Type) where
  | start (file : Except String (Desired R))
  | applyDesired (desired : Desired R) (adminProofs : List AdminProof)
  | applyTrust (trust : TrustConfig) (adminProofs : List AdminProof)
  | applyAdmission (prepare : Head → Except String (String × List UInt8))
      (adminProofs : List AdminProof)
  | applyEndpointGrant (prepare : Head → Except String (String × List UInt8))
      (adminProofs : List AdminProof)
  | sync (events : List Event) (signers : List SignerEntry)
  | rejoin (snapshot : Snapshot) (preserveLocalDesired : Bool)
  /-- A device session changes what is advertised. -/
  | refresh

/-- A call, without its answer. -/
def perform : Call R → Act R M Unit
  | .start file => loadAndApply rt m file
  | .applyDesired desired adminProofs => discard (applyDesiredConfigLocked rt m desired adminProofs)
  | .applyTrust trust adminProofs => discard (applyTrustConfigLocked rt m trust adminProofs)
  | .applyAdmission prepare adminProofs =>
    discard (applyAdmissionConfigLocked rt m prepare adminProofs)
  | .applyEndpointGrant prepare adminProofs =>
    discard (applyEndpointGrantConfigLocked rt m prepare adminProofs)
  | .sync events signers => discard (appendVerifiedConfigEvents rt m events signers)
  | .rejoin snapshot preserveLocalDesired =>
    discard (replaceConfigLogWithVerifiedSnapshot rt m snapshot preserveLocalDesired)
  | .refresh => refreshLocalAdvertisement m .sessionAdvertisement

/-- The state after a call, whatever its answer. -/
def step (d : Daemon R M) (event : Moment R M × Call R) : Option (Daemon R M) :=
  some (exec (perform rt event.1 event.2) d).2

/-! ## Where the log stays -/

variable {rt m}

/-- The log stays. -/
def SameLog (d d' : Daemon R M) : Prop := d'.store = d.store

instance : IsPreorder (Daemon R M) SameLog where
  refl _ := rfl
  trans _ _ _ h h' := Eq.trans h' h

theorem sameLog_of_calm {α : Type} {act : Act R M α} (h : Moves Calm act) : Moves SameLog act :=
  fun d => (h d).store

theorem sameLog_of_steady {α : Type} {act : Act R M α} (h : Moves Steady act) : Moves SameLog act :=
  fun d => (h d).store

theorem sameLog_storeHead : Moves SameLog (storeHead rt : Act R M Head) :=
  moves_get.bind fun _ => moves_ofResult _

theorem sameLog_storeLog : Moves SameLog (storeLog rt m) := moves_get.bind fun _ => moves_ofResult _

theorem sameLog_restoreFromLog : Moves SameLog (restoreFromLog rt m) := by
  refine sameLog_storeHead.bind fun head => ?_
  refine Moves.bind (moves_modify fun _ => rfl) fun _ => ?_
  refine (sameLog_of_calm calm_applyLatestDomainTrustFromLogLocked).bind fun _ => ?_
  refine sameLog_storeHead.bind fun head => sameLog_storeLog.bind fun events => ?_
  refine moves_get.bind fun d => (sameLog_of_steady (steady_check _)).bind fun latest => ?_
  cases latest with
  | none => exact moves_pure _
  | some desired =>
    refine moves_ite (moves_pure _) ((sameLog_of_steady (steady_runEffect _)).bind fun _ => ?_)
    exact moves_modify fun _ => rfl

/-! ## What a start does -/

theorem steady_registerLocalConfigSigner : Moves Steady (registerLocalConfigSigner rt m) := by
  refine moves_get.bind fun d => moves_ite (moves_pure _) ((steady_check _).bind fun cert => ?_)
  exact (steady_check _).bind fun signerID => steady_commitConfigSignerCertificates _ _ _

theorem steady_loadConfigSignerCache : Moves Steady (loadConfigSignerCache rt m) :=
  moves_get.bind fun _ => (steady_check _).bind fun _ => steady_commitConfigSignerCertificates _ _ _

theorem steady_loadPersistedMembers : Moves Steady (loadPersistedMembers rt m) := by
  refine (steady_runEffect _).bind fun _ => Moves.bind ?_ fun _ => ?_
  · exact moves_forM fun cert =>
      (steady_registerConfigSignerCertificate _ _ _).tryCatch fun _ => moves_pure _
  · exact moves_modify fun d => steady_of_eq rfl rfl rfl rfl rfl

/-- A start up to the check of the log: the log that was stored, or the genesis event. -/
structure Opened (rt : Runtime R M) (m : Moment R M) (file : Desired R)
    (stored : List Event) (d : Daemon R M) : Prop where
  desired : d.desired = file
  wellFormed : WellFormed rt.crypto.sha256Text d.store.memory
  log : d.store.memory = stored ∧ stored ≠ [] ∨
    stored = [] ∧ ∃ event,
      configGenesisEvent (rt.world m) file.domainID file.domainTrustRoots = .ok event ∧
        d.store.memory = [event]

/-- The genesis event goes into an empty log only. -/
theorem opened_ensureConfigGenesisEvent {desired : Desired R} {d d' : Daemon R M}
    (hdesired : d.desired = desired) (hwell : WellFormed rt.crypto.sha256Text d.store.memory)
    (h : exec (ensureConfigGenesisEvent rt m desired) d = (.ok (), d')) :
    Opened rt m desired d.store.memory d' := by
  obtain ⟨head, d₁, hread, hrest⟩ := exec_bind_eq_ok.mp h
  obtain ⟨hhead, rfl⟩ := exec_storeHead_eq_ok.mp hread
  obtain ⟨hlength, -⟩ := MemoryStore.head_eq_ok hwell hhead
  by_cases hpos : 0 < head.seq
  · rw [if_pos hpos] at hrest
    cases hrest
    refine ⟨hdesired, hwell, .inl ⟨rfl, ?_⟩⟩
    exact List.ne_nil_of_length_pos (hlength ▸ hpos)
  · rw [if_neg hpos] at hrest
    have hempty : d₁.store.memory = [] := by
      apply List.length_eq_zero_iff.mp
      omega
    obtain ⟨event, d₂, hmade, hwrite⟩ := exec_bind_eq_ok.mp hrest
    obtain ⟨hevent, rfl⟩ := exec_check_eq_ok.mp hmade
    obtain ⟨commitErr, d₃, happend, hreport⟩ := exec_bind_eq_ok.mp hwrite
    obtain rfl := exec_reportCommit_eq_ok hreport
    rcases @exec_storeAppendBatch R M rt m [event] d₂ with
      ⟨-, hfailed⟩ | ⟨-, commitErr', store, hstore, hwell', happended⟩
    · rw [hfailed] at happend
      cases happend
    · rw [happended] at happend
      cases happend
      refine ⟨hdesired, hwell' hwell, .inr ⟨hempty, event, hevent, ?_⟩⟩
      show store.memory = [event]
      rw [hstore, hempty, List.nil_append]

/-- **What a successful start does**: it opens the log, checks it, restores from it what
is in force, and keeps that. -/
theorem exec_loadAndApply_eq_ok {desired : Desired R} {d d' : Daemon R M}
    (h : exec (loadAndApply rt m (.ok desired)) d = (.ok (), d')) :
    ∃ stored opened restored, load rt.crypto.sha256Text d.store.file = .ok stored ∧
      Opened rt m desired stored opened ∧
      verifyExistingConfigLog (rt.world m) (opened.node rt) desired.trust opened.store.memory =
        .ok () ∧
      exec (restoreFromLog rt m) opened = (.ok (), restored) ∧ Steady restored d' := by
  obtain ⟨⟨⟩, d₁, hbooted, r₁⟩ := exec_bind_eq_ok.mp h
  cases hbooted
  obtain ⟨desired', d₂, hfile, r₂⟩ := exec_bind_eq_ok.mp r₁
  cases hfile
  obtain ⟨⟨⟩, d₃, hroutes, r₃⟩ := exec_bind_eq_ok.mp r₂
  obtain ⟨-, rfl⟩ := exec_check_eq_ok.mp hroutes
  obtain ⟨⟨⟩, d₄, hdesired, r₄⟩ := exec_bind_eq_ok.mp r₃
  cases hdesired
  obtain ⟨⟨⟩, d₅, hmodules, r₅⟩ := exec_bind_eq_ok.mp r₄
  obtain rfl := exec_runEffect_eq_ok hmodules
  obtain ⟨⟨⟩, d₆, hopen, r₆⟩ := exec_bind_eq_ok.mp r₅
  -- the store is opened from the file
  unfold openStore at hopen
  rw [exec_bind, exec_get] at hopen
  simp only at hopen
  cases hstore : newFileStore rt.crypto.sha256Text (Daemon.booted rt d).store.file with
  | error err =>
    rw [hstore] at hopen
    cases hopen
  | ok store =>
  rw [hstore] at hopen
  have hmirrored := mirrored_newFileStore hstore
  obtain ⟨stored, hload, rfl⟩ := map_eq_ok.mp hstore
  have hlog : d₆.store.memory = stored ∧ d₆.desired = desired := by
    cases hopen
    exact ⟨rfl, rfl⟩
  obtain ⟨⟨⟩, d₇, hlocal, r₇⟩ := exec_bind_eq_ok.mp r₆
  obtain ⟨⟨⟩, d₈, hcache, r₈⟩ := exec_bind_eq_ok.mp r₇
  obtain ⟨⟨⟩, d₉, hmembers, r₉⟩ := exec_bind_eq_ok.mp r₈
  have hsteady : Steady d₆ d₉ := by
    have h₇ := @steady_registerLocalConfigSigner R M rt m d₆
    have h₈ := @steady_loadConfigSignerCache R M rt m d₇
    have h₉ := @steady_loadPersistedMembers R M rt m d₈
    rw [hlocal] at h₇
    rw [hcache] at h₈
    rw [hmembers] at h₉
    exact trans_of Steady (trans_of Steady h₇ h₈) h₉
  obtain ⟨⟨⟩, opened, hgenesis, r₁₀⟩ := exec_bind_eq_ok.mp r₉
  have hmemory : d₉.store.memory = stored := by
    rw [hsteady.store]
    exact hlog.1
  have hopened := opened_ensureConfigGenesisEvent (hsteady.desired.trans hlog.2)
    (hmemory ▸ hmirrored.1) hgenesis
  rw [hmemory] at hopened
  obtain ⟨d₁₀, d₁₁, hget, r₁₁⟩ := exec_bind_eq_ok.mp r₁₀
  cases hget
  obtain ⟨⟨⟩, d₁₂, hverify, r₁₂⟩ := exec_bind_eq_ok.mp r₁₁
  obtain ⟨hverified, rfl⟩ := exec_check_eq_ok.mp hverify
  obtain ⟨⟨⟩, restored, hrestore, r₁₃⟩ := exec_bind_eq_ok.mp r₁₂
  refine ⟨stored, _, restored, hload, hopened, hverified, hrestore, ?_⟩
  have hrest : Moves Steady (do
      admitPendingMembers rt m
      refreshLocalAdvertisement m .startAdvertisement
      runEffect m .startup
      refreshLocalAdvertisement m .restartAdvertisement) := by
    refine steady_admitPendingMembers.bind fun _ => ?_
    refine (steady_refreshLocalAdvertisement _).bind fun _ => ?_
    exact (steady_runEffect _).bind fun _ => steady_refreshLocalAdvertisement _
  have hmove := hrest restored
  rw [r₁₃] at hmove
  exact hmove

/-! ## A first start -/

/-- The small daemon before it has a log. -/
def labFresh : Daemon Bool Unit :=
  { labDaemon emptyTrust [] ⟨0, ""⟩ with signerCerts := ∅, advertised := none, moments := [] }

/-- The state after its first start. -/
def labStarted : Daemon Bool Unit :=
  (exec (loadAndApply labRuntime labMoment (.ok (labConfig emptyTrust false))) labFresh).2

theorem exec_labStarted :
    exec (loadAndApply labRuntime labMoment (.ok (labConfig emptyTrust false))) labFresh =
      (.ok (), labStarted) := by
  have hok : (exec (loadAndApply labRuntime labMoment (.ok (labConfig emptyTrust false)))
      labFresh).1 = .ok () := by
    decide +kernel
  exact eq_ok_of_fst hok

end ConfigDaemon
