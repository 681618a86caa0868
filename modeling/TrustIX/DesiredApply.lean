/-
# Applying a desired configuration

`applyDesiredConfigLocked` plans the events of a new configuration, switches the runtime
to it at the planned head, and only then appends the events; if the append fails, it
switches the runtime back (`internal/daemon/config_api.go`).  Each switch has a dozen
steps that may fail, and restores what it found if one does.

* `apply_all_or_nothing_iff` : the call is all or nothing unless the append fails and the
  switch back fails too.
-/
import TrustIX.LocalMutation

namespace ConfigDaemon

open Pki TrustPolicy ConfigEvent ConfigStore EventVerify LogVerify Fallible Mutation

variable {R M : Type} (rt : Runtime R M) (m : Moment R M)

/-! ## Switching the runtime -/

/-- The steps before the new configuration is installed. -/
def SwitchPlan.before (plan : SwitchPlan) : List SwitchStep :=
  if plan.kernelModuleDataplaneChange then
    [.closeDataPath, .closeCaptureForwarder, .detach, .ensureKernelModules]
  else if plan.restartListeners then [.closeDataPath]
  else if plan.restartAllSessions then [.closeDataSessions]
  else if plan.restartPeers then [.closeDataSessionsForPeers]
  else []

/-- Steps that are made on a condition. -/
def stepsIf (c : Bool) (steps : List SwitchStep) : List SwitchStep := if c then steps else []

/-- The steps after that, up to the advertisement.  A dataplane that was detached for new
kernel modules is not detached again. -/
def SwitchPlan.after (plan : SwitchPlan) : List SwitchStep :=
  stepsIf plan.restartHostAPI [.restartHostAPIServers] ++
  stepsIf plan.restartDNS [.restartDNSServer] ++
  stepsIf (plan.restartDNS || plan.restartDNSMasq) [.syncDNSMasq] ++
  stepsIf (plan.reloadAttachSpec || plan.kernelModuleDataplaneChange)
    (.stopKernelDatapathRXStage :: .closeCaptureForwarder ::
      stepsIf (!plan.kernelModuleDataplaneChange) [.detach]) ++
  stepsIf (plan.reloadAttachSpec || plan.kernelModuleDataplaneChange)
    [.loadAttachDataplane, .startKernelDatapathRXStage, .startCaptureForwarder] ++
  stepsIf (plan.restartListeners || plan.kernelModuleDataplaneChange) [.startTransportListeners]

/-- `setRuntimeDesired`, on a state. -/
def Daemon.install (d : Daemon R M) (desired : Desired R) (head : Head) : Daemon R M :=
  { d with desired := desired, head := head }

def setRuntimeDesired (desired : Desired R) (head : Head) : Act R M Unit :=
  modify fun d => d.install desired head

/-- The steps of a restore before the old configuration is installed. -/
def restoreBefore : List SwitchStep := [.closeDataPath, .closeCaptureForwarder]

/-- The steps after that, up to the advertisement. -/
def restoreAfter : List SwitchStep :=
  [.detach, .ensureKernelModules, .loadAttachDataplane, .startKernelDatapathRXStage,
    .startCaptureForwarder, .startTransportListeners, .restartHostAPIServers, .restartDNSServer,
    .syncDNSMasq]

/-- `restoreDesiredRuntimeState`: every step is attempted, and their errors returned. -/
def restoreDesiredRuntimeState (round : Round) (desired : Desired R) (head : Head) :
    Act R M (List Failure) := do
  let closeErrs ← attemptAll (restoreBefore.map fun step => runEffect m (.restore round step))
  setRuntimeDesired desired head
  let startErrs ← attemptAll (restoreAfter.map fun step => runEffect m (.restore round step))
  let adErr ← attempt
    (refreshLocalAdvertisement m (.restore round .refreshLocalAdvertisement))
  let snapshotErr ← attempt (runEffect m (.restore round .applyRuntimeDataplaneSnapshot))
  pure (closeErrs ++ startErrs ++ adErr.toList ++ snapshotErr.toList)

/-- The cause of a restore is what is reported. -/
def restoreDesiredRuntime (round : Round) (desired : Desired R) (head : Head)
    (cause : Failure) : Act R M Unit := do
  let errs ← restoreDesiredRuntimeState m round desired head
  match errs with
  | [] => throw (.rejected cause.text)
  | _ => throw (.rejected (cause.text ++ "; restore previous runtime: " ++
      "\n".intercalate (errs.map Failure.text)))

/-- The steps of a switch whose failure is answered by a restore. -/
def switchSteps (round : Round) (plan : SwitchPlan) (desired : Desired R) (head : Head) :
    Act R M Unit := do
  plan.before.forM fun step => runEffect m (.switch round false step)
  setRuntimeDesired desired head
  plan.after.forM fun step => runEffect m (.switch round true step)
  refreshLocalAdvertisement m (.switch round true .refreshLocalAdvertisement)
  runEffect m (.switch round true .applyRuntimeDataplaneSnapshot)
  runEffect m (.switch round true .warmKernelDirectRouteSessions)

def switchDesiredRuntime (round : Round) (desired : Desired R) (head : Head) : Act R M Unit := do
  let old ← get
  -- without new kernel modules, the tuning comes first and its failure is returned as it is
  onlyIf (!(m.switchPlan old.desired desired).kernelModuleDataplaneChange)
    (runEffect m (.switch round false .reconcileKernelModuleRuntimeTuning))
  tryCatch (switchSteps m round (m.switchPlan old.desired desired) desired head)
    (restoreDesiredRuntime m round old.desired old.head)

/-! ## Planning an apply -/

def desiredConfigsEqual (left right : Desired R) : Bool :=
  match rt.encodeDesired left, rt.encodeDesired right with
  | .ok leftPayload, .ok rightPayload => leftPayload == rightPayload
  | _, _ => false

def validateTrustRoots (desired : Desired R) : Except String Unit :=
  desired.domainTrustRoots.forM fun path => do
    let cert ← (m.loadCertificate path).mapError ("load trust root " ++ path.quote ++ ": " ++ ·)
    verifyCertificateNotRevokedByTrust rt.crypto desired.trust cert
      ("trust root " ++ path.quote)

/-- Signs an event that is thrown away. -/
def verifyDesiredSigner (desired : Desired R) : Except String Unit := do
  let payload ← rt.encodeDesired desired
  let _ ← signConfigEvent rt m
    { domainID := desired.domainID
      eventID := "evt-validate"
      seq := 1
      prevHash := ""
      resource := "/desired"
      action := actionUpsert
      payload := some payload
      signerID := signerIDForIX desired.ixID
      signature := none
      createdAt := m.now
      effectiveAt := m.now
      adminProofs := [] } desired
  .ok ()

def validateDesiredForRuntime (d : Daemon R M) (raw : Desired R) : Except String Unit := do
  let desired := normalize (rt.world m) raw
  rt.validateDesiredSchema d.desired d.members desired
  rejectIf (d.desired.domainID ≠ "" ∧ desired.domainID ≠ d.desired.domainID)
    ("hot apply cannot change domain id from " ++ d.desired.domainID.quote ++ " to " ++
      desired.domainID.quote)
  rejectIf (d.desired.ixID ≠ "" ∧ desired.ixID ≠ d.desired.ixID)
    ("hot apply cannot change local ix id from " ++ d.desired.ixID.quote ++ " to " ++
      desired.ixID.quote)
  validateTrustRoots rt m desired
  rt.verifyLocalRouteAuthorizations desired
  verifyDesiredSigner rt m desired
  rt.validateRoutes desired

/-- The proofs that are not by an admin the policy revokes. -/
def adminProofsNotRevokedByTrust (proofs : List AdminProof) (trust : TrustConfig) :
    List AdminProof :=
  proofs.filter fun proof =>
    match rt.crypto.parseCertificate proof.certificate.bytes with
    | .ok cert =>
      decide (rt.crypto.fingerprint cert ∉ revokedCertificateFingerprintsFromTrust trust)
    | .error _ => false

/-- Events for the end of a log, and the head they lead to. -/
structure Planned where
  events : List Event
  head : Head

/-- `appendPlanned` of `applyDesiredConfigLocked`. -/
def Planned.add (plan : Planned) : Option (Event × Head) → Planned
  | none => plan
  | some (event, head) => ⟨plan.events ++ [event], head⟩

section Plan

variable (d : Daemon R M) (desired : Desired R) (adminProofs : List AdminProof)

def trustChanged : Bool := !trustConfigsEqual rt.crypto d.desired.trust desired.trust

/-- A change of the policy needs the admins of the policy in force. -/
def requireAdminProofs : Except String Unit :=
  if trustChanged rt d desired then
    verifyAdminProofPolicy (rt.world m) (d.node rt) adminProofs d.desired.trust
  else .ok ()

/-- The configuration in force, if the log has none of this IX. -/
def baselineEvent (head : Head) : Except String (Option (Event × Head)) := do
  let exists_ ← hasLocalDesiredEventLocked rt m d d.desired.ixID
  if exists_ then .ok none
  else do
    let payload ← (rt.encodeDesired d.desired).mapError
      ("encode baseline desired config: " ++ ·)
    desiredEventIfChangedAtHead rt m d d.desired
      (if desiredConfigsEqual rt d.desired desired then adminProofs else []) head payload

/-- The new policy, if it is another one. -/
def trustEvent (head : Head) : Except String (Option (Event × Head)) :=
  if trustChanged rt d desired then
    domainTrustEventIfChangedAtHead rt m d desired.trust adminProofs head
  else .ok none

/-- The new configuration, unless the baseline event carries it. -/
def desiredEvent (baselineChanged : Bool) (head : Head) :
    Except String (Option (Event × Head)) :=
  if baselineChanged && desiredConfigsEqual rt d.desired desired then .ok none
  else do
    let payload ← (rt.encodeDesired desired).mapError ("encode desired config: " ++ ·)
    desiredEventIfChangedAtHead rt m d desired
      (if trustChanged rt d desired then adminProofsNotRevokedByTrust rt adminProofs desired.trust
      else adminProofs) head payload

/-- Everything `applyDesiredConfigLocked` does before the runtime is touched: the plan, and
whether something changes. -/
def planDesired : Except String (Planned × Bool) := do
  validateDesiredForRuntime rt m d desired
  requireAdminProofs rt m d desired adminProofs
  let head ← MemoryStore.head rt.crypto.sha256Text d.store.memory
  let baseline ← baselineEvent rt m d desired adminProofs head
  let plan := Planned.add ⟨[], head⟩ baseline
  let trust ← trustEvent rt m d desired adminProofs plan.head
  let plan := plan.add trust
  let next ← desiredEvent rt m d desired adminProofs baseline.isSome plan.head
  .ok (plan.add next, next.isSome || trustChanged rt d desired || baseline.isSome)

end Plan

/-! ## The apply -/

/-- What follows the append of the planned events. -/
def afterApply (commitErr : Option StoreError) : Act R M Unit := do
  let head ← storeHead rt
  setConfigHead head
  let runtimeTrustChanged ← enforceRuntimeTrustState rt m
  onlyIf runtimeTrustChanged (runEffect m .applyDataplane)
  reportCommit commitErr

/-- The append, and the way back if it fails. -/
def appendOrSwitchBack (old : Daemon R M) (events : List Event) : Act R M (Option StoreError) :=
  tryCatch (storeAppendBatch rt m events) fun err => do
    let restoreErr ← attempt (switchDesiredRuntime m .back old.desired old.head)
    throw (.rejected ("append desired config events: " ++ err.text ++
      restoreErr.elim "" fun e => "; restore previous runtime: " ++ e.text))

def applyDesiredConfigLocked (desired : Desired R) (adminProofs : List AdminProof) :
    Act R M Bool := do
  let d ← get
  let (plan, changed) ← check (planDesired rt m d desired adminProofs)
  if plan.events = [] then
    if desiredConfigsEqual rt d.desired desired then pure false
    else do
      switchDesiredRuntime m .forward desired plan.head
      pure false
  else do
    switchDesiredRuntime m .forward desired plan.head
    let commitErr ← appendOrSwitchBack rt m d plan.events
    afterCommit "config apply" (afterApply rt m commitErr)
    pure changed

/-! ## What a switch leaves -/

variable {rt m}

theorem exec_runEffect (effect : Effect) (d : Daemon R M) :
    exec (runEffect m effect) d =
      (match m.effect effect with
      | none => .ok ()
      | some text => .error (.rejected text), d) := by
  unfold runEffect
  cases m.effect effect with
  | none => rfl
  | some text => rfl

/-- Effects made one after the other touch nothing of the state. -/
theorem exec_forM_runEffect {α : Type} (effect : α → Effect) (steps : List α) (d : Daemon R M) :
    (exec (steps.forM fun step => runEffect m (effect step)) d = (.ok (), d) ∧
      ∀ step ∈ steps, m.effect (effect step) = none) ∨
    ∃ text, exec (steps.forM fun step => runEffect m (effect step)) d =
        (.error (.rejected text), d) ∧ ∃ step ∈ steps, m.effect (effect step) ≠ none := by
  induction steps with
  | nil => exact .inl ⟨rfl, by simp⟩
  | cons step rest ih =>
    have hcons : (step :: rest).forM (fun step => runEffect m (effect step)) =
        (runEffect m (effect step) >>= fun _ =>
          rest.forM fun step => runEffect m (effect step)) := rfl
    rw [hcons, exec_bind, exec_runEffect]
    cases hstep : m.effect (effect step) with
    | some text => exact .inr ⟨text, rfl, step, List.mem_cons_self, by simp [hstep]⟩
    | none =>
      rcases ih with ⟨hexec, hall⟩ | ⟨text, hexec, other, hmem, hother⟩
      · exact .inl ⟨hexec, List.forall_mem_cons.mpr ⟨hstep, hall⟩⟩
      · exact .inr ⟨text, hexec, other, List.mem_cons_of_mem _ hmem, hother⟩

/-- An effect that is made or not is a list of one effect or of none. -/
theorem exec_onlyIf_runEffect (c : Bool) (effect : SwitchStep → Effect) (step : SwitchStep)
    (d : Daemon R M) : exec (onlyIf c (runEffect m (effect step))) d =
      exec ((stepsIf c [step]).forM fun step => runEffect m (effect step)) d := by
  cases c with
  | false => rfl
  | true =>
    show _ = exec (runEffect m (effect step) >>= fun _ => pure ()) d
    rw [exec_bind, onlyIf, if_pos rfl, exec_runEffect]
    cases m.effect (effect step) <;> rfl

theorem exec_attempt_runEffect (effect : Effect) (d : Daemon R M) :
    ∃ err, exec (attempt (runEffect m effect)) d = (.ok err, d) := by
  unfold attempt
  rw [exec_tryCatch, exec_bind, exec_runEffect]
  cases m.effect effect with
  | none => exact ⟨none, rfl⟩
  | some text => exact ⟨some (.rejected text), rfl⟩

theorem exec_attemptAll_runEffect (effect : SwitchStep → Effect) (steps : List SwitchStep)
    (d : Daemon R M) :
    ∃ errs, exec (attemptAll (steps.map fun step => runEffect m (effect step))) d =
      (.ok errs, d) := by
  induction steps with
  | nil => exact ⟨[], rfl⟩
  | cons step rest ih =>
    obtain ⟨err, herr⟩ := exec_attempt_runEffect (effect step) d
    obtain ⟨errs, herrs⟩ := ih
    refine ⟨err.toList ++ errs, ?_⟩
    rw [List.map_cons, attemptAll, exec_bind_of_ok herr, exec_bind_of_ok herrs]
    rfl

theorem exec_refresh (point : Effect) (d : Daemon R M) :
    exec (refreshLocalAdvertisement m point) d =
      match m.effect point with
      | none => (.ok (), d.published m)
      | some text => (.error (.rejected text), d) := by
  unfold refreshLocalAdvertisement
  rw [exec_bind, exec_runEffect]
  cases m.effect point with
  | none => rfl
  | some text => rfl

theorem exec_attempt_refresh (point : Effect) (d : Daemon R M) :
    ∃ err, exec (attempt (refreshLocalAdvertisement m point)) d =
      (.ok err, if m.effect point = none then d.published m else d) := by
  unfold attempt
  rw [exec_tryCatch, exec_bind, exec_refresh]
  cases m.effect point with
  | none => exact ⟨none, rfl⟩
  | some text => exact ⟨some (.rejected text), rfl⟩

/-- The state after a restore: of its steps only the advertisement shows. -/
def Daemon.restored (m : Moment R M) (round : Round) (d : Daemon R M) (desired : Desired R)
    (head : Head) : Daemon R M :=
  if m.effect (.restore round .refreshLocalAdvertisement) = none then
    (d.install desired head).published m
  else d.install desired head

theorem exec_restoreDesiredRuntimeState (round : Round) (desired : Desired R) (head : Head)
    (d : Daemon R M) :
    ∃ errs, exec (restoreDesiredRuntimeState m round desired head) d =
      (.ok errs, d.restored m round desired head) := by
  obtain ⟨closeErrs, hclose⟩ := exec_attemptAll_runEffect (m := m) (.restore round) restoreBefore d
  obtain ⟨startErrs, hstart⟩ := exec_attemptAll_runEffect (m := m) (.restore round) restoreAfter
    (d.install desired head)
  obtain ⟨adErr, had⟩ := exec_attempt_refresh (m := m)
    (.restore round .refreshLocalAdvertisement) (d.install desired head)
  obtain ⟨snapshotErr, hsnapshot⟩ := exec_attempt_runEffect (m := m)
    (.restore round .applyRuntimeDataplaneSnapshot) (d.restored m round desired head)
  have hset : exec (setRuntimeDesired desired head : Act R M Unit) d =
      (.ok (), d.install desired head) := rfl
  refine ⟨closeErrs ++ startErrs ++ adErr.toList ++ snapshotErr.toList, ?_⟩
  unfold restoreDesiredRuntimeState
  rw [exec_bind_of_ok hclose, exec_bind_of_ok hset, exec_bind_of_ok hstart, exec_bind_of_ok had]
  exact exec_bind_of_ok hsnapshot

theorem exec_restoreDesiredRuntime (round : Round) (desired : Desired R) (head : Head)
    (cause : Failure) (d : Daemon R M) :
    ∃ text, exec (restoreDesiredRuntime m round desired head cause) d =
      (.error (.rejected text), d.restored m round desired head) := by
  obtain ⟨errs, herrs⟩ := exec_restoreDesiredRuntimeState (m := m) round desired head d
  unfold restoreDesiredRuntime
  rw [exec_bind_of_ok herrs]
  cases errs with
  | nil => exact ⟨_, rfl⟩
  | cons err errs => exact ⟨_, rfl⟩

/-- The last steps of every switch. -/
def lastSteps : List SwitchStep :=
  [.refreshLocalAdvertisement, .applyRuntimeDataplaneSnapshot, .warmKernelDirectRouteSessions]

/-- The steps of a switch before the new configuration is installed, the tuning included. -/
def SwitchPlan.tunedBefore (plan : SwitchPlan) : List SwitchStep :=
  stepsIf (!plan.kernelModuleDataplaneChange) [.reconcileKernelModuleRuntimeTuning] ++ plan.before

/-- No step of the switch fails. -/
def Switches (m : Moment R M) (round : Round) (old new : Desired R) : Prop :=
  (∀ step ∈ (m.switchPlan old new).tunedBefore, m.effect (.switch round false step) = none) ∧
    ∀ step ∈ (m.switchPlan old new).after ++ lastSteps, m.effect (.switch round true step) = none

/-- **What a switch does.** It succeeds, or does nothing, or restores what it found after
it came as far as one of three states. -/
inductive Switched (m : Moment R M) (round : Round) (d : Daemon R M) (desired : Desired R)
    (head : Head) : Except Failure Unit × Daemon R M → Prop where
  | done (hall : Switches m round d.desired desired) :
      Switched m round d desired head (.ok (), (d.install desired head).published m)
  | refused {text : String} (hfail : ¬ Switches m round d.desired desired) :
      Switched m round d desired head (.error (.rejected text), d)
  | restored {text : String} {reached : Daemon R M}
      (hfail : ¬ Switches m round d.desired desired)
      (hreached : reached = d ∨ reached = d.install desired head ∨
        reached = (d.install desired head).published m) :
      Switched m round d desired head
        (.error (.rejected text), reached.restored m round d.desired d.head)

/-- How far the steps of a switch come. -/
theorem exec_switchSteps (round : Round) (plan : SwitchPlan) (desired : Desired R) (head : Head)
    (d : Daemon R M) :
    (exec (switchSteps m round plan desired head) d =
        (.ok (), (d.install desired head).published m) ∧
      (∀ step ∈ plan.before, m.effect (.switch round false step) = none) ∧
      ∀ step ∈ plan.after ++ lastSteps, m.effect (.switch round true step) = none) ∨
    ∃ text reached, exec (switchSteps m round plan desired head) d =
        (.error (.rejected text), reached) ∧
      (reached = d ∨ reached = d.install desired head ∨
        reached = (d.install desired head).published m) ∧
      ((∃ step ∈ plan.before, m.effect (.switch round false step) ≠ none) ∨
        ∃ step ∈ plan.after ++ lastSteps, m.effect (.switch round true step) ≠ none) := by
  have hset : exec (setRuntimeDesired desired head : Act R M Unit) d =
      (.ok (), d.install desired head) := rfl
  have hlast : ∀ step ∈ lastSteps, ∀ text, m.effect (.switch round true step) = some text →
      ∃ step ∈ plan.after ++ lastSteps, m.effect (.switch round true step) ≠ none := by
    intro step hmem text htext
    exact ⟨step, List.mem_append_right _ hmem, by simp [htext]⟩
  unfold switchSteps
  rw [exec_bind]
  rcases exec_forM_runEffect (m := m) (.switch round false) plan.before d with
    ⟨hbefore, hbeforeAll⟩ | ⟨text, hbefore, hstep⟩
  · simp only [hbefore]
    rw [exec_bind_of_ok hset, exec_bind]
    rcases exec_forM_runEffect (m := m) (.switch round true) plan.after (d.install desired head)
      with ⟨hafter, hafterAll⟩ | ⟨text, hafter, step, hmem, hstep⟩
    · simp only [hafter]
      rw [exec_bind, exec_refresh]
      cases had : m.effect (.switch round true .refreshLocalAdvertisement) with
      | some text =>
        exact .inr ⟨text, _, rfl, .inr (.inl rfl), .inr (hlast _ (by decide) text had)⟩
      | none =>
        simp only
        rw [exec_bind, exec_runEffect]
        cases hsnapshot : m.effect (.switch round true .applyRuntimeDataplaneSnapshot) with
        | some text =>
          exact .inr ⟨text, _, rfl, .inr (.inr rfl), .inr (hlast _ (by decide) text hsnapshot)⟩
        | none =>
          simp only
          rw [exec_runEffect]
          cases hwarm : m.effect (.switch round true .warmKernelDirectRouteSessions) with
          | some text =>
            exact .inr ⟨text, _, rfl, .inr (.inr rfl), .inr (hlast _ (by decide) text hwarm)⟩
          | none =>
            refine .inl ⟨rfl, hbeforeAll, fun step hstep => ?_⟩
            rcases List.mem_append.mp hstep with hstep | hstep
            · exact hafterAll step hstep
            · simp only [lastSteps, List.mem_cons, List.not_mem_nil, or_false] at hstep
              rcases hstep with rfl | rfl | rfl
              · exact had
              · exact hsnapshot
              · exact hwarm
    · rw [hafter]
      exact .inr ⟨text, _, rfl, .inr (.inl rfl), .inr ⟨step, List.mem_append_left _ hmem, hstep⟩⟩
  · rw [hbefore]
    exact .inr ⟨text, _, rfl, .inl rfl, .inl hstep⟩

theorem switched (round : Round) (desired : Desired R) (head : Head) (d : Daemon R M) :
    Switched m round d desired head (exec (switchDesiredRuntime m round desired head) d) := by
  unfold switchDesiredRuntime
  rw [exec_bind, exec_get]
  simp only
  rw [exec_bind, exec_onlyIf_runEffect _ (.switch round false)]
  rcases exec_forM_runEffect (m := m) (.switch round false)
    (stepsIf (!(m.switchPlan d.desired desired).kernelModuleDataplaneChange)
      [.reconcileKernelModuleRuntimeTuning]) d with
    ⟨htuning, htuningAll⟩ | ⟨text, htuning, step, hmem, hstep⟩
  · simp only [htuning]
    rw [exec_tryCatch]
    rcases exec_switchSteps (m := m) round (m.switchPlan d.desired desired) desired head d with
      ⟨hsteps, hbefore, hafter⟩ | ⟨text, reached, hsteps, hreached, hfail⟩
    · rw [hsteps]
      exact .done ⟨List.forall_mem_append.mpr ⟨htuningAll, hbefore⟩, hafter⟩
    · simp only [hsteps]
      obtain ⟨text', hrestore⟩ := exec_restoreDesiredRuntime (m := m) round d.desired d.head
        (.rejected text) reached
      rw [hrestore]
      refine .restored (fun hall => ?_) hreached
      rcases hfail with ⟨step, hmem, hstep⟩ | ⟨step, hmem, hstep⟩
      · exact hstep (hall.1 step (List.mem_append_right _ hmem))
      · exact hstep (hall.2 step hmem)
  · rw [htuning]
    exact .refused fun hall => hstep (hall.1 step (List.mem_append_left _ hmem))

/-! ## What a plan promises -/

/-- The events of a plan lead from one head to another. -/
structure Planned.Leads (rt : Runtime R M) (start : Head) (plan : Planned) : Prop where
  unchanged : plan.events = [] → plan.head = start
  seq : plan.head.seq = start.seq + plan.events.length
  head_append : plan.events ≠ [] → ∀ stored,
    MemoryStore.head rt.crypto.sha256Text (stored ++ plan.events) = .ok plan.head

theorem Planned.leads_nil (head : Head) : Planned.Leads rt head ⟨[], head⟩ :=
  ⟨fun _ => rfl, rfl, fun h => absurd rfl h⟩

variable {plan : Planned}

theorem Planned.Leads.add {start : Head} (h : plan.Leads rt start) {planned : Option (Event × Head)}
    (hplanned : ∀ p, planned = some p → Follows rt plan.head p) :
    (plan.add planned).Leads rt start := by
  cases planned with
  | none => exact h
  | some p =>
    have hfollows := hplanned p rfl
    refine ⟨fun hnil => ?_, ?_, fun _ stored => ?_⟩
    · simp [Planned.add] at hnil
    · show p.2.seq = start.seq + (plan.events ++ [p.1]).length
      rw [hfollows.next_seq, hfollows.seq, h.seq, List.length_append, List.length_singleton]
      omega
    · show MemoryStore.head rt.crypto.sha256Text (stored ++ (plan.events ++ [p.1])) = _
      rw [← List.append_assoc]
      exact hfollows.head_append _

variable {head : Head}

section Plan

variable {d : Daemon R M} {desired : Desired R} {adminProofs : List AdminProof}

variable {planned : Event × Head}

theorem baselineEvent_follows
    (h : baselineEvent rt m d desired adminProofs head = .ok (some planned)) :
    Follows rt head planned ∧ planned.1.resource = desiredResourceForIX d.desired.ixID := by
  obtain ⟨found, -, h⟩ := bind_eq_ok.mp h
  split at h
  · cases h
  · obtain ⟨payload, -, h⟩ := bind_eq_ok.mp h
    exact desiredEventIfChangedAtHead_follows h

theorem trustEvent_follows
    (h : trustEvent rt m d desired adminProofs head = .ok (some planned)) :
    Follows rt head planned ∧ planned.1.resource = domainTrustResource := by
  unfold trustEvent at h
  split_ifs at h
  · exact domainTrustEventIfChangedAtHead_follows h
  · cases h

theorem desiredEvent_follows {baselineChanged : Bool}
    (h : desiredEvent rt m d desired adminProofs baselineChanged head = .ok (some planned)) :
    Follows rt head planned ∧ planned.1.resource = desiredResourceForIX desired.ixID := by
  unfold desiredEvent at h
  split at h
  · cases h
  · obtain ⟨payload, -, h⟩ := bind_eq_ok.mp h
    exact desiredEventIfChangedAtHead_follows h

variable {changed : Bool}

/-- What a plan is made of. -/
theorem planDesired_eq_ok
    (h : planDesired rt m d desired adminProofs = .ok (plan, changed)) :
    ∃ head baseline trust next,
      MemoryStore.head rt.crypto.sha256Text d.store.memory = .ok head ∧
      baselineEvent rt m d desired adminProofs head = .ok baseline ∧
      trustEvent rt m d desired adminProofs (Planned.add ⟨[], head⟩ baseline).head = .ok trust ∧
      desiredEvent rt m d desired adminProofs baseline.isSome
        ((Planned.add ⟨[], head⟩ baseline).add trust).head = .ok next ∧
      plan = ((Planned.add ⟨[], head⟩ baseline).add trust).add next := by
  obtain ⟨-, h⟩ := seq_eq_ok.mp h
  obtain ⟨-, h⟩ := seq_eq_ok.mp h
  obtain ⟨head, hhead, h⟩ := bind_eq_ok.mp h
  obtain ⟨baseline, hbaseline, h⟩ := bind_eq_ok.mp h
  obtain ⟨trust, htrust, h⟩ := bind_eq_ok.mp h
  obtain ⟨next, hnext, h⟩ := bind_eq_ok.mp h
  injection h with h
  injection h with hplan
  exact ⟨head, baseline, trust, next, hhead, hbaseline, htrust, hnext, hplan.symm⟩

theorem planDesired_leads
    (h : planDesired rt m d desired adminProofs = .ok (plan, changed)) :
    ∃ head, MemoryStore.head rt.crypto.sha256Text d.store.memory = .ok head ∧
      plan.Leads rt head := by
  obtain ⟨head, baseline, trust, next, hhead, hbaseline, htrust, hnext, rfl⟩ := planDesired_eq_ok h
  refine ⟨head, hhead, ((Planned.leads_nil head).add ?_).add ?_ |>.add ?_⟩
  · rintro p rfl
    exact (baselineEvent_follows hbaseline).1
  · rintro p rfl
    exact (trustEvent_follows htrust).1
  · rintro p rfl
    exact (desiredEvent_follows hnext).1

theorem Planned.forall_add {P : Event → Prop} {planned : Option (Event × Head)}
    (hplan : ∀ event ∈ plan.events, P event) (hplanned : ∀ p, planned = some p → P p.1) :
    ∀ event ∈ (plan.add planned).events, P event := by
  cases planned with
  | none => exact hplan
  | some p =>
    exact List.forall_mem_append.mpr ⟨hplan, List.forall_mem_singleton.mpr (hplanned p rfl)⟩

/-- A plan writes policies and configurations. -/
theorem planDesired_resource
    (h : planDesired rt m d desired adminProofs = .ok (plan, changed)) :
    ∀ event ∈ plan.events,
      event.resource = domainTrustResource ∨ ∃ ix, event.resource = desiredResourceForIX ix := by
  obtain ⟨head, baseline, trust, next, -, hbaseline, htrust, hnext, rfl⟩ := planDesired_eq_ok h
  refine Planned.forall_add (Planned.forall_add (Planned.forall_add (by simp) ?_) ?_) ?_
  · rintro p rfl
    exact .inr ⟨_, (baselineEvent_follows hbaseline).2⟩
  · rintro p rfl
    exact .inl (trustEvent_follows htrust).2
  · rintro p rfl
    exact .inr ⟨_, (desiredEvent_follows hnext).2⟩

end Plan

/-! ## What an apply leaves -/

/-- A failure after the commit says so. -/
theorem exec_afterCommit {α : Type} (operation : String) (act : Act R M α) (d : Daemon R M) :
    (∃ a, exec act d = (.ok a, (exec act d).2) ∧
      exec (afterCommit operation act) d = (.ok a, (exec act d).2)) ∨
    ∃ text, exec (afterCommit operation act) d =
      (.error (.committed operation text), (exec act d).2) := by
  unfold afterCommit
  rw [exec_tryCatch]
  rcases hact : exec act d with ⟨e | a, d'⟩
  · cases e with
    | rejected text => exact .inr ⟨text, rfl⟩
    | committed _ text => exact .inr ⟨text, rfl⟩
  · exact .inl ⟨a, rfl, rfl⟩

/-- What follows the append keeps the log, and the head if it is that of the log. -/
theorem steady_afterApply {commitErr : Option StoreError} {d : Daemon R M}
    (hhead : MemoryStore.head rt.crypto.sha256Text d.store.memory = .ok d.head) :
    Steady d (exec (afterApply rt m commitErr) d).2 := by
  have hstore : exec (storeHead rt) d = (.ok d.head, d) := by
    rw [exec_storeHead, hhead]
    rfl
  have hset : exec (setConfigHead d.head : Act R M Unit) d = (.ok (), d) := rfl
  unfold afterApply
  rw [exec_bind_of_ok hstore, exec_bind_of_ok hset]
  refine (steady_enforceRuntimeTrustState.bind fun changed => ?_) d
  exact ((steady_runEffect _).onlyIf _).bind fun _ => moves_failIf _

/-- **What an apply does.** -/
inductive Applied (rt : Runtime R M) (m : Moment R M) (d : Daemon R M) (desired : Desired R)
    (adminProofs : List AdminProof) : Except Failure Bool × Daemon R M → Prop where
  /-- There is no plan, or nothing to do. -/
  | untouched {result : Except Failure Bool}
      (hnone : ∀ plan changed, planDesired rt m d desired adminProofs = .ok (plan, changed) →
        plan.events = [])
      (hresult : ∀ operation text, result ≠ .error (.committed operation text)) :
      Applied rt m d desired adminProofs (result, d)
  /-- The switch to the new configuration fails. -/
  | unswitched {plan : Planned} {changed : Bool} {text : String} {d' : Daemon R M}
      (hplan : planDesired rt m d desired adminProofs = .ok (plan, changed))
      (hswitch : Switched m .forward d desired plan.head (.error (.rejected text), d')) :
      Applied rt m d desired adminProofs (.error (.rejected text), d')
  /-- The log has everything already. -/
  | switched {plan : Planned} {changed : Bool}
      (hplan : planDesired rt m d desired adminProofs = .ok (plan, changed))
      (hnil : plan.events = []) (hswitch : Switches m .forward d.desired desired) :
      Applied rt m d desired adminProofs
        (.ok false, (d.install desired plan.head).published m)
  /-- The append fails, and the runtime is switched back or not. -/
  | unappended {plan : Planned} {changed : Bool} {text : String} {back : Except Failure Unit}
      {d' : Daemon R M} (hplan : planDesired rt m d desired adminProofs = .ok (plan, changed))
      (hevents : plan.events ≠ []) (hswitch : Switches m .forward d.desired desired)
      (hfailed : Failed (d.store.appendBatch rt.crypto.sha256Text m.write plan.events).1)
      (hback : Switched m .back (((d.install desired plan.head).published m).settled d.store)
        d.desired d.head (back, d')) :
      Applied rt m d desired adminProofs (.error (.rejected text), d')
  /-- The events are in the log. -/
  | appended {plan : Planned} {changed : Bool} {store : FileStore}
      {result : Except Failure Bool} {d' : Daemon R M}
      (hplan : planDesired rt m d desired adminProofs = .ok (plan, changed))
      (hevents : plan.events ≠ []) (hswitch : Switches m .forward d.desired desired)
      (hnotFailed : ¬ Failed (d.store.appendBatch rt.crypto.sha256Text m.write plan.events).1)
      (hstore : store.memory = d.store.memory ++ plan.events)
      (hwell : WellFormed rt.crypto.sha256Text d.store.memory →
        WellFormed rt.crypto.sha256Text store.memory)
      (hsteady : Steady (((d.install desired plan.head).published m).settled store) d')
      (hresult : ∀ text, result ≠ .error (.rejected text)) :
      Applied rt m d desired adminProofs (result, d')

variable {d' : Daemon R M}

variable {err : Failure}

theorem exec_appendOrSwitchBack_error (old : Daemon R M) {d : Daemon R M} {events : List Event}
    (happend : exec (storeAppendBatch rt m events) d = (.error err, d')) :
    ∃ text, exec (appendOrSwitchBack rt m old events) d =
      (.error (.rejected text), (exec (switchDesiredRuntime m .back old.desired old.head) d').2) := by
  unfold appendOrSwitchBack attempt
  rw [exec_tryCatch, happend]
  simp only
  rw [exec_bind, exec_tryCatch, exec_bind]
  rcases hback : exec (switchDesiredRuntime m .back old.desired old.head) d' with ⟨e | u, d''⟩
  · exact ⟨_, rfl⟩
  · exact ⟨_, rfl⟩

theorem exec_appendOrSwitchBack_ok {old d : Daemon R M} {events : List Event}
    {commitErr : Option StoreError}
    (happend : exec (storeAppendBatch rt m events) d = (.ok commitErr, d')) :
    exec (appendOrSwitchBack rt m old events) d = (.ok commitErr, d') := by
  unfold appendOrSwitchBack
  rw [exec_tryCatch, happend]

theorem Switched.exists_text {round : Round} {d : Daemon R M} {desired : Desired R}
    (h : Switched m round d desired head (.error err, d')) : ∃ text, err = .rejected text := by
  cases h with
  | refused _ => exact ⟨_, rfl⟩
  | restored _ _ => exact ⟨_, rfl⟩

theorem applied (desired : Desired R) (adminProofs : List AdminProof) (d : Daemon R M) :
    Applied rt m d desired adminProofs
      (exec (applyDesiredConfigLocked rt m desired adminProofs) d) := by
  unfold applyDesiredConfigLocked
  rw [exec_bind, exec_get]
  simp only
  rw [exec_bind, exec_check]
  rcases hplan : planDesired rt m d desired adminProofs with err | ⟨plan, changed⟩
  · exact .untouched (by simp [hplan]) (by simp)
  simp only [Except.mapError]
  have hnone : plan.events = [] → ∀ plan' changed',
      planDesired rt m d desired adminProofs = .ok (plan', changed') → plan'.events = [] := by
    intro hnil plan' changed' hplan'
    rw [hplan] at hplan'
    cases hplan'
    exact hnil
  have hswitched := switched (m := m) .forward desired plan.head d
  rcases hswitch : exec (switchDesiredRuntime m .forward desired plan.head) d with ⟨err | u, d₁⟩
  · -- the switch fails, if it is made at all
    rw [hswitch] at hswitched
    obtain ⟨text, rfl⟩ := hswitched.exists_text
    by_cases hnil : plan.events = []
    · split_ifs
      · exact .untouched (hnone hnil) (by simp)
      · rw [exec_bind, hswitch]
        exact .unswitched hplan hswitched
    · rw [if_neg hnil, exec_bind, hswitch]
      exact .unswitched hplan hswitched
  rw [hswitch] at hswitched
  cases hswitched with
  | done hall =>
    by_cases hnil : plan.events = []
    · split_ifs
      · exact .untouched (hnone hnil) (by simp)
      · rw [exec_bind, hswitch]
        exact .switched hplan hnil hall
    rw [if_neg hnil, exec_bind_of_ok hswitch]
    rcases @exec_storeAppendBatch R M rt m plan.events
      ((d.install desired plan.head).published m) with
      ⟨hfailed, happend⟩ | ⟨hnotFailed, commitErr, store, hstore, hwell, happend⟩
    · obtain ⟨text, hback⟩ := exec_appendOrSwitchBack_error d happend
      rw [exec_bind, hback]
      exact .unappended hplan hnil hall hfailed (switched .back d.desired d.head _)
    · rw [exec_bind_of_ok (exec_appendOrSwitchBack_ok happend)]
      obtain ⟨head, -, hleads⟩ := planDesired_leads hplan
      have hhead : MemoryStore.head rt.crypto.sha256Text store.memory = .ok plan.head := by
        rw [hstore]
        exact hleads.head_append hnil _
      have hsteady : Steady (((d.install desired plan.head).published m).settled store)
          (exec (afterApply rt m commitErr)
            (((d.install desired plan.head).published m).settled store)).2 :=
        steady_afterApply hhead
      rw [exec_bind]
      rcases exec_afterCommit "config apply" (afterApply rt m commitErr)
        (((d.install desired plan.head).published m).settled store) with
        ⟨a, -, hafter⟩ | ⟨text, hafter⟩
      · rw [hafter]
        exact .appended hplan hnil hall hnotFailed hstore hwell hsteady (by simp)
      · rw [hafter]
        exact .appended hplan hnil hall hnotFailed hstore hwell hsteady (by simp)

/-! ## All or nothing -/

theorem Daemon.restored_fields (round : Round) (d : Daemon R M) (desired : Desired R)
    (head : Head) :
    (d.restored m round desired head).store = d.store ∧
      (d.restored m round desired head).desired = desired ∧
      (d.restored m round desired head).head = head := by
  unfold Daemon.restored
  split_ifs
  · exact ⟨rfl, rfl, rfl⟩
  · exact ⟨rfl, rfl, rfl⟩

/-- A failed switch leaves log, configuration and head as they were. -/
theorem Switched.fields_of_error {round : Round} {d : Daemon R M} {desired : Desired R}
    (h : Switched m round d desired head (.error err, d')) :
    ¬ Switches m round d.desired desired ∧
      d'.store = d.store ∧ d'.desired = d.desired ∧ d'.head = d.head := by
  cases h with
  | refused hfail => exact ⟨hfail, rfl, rfl, rfl⟩
  | @restored text reached hfail hreached =>
    obtain ⟨hstore, hdesired, hhead⟩ :=
      Daemon.restored_fields (m := m) round reached d.desired d.head
    refine ⟨hfail, hstore.trans ?_, hdesired, hhead⟩
    rcases hreached with rfl | rfl | rfl
    · rfl
    · rfl
    · rfl

/-- The call left head and log together, and either nothing or everything done; if it
failed without a commit, nothing. -/
structure AllOrNothing (rt : Runtime R M) (m : Moment R M) (d : Daemon R M)
    (desired : Desired R) (adminProofs : List AdminProof)
    (result : Except Failure Bool × Daemon R M) : Prop where
  head : MemoryStore.head rt.crypto.sha256Text result.2.store.memory = .ok result.2.head
  settled : (result.2.store = d.store ∧ result.2.desired = d.desired) ∨
    ∃ plan changed, planDesired rt m d desired adminProofs = .ok (plan, changed) ∧
      result.2.store.memory = d.store.memory ++ plan.events ∧ result.2.desired = desired
  rejected : ∀ text, result.1 = .error (.rejected text) →
    result.2.store = d.store ∧ result.2.desired = d.desired

/-- The append fails, and then the switch back fails: the runtime stays at a head that
the log does not have. -/
def Stranded (rt : Runtime R M) (m : Moment R M) (d : Daemon R M) (desired : Desired R)
    (adminProofs : List AdminProof) : Prop :=
  ∃ plan changed, planDesired rt m d desired adminProofs = .ok (plan, changed) ∧
    plan.events ≠ [] ∧ Switches m .forward d.desired desired ∧
    Failed (d.store.appendBatch rt.crypto.sha256Text m.write plan.events).1 ∧
    ¬ Switches m .back desired d.desired

/-- **When an apply is all or nothing.** -/
theorem apply_all_or_nothing_iff (rt : Runtime R M) (m : Moment R M) (d : Daemon R M)
    (desired : Desired R) (adminProofs : List AdminProof)
    (hhead : MemoryStore.head rt.crypto.sha256Text d.store.memory = .ok d.head) :
    AllOrNothing rt m d desired adminProofs
        (exec (applyDesiredConfigLocked rt m desired adminProofs) d) ↔
      ¬ Stranded rt m d desired adminProofs := by
  have happlied := @applied R M rt m desired adminProofs d
  generalize exec (applyDesiredConfigLocked rt m desired adminProofs) d = result at happlied ⊢
  constructor
  · rintro hall ⟨plan, changed, hplan, hevents, hforward, hfailed, hback⟩
    cases happlied with
    | untouched hnone _ => exact hevents (hnone plan changed hplan)
    | unswitched _ hswitch => exact hswitch.fields_of_error.1 hforward
    | switched hplan' hnil _ =>
      rw [hplan] at hplan'
      cases hplan'
      exact hevents hnil
    | @unappended _ _ _ back d' hplan' _ _ _ hswitchBack =>
      rw [hplan] at hplan'
      cases hplan'
      -- the head that is left is the planned one, which lies ahead of that of the log
      have hleft : d'.store = d.store ∧ d'.head = plan.head := by
        cases back with
        | ok u =>
          cases hswitchBack with
          | done hswitches => exact absurd hswitches hback
        | error err =>
          obtain ⟨-, hstore, -, hhead'⟩ := hswitchBack.fields_of_error
          exact ⟨hstore, hhead'⟩
      have hstored : MemoryStore.head rt.crypto.sha256Text d'.store.memory = .ok d'.head :=
        hall.head
      rw [hleft.1, hleft.2, hhead] at hstored
      obtain ⟨head, hhead', hleads⟩ := planDesired_leads hplan
      rw [hhead] at hhead'
      cases hhead'
      have hseq := hleads.seq
      rw [← Except.ok.inj hstored] at hseq
      have hlength : 0 < plan.events.length := List.length_pos_of_ne_nil hevents
      omega
    | appended hplan' _ _ hnotFailed _ _ _ _ =>
      rw [hplan] at hplan'
      cases hplan'
      exact hnotFailed hfailed
  · intro hstranded
    cases happlied with
    | untouched _ _ => exact ⟨hhead, .inl ⟨rfl, rfl⟩, fun _ _ => ⟨rfl, rfl⟩⟩
    | unswitched _ hswitch =>
      obtain ⟨-, hstore, hdesired, hhead'⟩ := hswitch.fields_of_error
      refine ⟨?_, .inl ⟨hstore, hdesired⟩, fun _ _ => ⟨hstore, hdesired⟩⟩
      show MemoryStore.head rt.crypto.sha256Text _ = _
      rw [hstore, hhead', hhead]
    | @switched plan changed hplan hnil _ =>
      obtain ⟨head, hhead', hleads⟩ := planDesired_leads hplan
      refine ⟨?_, .inr ⟨plan, changed, hplan, ?_, rfl⟩, ?_⟩
      · show MemoryStore.head rt.crypto.sha256Text d.store.memory = .ok plan.head
        rw [hhead', hleads.unchanged hnil]
      · show d.store.memory = d.store.memory ++ plan.events
        rw [hnil, List.append_nil]
      · intro text herror
        cases herror
    | @unappended plan changed text back d' hplan hevents hforward hfailed hswitchBack =>
      have hback : Switches m .back desired d.desired := by
        by_contra hnot
        exact hstranded ⟨plan, changed, hplan, hevents, hforward, hfailed, hnot⟩
      cases back with
      | error err => exact absurd hback hswitchBack.fields_of_error.1
      | ok u =>
        cases hswitchBack with
        | done _ => exact ⟨hhead, .inl ⟨rfl, rfl⟩, fun _ _ => ⟨rfl, rfl⟩⟩
    | @appended plan changed store result d' hplan hevents _ _ hstore _ hsteady hresult =>
      obtain ⟨head, -, hleads⟩ := planDesired_leads hplan
      have hmemory : d'.store.memory = d.store.memory ++ plan.events := by
        rw [hsteady.store]
        exact hstore
      have hnew : d'.head = plan.head := hsteady.head
      refine ⟨?_, .inr ⟨plan, changed, hplan, hmemory, hsteady.desired⟩, ?_⟩
      · show MemoryStore.head rt.crypto.sha256Text d'.store.memory = .ok d'.head
        rw [hmemory, hnew, hleads.head_append hevents]
      · intro text herror
        exact absurd herror (hresult text)

/-- The first apply of a fresh daemon. -/
theorem apply_all_or_nothing_fresh :
    MemoryStore.head labRuntime.crypto.sha256Text [labGenesis] = .ok labGenesisHead ∧
      (AllOrNothing labRuntime labMoment (labDaemon emptyTrust [labGenesis] labGenesisHead)
          (labConfig emptyTrust true) []
          (exec (applyDesiredConfigLocked labRuntime labMoment (labConfig emptyTrust true) [])
            (labDaemon emptyTrust [labGenesis] labGenesisHead)) ↔
        ¬ Stranded labRuntime labMoment (labDaemon emptyTrust [labGenesis] labGenesisHead)
          (labConfig emptyTrust true) []) :=
  ⟨head_labGenesis, apply_all_or_nothing_iff _ _ _ _ _ head_labGenesis⟩

/-- The log cannot be written, and the kernel modules cannot be tuned on the way back. -/
def strandingMoment : Moment Bool Unit :=
  { labMoment with
    write := { noFaults with rename := true }
    effect := fun effect =>
      if effect = .switch .back false .reconcileKernelModuleRuntimeTuning then some "tuning"
      else none }

/-- The configuration in force after a call that failed without a commit. -/
def inForceAfterRejection {α : Type} (result : Except Failure α × Daemon R M) :
    Option (Desired R) :=
  match result.1 with
  | .error (.rejected _) => some result.2.desired
  | _ => none

/-- **A failed apply that stays in force**, at a head that the log does not have. -/
theorem failed_apply_strands_head :
    MemoryStore.head labRuntime.crypto.sha256Text [labGenesis] = .ok labGenesisHead ∧
      ¬ AllOrNothing labRuntime strandingMoment (labDaemon emptyTrust [labGenesis] labGenesisHead)
        (labConfig emptyTrust true) []
        (exec (applyDesiredConfigLocked labRuntime strandingMoment (labConfig emptyTrust true) [])
          (labDaemon emptyTrust [labGenesis] labGenesisHead)) := by
  have heval : inForceAfterRejection
      (exec (applyDesiredConfigLocked labRuntime strandingMoment (labConfig emptyTrust true) [])
        (labDaemon emptyTrust [labGenesis] labGenesisHead)) =
      some (labConfig emptyTrust true) := by
    decide +kernel
  refine ⟨head_labGenesis, fun hall => ?_⟩
  generalize exec (applyDesiredConfigLocked labRuntime strandingMoment (labConfig emptyTrust true)
    []) (labDaemon emptyTrust [labGenesis] labGenesisHead) = result at heval hall
  obtain ⟨result, d'⟩ := result
  rcases result with (text | ⟨operation, text⟩) | changed
  · obtain ⟨-, hdesired⟩ := hall.rejected text rfl
    have hforce : d'.desired = labConfig emptyTrust true := Option.some.inj heval
    rw [hforce] at hdesired
    cases hdesired
  · cases heval
  · cases heval

end ConfigDaemon
