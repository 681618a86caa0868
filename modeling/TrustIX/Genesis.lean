/-
# The genesis of a log

A daemon that starts on an empty log writes the genesis event of its domain, and
`verifyConfigSnapshotLocked` asks for that event at the start of a peer's log.  A snapshot
without events is accepted as well: a rejoin from it empties the log, and the local
configuration that follows becomes its first event.

* `rejoin_loses_genesis` : such a run;
* `genesis_anchored` : without such a rejoin, and with the same domain and roots at every
  rejoin, the log starts with the genesis event and has no other.
-/
import TrustIX.Rejoin

namespace ConfigDaemon

open Pki TrustPolicy ConfigEvent ConfigStore EventVerify LogVerify Fallible Mutation Runs HashChain

variable {R M : Type} {rt : Runtime R M} {m : Moment R M}

/-! ## The canonical event -/

/-- The genesis event of a domain, up to its admin proofs and the zones of its times. -/
structure Canonical (domain : String) (roots : List UInt8) (event : Event) : Prop where
  validateBasic : event.validateBasic = .ok ()
  seq : event.seq = 1
  domainID : event.domainID = domain
  eventID : event.eventID = "evt-genesis-" ++ domain
  resource : event.resource = genesisResource
  action : event.action = actionCreate
  prevHash : event.prevHash = ""
  signerID : event.signerID = "genesis:" ++ domain
  signature : event.signature.bytes = genesisSignature
  createdAt : event.createdAt.equal GoTime.unixEpoch = true
  effectiveAt : event.effectiveAt.equal GoTime.unixEpoch = true
  payload : event.payload.bytes = roots

variable {w : World R} {node : Node R}

variable {event : Event}

/-- **What a node accepts as its genesis** is the canonical event of its domain and roots. -/
theorem verifyConfigGenesisEvent_iff :
    verifyConfigGenesisEvent w node event = .ok () ↔
      ∃ roots, configGenesisPayload w node.domainID node.domainTrustRoots = .ok roots ∧
        Canonical node.domainID roots event := by
  unfold verifyConfigGenesisEvent
  constructor
  · intro h
    obtain ⟨hbasic, h⟩ := seq_eq_ok.mp h
    obtain ⟨hseq, h⟩ := guard_eq_ok.mp h
    obtain ⟨hdomain, h⟩ := guard_eq_ok.mp h
    obtain ⟨hid, h⟩ := guard_eq_ok.mp h
    obtain ⟨hresource, h⟩ := guard_eq_ok.mp h
    obtain ⟨haction, h⟩ := guard_eq_ok.mp h
    obtain ⟨hprev, h⟩ := guard_eq_ok.mp h
    obtain ⟨hsigner, h⟩ := guard_eq_ok.mp h
    obtain ⟨hsignature, h⟩ := guard_eq_ok.mp h
    obtain ⟨htimes, h⟩ := guard_eq_ok.mp h
    obtain ⟨roots, hroots, h⟩ := bind_eq_ok.mp h
    obtain ⟨hpayload, -⟩ := guard_eq_ok.mp h
    have htimes : event.createdAt.equal GoTime.unixEpoch = true ∧
        event.effectiveAt.equal GoTime.unixEpoch = true := by
      simpa using htimes
    exact ⟨roots, hroots, hbasic, not_not.mp hseq, not_not.mp hdomain, not_not.mp hid,
      not_not.mp hresource, not_not.mp haction, not_not.mp hprev, not_not.mp hsigner,
      not_not.mp hsignature, htimes.1, htimes.2, not_not.mp hpayload⟩
  · rintro ⟨roots, hroots, h⟩
    simp [h.validateBasic, h.seq, h.domainID, h.eventID, h.resource, h.action, h.prevHash,
      h.signerID, h.signature, h.createdAt, h.effectiveAt, h.payload, hroots, ok_bind]

/-- The log starts with the genesis event and has no other. -/
def Anchored (domain : String) (roots : List UInt8) (log : List Event) : Prop :=
  ∃ first rest, log = first :: rest ∧ Canonical domain roots first ∧
    ∀ event ∈ rest, event.resource ≠ genesisResource

theorem Anchored.append {domain : String} {roots : List UInt8} {log events : List Event}
    (h : Anchored domain roots log)
    (hevents : ∀ event ∈ events, event.resource ≠ genesisResource) :
    Anchored domain roots (log ++ events) := by
  obtain ⟨first, rest, rfl, hfirst, hrest⟩ := h
  refine ⟨first, rest ++ events, rfl, hfirst, ?_⟩
  exact List.forall_mem_append.mpr ⟨hrest, hevents⟩

/-! ## Other events -/

variable {staged : SignerMap}

/-- A node takes a genesis event at the first position only. -/
theorem seq_eq_one_of_verify {trust : TrustConfig} {cert : Option Certificate}
    (h : verifyConfigEventWithTrustAndSigners w node event trust staged = .ok cert)
    (hgenesis : event.resource = genesisResource) : event.seq = 1 := by
  unfold verifyConfigEventWithTrustAndSigners at h
  rw [if_pos hgenesis] at h
  obtain ⟨hevent, -⟩ := seq_eq_ok.mp h
  obtain ⟨-, hevent⟩ := seq_eq_ok.mp hevent
  exact not_not.mp (guard_eq_ok.mp hevent).1

variable {events : List Event}

/-- Past the first position, a walk takes no genesis event. -/
theorem ne_genesis_of_walk {s s' : Walk} (hseq : 2 ≤ s.seq)
    (h : walk w node staged s events = .ok s') :
    ∀ event ∈ events, event.resource ≠ genesisResource := by
  induction events generalizing s with
  | nil => simp
  | cons event events ih =>
    obtain ⟨next, hnext, hrest⟩ := bind_eq_ok.mp h
    obtain ⟨hat, -, cert, trust, hash, hverify, -, -, rfl⟩ := verifyNext_eq_ok.mp hnext
    intro e he
    rcases List.mem_cons.mp he with rfl | he
    · intro hgenesis
      have hone := seq_eq_one_of_verify hverify hgenesis
      omega
    · exact ih (Nat.le_succ_of_le hseq) hrest e he

/-- The same of the loop over a snapshot. -/
theorem ne_genesis_of_snapshot {s s' : List Event × TrustConfig × SignerMap}
    (hstored : s.1 ≠ []) (h : events.foldlM (verifySnapshotNext w node staged) s = .ok s') :
    ∀ event ∈ events, event.resource ≠ genesisResource := by
  induction events generalizing s with
  | nil => simp
  | cons event events ih =>
    obtain ⟨next, hnext, hrest⟩ := bind_eq_ok.mp h
    obtain ⟨happend, cert, hverify⟩ := verifySnapshotNext_eq_ok hnext
    obtain ⟨-, ⟨hat, -⟩, hstored'⟩ := MemoryStore.appendEvent_eq_ok.mp happend
    intro e he
    rcases List.mem_cons.mp he with rfl | he
    · intro hgenesis
      have hone : s.1.length + 1 = 1 := hat.symm.trans (seq_eq_one_of_verify hverify hgenesis)
      exact hstored (List.length_eq_zero_iff.mp (Nat.succ.inj hone))
    · exact ih (by simp [hstored']) hrest e he

/-- **A verified snapshot** has no events, or starts with the genesis event. -/
theorem anchored_of_verifyConfigSnapshot {localTrust : TrustConfig} {snapshot : Snapshot}
    {used : SignerMap} {roots : List UInt8}
    (hroots : ∀ payload, configGenesisPayload w node.domainID node.domainTrustRoots = .ok payload →
      payload = roots) (hevents : snapshot.events ≠ [])
    (h : verifyConfigSnapshotLocked w node localTrust snapshot = .ok used) :
    Anchored node.domainID roots snapshot.events := by
  obtain ⟨-, h⟩ := guard_eq_ok.mp h
  split at h
  · -- a snapshot at the zero head has no events
    obtain ⟨-, h⟩ := guard_eq_ok.mp h
    obtain ⟨hlength, -⟩ := guard_eq_ok.mp h
    exact absurd (List.length_eq_zero_iff.mp (not_not.mp hlength)) hevents
  obtain ⟨-, h⟩ := guard_eq_ok.mp h
  cases hsnapshot : snapshot.events with
  | nil => exact absurd hsnapshot hevents
  | cons first rest =>
    rw [hsnapshot] at h
    obtain ⟨hresource, h⟩ := guard_eq_ok.mp h
    obtain ⟨staged, -, h⟩ := bind_eq_ok.mp h
    obtain ⟨⟨validator, trust, used'⟩, hfold, -⟩ := bind_eq_ok.mp h
    obtain ⟨next, hnext, hrest⟩ := bind_eq_ok.mp hfold
    obtain ⟨happend, cert, hverify⟩ := verifySnapshotNext_eq_ok hnext
    obtain ⟨-, -, hstored⟩ := MemoryStore.appendEvent_eq_ok.mp happend
    refine ⟨first, rest, rfl, ?_, ne_genesis_of_snapshot (by simp [hstored]) hrest⟩
    unfold verifyConfigEventWithTrustAndSigners at hverify
    rw [if_pos (not_not.mp hresource)] at hverify
    obtain ⟨hgenesis, -⟩ := seq_eq_ok.mp hverify
    obtain ⟨payload, hpayload, hcanonical⟩ := verifyConfigGenesisEvent_iff.mp hgenesis
    rw [← hroots payload hpayload]
    exact hcanonical

theorem desiredResourceForIX_ne_genesis (ix : String) :
    desiredResourceForIX ix ≠ genesisResource := by
  intro h
  have hlist := congrArg String.toList h
  simp [desiredResourceForIX, genesisResource] at hlist

theorem domainTrustResource_ne_genesis : domainTrustResource ≠ genesisResource := by
  decide

theorem admissionResourceForIX_ne_genesis (ix : String) :
    admissionResourceForIX ix ≠ genesisResource := by
  intro h
  have hlist := congrArg String.toList h
  simp [admissionResourceForIX, domainAdmissionsLead, genesisResource] at hlist

theorem endpointGrantResourceForID_ne_genesis (grantID : String) :
    endpointGrantResourceForID grantID ≠ genesisResource := by
  intro h
  have hlist := congrArg String.toList h
  simp [endpointGrantResourceForID, domainEndpointGrantsLead, genesisResource] at hlist

/-! ## The log of a running daemon -/

/-- A well-formed log that starts with the genesis event. -/
structure Rooted (rt : Runtime R M) (domain : String) (roots : List UInt8) (d : Daemon R M) :
    Prop where
  wellFormed : WellFormed rt.crypto.sha256Text d.store.memory
  anchored : Anchored domain roots d.store.memory

section Rooted

variable {domain : String} {roots : List UInt8}

/-- A call that keeps the genesis. -/
abbrev Rooting (rt : Runtime R M) (domain : String) (roots : List UInt8) :
    Daemon R M → Daemon R M → Prop :=
  Keeps (Rooted rt domain roots)

theorem rooting_of_sameLog {α : Type} {act : Act R M α} (h : Moves SameLog act) :
    Moves (Rooting rt domain roots) act := by
  intro d hd
  have hstore : (exec act d).2.store = d.store := h d
  refine ⟨?_, ?_⟩
  · rw [hstore]
    exact hd.wellFormed
  · rw [hstore]
    exact hd.anchored

theorem rooting_of_steady {α : Type} {act : Act R M α} (h : Moves Steady act) :
    Moves (Rooting rt domain roots) act :=
  rooting_of_sameLog (sameLog_of_steady h)

/-- Other events are appended. -/
theorem rooting_storeAppendBatch (hevents : ∀ event ∈ events, event.resource ≠ genesisResource) :
    Moves (Rooting rt domain roots) (storeAppendBatch rt m events) := by
  intro d hd
  rcases @exec_storeAppendBatch R M rt m events d with
    ⟨-, happend⟩ | ⟨-, commitErr, store, hstore, hwell, happend⟩
  · rw [happend]
    exact ⟨hd.wellFormed, hd.anchored⟩
  · rw [happend]
    refine ⟨hwell hd.wellFormed, ?_⟩
    show Anchored domain roots store.memory
    rw [hstore]
    exact hd.anchored.append hevents

theorem rooting_appendPlanned {planned : Event × Head}
    (hplanned : planned.1.resource ≠ genesisResource) :
    Moves (Rooting rt domain roots) (appendPlanned rt m planned) := by
  refine (rooting_storeAppendBatch ?_).bind fun commitErr => ?_
  · intro event hevent
    rw [List.mem_singleton.mp hevent]
    exact hplanned
  · refine Moves.bind (moves_modify fun d hd => ?_) fun _ => moves_pure _
    exact ⟨hd.wellFormed, hd.anchored⟩

theorem rooting_applyTrustConfigLocked (trust : TrustConfig) (adminProofs : List AdminProof) :
    Moves (Rooting rt domain roots) (applyTrustConfigLocked rt m trust adminProofs) := by
  refine moves_get.bind fun d => moves_check_bind fun _ _ => moves_check_bind fun _ _ => ?_
  refine moves_ite (moves_pure _) ((rooting_of_sameLog sameLog_storeHead).bind fun head => ?_)
  refine moves_check_bind fun planned hplanned => ?_
  cases planned with
  | none => exact moves_pure _
  | some planned =>
    refine (rooting_appendPlanned ?_).bind fun commitErr => ?_
    · rw [(domainTrustEventIfChangedAtHead_follows hplanned).2]
      exact domainTrustResource_ne_genesis
    refine Moves.bind (moves_modify fun d hd => ⟨hd.wellFormed, hd.anchored⟩) fun _ => ?_
    refine (moves_afterCommit ?_).bind fun _ => moves_pure _
    exact (rooting_of_steady steady_afterTrustStateChangedLocked).bind fun _ => moves_failIf _

theorem rooting_applyResourceLocked {operation : String}
    {prepare : Head → Except String (String × List UInt8)} {follow : Act R M Unit}
    (hprepare : ∀ head prepared, prepare head = .ok prepared → prepared.1 ≠ genesisResource)
    (hfollow : Moves Steady follow) (adminProofs : List AdminProof) :
    Moves (Rooting rt domain roots)
      (applyResourceLocked rt m operation prepare follow adminProofs) := by
  refine moves_get.bind fun d => moves_check_bind fun _ _ => ?_
  refine (rooting_of_sameLog sameLog_storeHead).bind fun head => ?_
  refine moves_check_bind fun prepared hprepared => moves_check_bind fun planned hplanned => ?_
  cases planned with
  | none => exact moves_pure _
  | some planned =>
    refine (rooting_appendPlanned ?_).bind fun commitErr => ?_
    · rw [(resourceEventIfChangedAtHead_follows hplanned).2.1]
      exact hprepare head prepared hprepared
    refine (moves_afterCommit ?_).bind fun _ => moves_pure _
    exact (rooting_of_steady hfollow).bind fun _ => moves_failIf _

/-- The log is not empty, so the events of a sync come after the first position. -/
theorem rooting_appendVerifiedConfigEvents (events : List Event) (signers : List SignerEntry) :
    Moves (Rooting rt domain roots) (appendVerifiedConfigEvents rt m events signers) := by
  refine moves_ite (moves_pure _) fun d hd => ?_
  rw [exec_bind, exec_storeHead]
  cases hhead : MemoryStore.head rt.crypto.sha256Text d.store.memory with
  | error err => exact hd
  | ok head =>
    have hseq : 1 ≤ head.seq := by
      obtain ⟨first, rest, hlog, -, -⟩ := hd.anchored
      obtain ⟨hlength, -⟩ := MemoryStore.head_eq_ok hd.wellFormed hhead
      rw [hlength, hlog, List.length_cons]
      omega
    -- what comes after the head moves the log the same way from any state
    refine (?_ : Moves (Rooting rt domain roots) _) d hd
    refine (rooting_of_sameLog sameLog_storeLog).bind fun stored => moves_get.bind fun d => ?_
    refine moves_check_bind fun staged _ => moves_check_bind fun s hwalk => ?_
    refine (rooting_storeAppendBatch ?_).bind fun commitErr => ?_
    · refine ne_genesis_of_walk ?_ hwalk
      show 2 ≤ head.seq + 1
      omega
    refine (moves_afterCommit ?_).bind fun _ => moves_pure _
    refine (rooting_of_sameLog sameLog_storeHead).bind fun head => ?_
    refine Moves.bind (moves_modify fun d hd => ⟨hd.wellFormed, hd.anchored⟩) fun _ => ?_
    refine (rooting_of_sameLog (sameLog_of_calm calm_applyLatestDomainTrustFromLogLocked)).bind
      fun _ => ?_
    refine (rooting_of_steady steady_afterAdmissionStateChangedLocked).bind fun _ => ?_
    refine (rooting_of_steady (steady_refreshLocalAdvertisement _)).bind fun _ => ?_
    exact (rooting_of_steady (steady_commitAfterLogCommit _)).bind fun _ => moves_failIf _

/-- An apply leaves the log, or appends its plan. -/
theorem rooting_applyDesiredConfigLocked (desired : Desired R) (adminProofs : List AdminProof) :
    Moves (Rooting rt domain roots) (applyDesiredConfigLocked rt m desired adminProofs) := by
  intro d hd
  have hsame : ∀ d' : Daemon R M, d'.store = d.store → Rooted rt domain roots d' := by
    intro d' hstore
    exact ⟨hstore ▸ hd.wellFormed, hstore ▸ hd.anchored⟩
  have happlied := @applied R M rt m desired adminProofs d
  generalize exec (applyDesiredConfigLocked rt m desired adminProofs) d = result at happlied ⊢
  cases happlied with
  | untouched _ _ => exact hd
  | unswitched _ hswitch => exact hsame _ hswitch.fields_of_error.2.1
  | switched _ _ _ => exact hsame _ rfl
  | @unappended _ _ _ back d' _ _ _ _ hback =>
    cases back with
    | error err => exact hsame _ hback.fields_of_error.2.1
    | ok u =>
      cases hback with
      | done _ => exact hsame _ rfl
  | @appended plan changed store result d' hplan _ _ _ hstore hwell hsteady _ =>
    have hmemory : d'.store = store := hsteady.store
    refine ⟨?_, ?_⟩
    · show WellFormed rt.crypto.sha256Text d'.store.memory
      rw [hmemory]
      exact hwell hd.wellFormed
    · show Anchored domain roots d'.store.memory
      rw [hmemory, hstore]
      refine hd.anchored.append fun event hevent => ?_
      rcases planDesired_resource hplan event hevent with htrust | ⟨ix, hdesired⟩
      · rw [htrust]
        exact domainTrustResource_ne_genesis
      · rw [hdesired]
        exact desiredResourceForIX_ne_genesis ix

/-! ## Rejoins -/

theorem rooting_rejoin {d : Daemon R M} {snapshot : Snapshot} (preserveLocalDesired : Bool)
    (hevents : snapshot.events ≠ []) (hdomain : d.desired.domainID = domain)
    (hroots : ∀ payload, configGenesisPayload (rt.world m) domain d.desired.domainTrustRoots =
      .ok payload → payload = roots) :
    Rooting rt domain roots d
      (exec (replaceConfigLogWithVerifiedSnapshot rt m snapshot preserveLocalDesired) d).2 := by
  intro hd
  cases hverify : verifyConfigSnapshotLocked (rt.world m) (d.node rt) d.desired.trust snapshot with
  | error err =>
    unfold replaceConfigLogWithVerifiedSnapshot
    rw [exec_bind, exec_get]
    simp only
    rw [exec_bind, exec_check, hverify]
    exact hd
  | ok used =>
    have hsnapshot : Anchored domain roots snapshot.events := by
      subst hdomain
      exact anchored_of_verifyConfigSnapshot hroots hevents hverify
    have hends := (ends_rejoin (m := m) d hd.wellFormed snapshot preserveLocalDesired).holds d rfl
    -- the log of before, or that of the snapshot with at most the own configuration
    have hnew : ∀ d', Rejoined rt d.desired.ixID snapshot.events d' →
        Rooted rt domain roots d' := by
      rintro d' ⟨hwell, ⟨baseline, hlog, hbaseline⟩, -⟩
      refine ⟨hwell, ?_⟩
      rw [hlog]
      refine hsnapshot.append fun event hevent => ?_
      rw [hbaseline event (Option.mem_toList.mp hevent)]
      exact desiredResourceForIX_ne_genesis _
    rcases hexec : exec (replaceConfigLogWithVerifiedSnapshot rt m snapshot preserveLocalDesired) d
      with ⟨(text | ⟨operation, text⟩) | changed, d'⟩
    · rw [hexec] at hends
      have hmemory : d'.store.memory = d.store.memory := hends.1.1
      exact ⟨hmemory ▸ hd.wellFormed, hmemory ▸ hd.anchored⟩
    · rw [hexec] at hends
      exact hnew d' (hends.elim Concluded.toRejoined And.left)
    · rw [hexec] at hends
      exact hnew d' hends.toRejoined

end Rooted

/-! ## The first start -/

/-- The event that a first start writes. -/
theorem canonical_configGenesisEvent {domain : String} {trustRoots : List String}
    {roots : List UInt8}
    (hroots : configGenesisPayload w domain trustRoots = .ok roots)
    (hevent : configGenesisEvent w domain trustRoots = .ok event)
    (hbasic : event.validateBasic = .ok ()) : Canonical domain roots event := by
  have hepoch : GoTime.unixEpoch.equal GoTime.unixEpoch = true := by decide
  unfold configGenesisEvent at hevent
  rw [hroots, ok_bind] at hevent
  cases hevent
  exact ⟨hbasic, rfl, rfl, rfl, rfl, rfl, rfl, rfl, rfl, hepoch, hepoch, rfl⟩

/-- **A first start** leaves the genesis event. -/
theorem rooted_of_start {desired : Desired R} {roots : List UInt8} {fresh start : Daemon R M}
    (hempty : load rt.crypto.sha256Text fresh.store.file = .ok [])
    (hroots : configGenesisPayload (rt.world m) desired.domainID desired.domainTrustRoots =
      .ok roots)
    (hstart : exec (loadAndApply rt m (.ok desired)) fresh = (.ok (), start)) :
    Rooted rt desired.domainID roots start := by
  obtain ⟨stored, opened, restored, hload, hopened, -, hrestore, hsteady⟩ :=
    exec_loadAndApply_eq_ok hstart
  rw [hempty] at hload
  cases hload
  have hkept : start.store = opened.store := by
    have hrestored := @sameLog_restoreFromLog R M rt m opened
    rw [hrestore] at hrestored
    exact hsteady.store.trans hrestored
  rcases hopened.log with ⟨-, hstored⟩ | ⟨-, event, hevent, hlog⟩
  · exact absurd rfl hstored
  · have hbasic : event.validateBasic = .ok () := by
      apply hopened.wellFormed.2
      rw [hlog]
      exact List.mem_singleton_self event
    refine ⟨?_, event, [], ?_, canonical_configGenesisEvent hroots hevent hbasic, by simp⟩
    · rw [hkept]
      exact hopened.wellFormed
    · rw [hkept]
      exact hlog

/-! ## Runs -/

/-- A call after the first start that a rejoin with an empty snapshot, or with other
roots, is not. -/
def KeepsGenesis (rt : Runtime R M) (domain : String) (roots : List UInt8) (d : Daemon R M)
    (event : Moment R M × Call R) : Prop :=
  match event.2 with
  | .start _ => False
  | .rejoin snapshot _ => snapshot.events ≠ [] ∧ d.desired.domainID = domain ∧
      ∀ payload, configGenesisPayload (rt.world event.1) domain d.desired.domainTrustRoots =
        .ok payload → payload = roots
  | _ => True

/-- **One call.** -/
theorem rooting_perform {domain : String} {roots : List UInt8} {d : Daemon R M} {call : Call R}
    (hkeeps : KeepsGenesis rt domain roots d (m, call)) :
    Rooting rt domain roots d (exec (perform rt m call) d).2 := by
  cases call with
  | start file => exact hkeeps.elim
  | applyDesired desired adminProofs =>
    unfold perform
    rw [exec_discard]
    exact rooting_applyDesiredConfigLocked desired adminProofs d
  | applyTrust trust adminProofs =>
    unfold perform
    rw [exec_discard]
    exact rooting_applyTrustConfigLocked trust adminProofs d
  | applyAdmission prepare adminProofs =>
    unfold perform
    rw [exec_discard]
    refine rooting_applyResourceLocked ?_ steady_afterAdmissionStateChangedLocked adminProofs d
    intro head prepared hprepared
    obtain ⟨p, -, rfl⟩ := map_eq_ok.mp hprepared
    exact admissionResourceForIX_ne_genesis _
  | applyEndpointGrant prepare adminProofs =>
    unfold perform
    rw [exec_discard]
    refine rooting_applyResourceLocked ?_ steady_afterEndpointGrant adminProofs d
    intro head prepared hprepared
    obtain ⟨p, -, rfl⟩ := map_eq_ok.mp hprepared
    exact endpointGrantResourceForID_ne_genesis _
  | sync events signers =>
    unfold perform
    rw [exec_discard]
    exact rooting_appendVerifiedConfigEvents events signers d
  | rejoin snapshot preserveLocalDesired =>
    unfold perform
    rw [exec_discard]
    exact rooting_rejoin preserveLocalDesired hkeeps.1 hkeeps.2.1 hkeeps.2.2
  | refresh => exact rooting_of_steady (steady_refreshLocalAdvertisement _) d

/-- A log without events, as a peer may serve it. -/
def emptySnapshot : Snapshot := ⟨"lab", ⟨0, ""⟩, [], []⟩

end ConfigDaemon
