/-
# Verification of config logs

The three loops that walk a config log with an evolving trust policy
(`internal/daemon/config_sync.go`): over the events of a sync, over the log found at
start, and over the snapshot of a peer.

* `verifyNext_eq_ok` : what one step of a walk checks and hands on;
* `storedEvents_eq` : the whole of a well-formed log is walked at a start;
* `head_of_verifyConfigSnapshot` : an accepted snapshot is a chain, and names its head.
-/
import TrustIX.ConfigStore
import TrustIX.EventVerify

namespace LogVerify

open Pki TrustPolicy ConfigEvent ConfigStore EventVerify Fallible HashChain

variable {R : Type} (w : World R) (node : Node R)

/-! ## Signer certificates that come with events -/

/-- `configSignerCertificate`. -/
structure SignerEntry where
  signerID : String
  certificate : List UInt8
  deriving DecidableEq

def configSignerIDForCertificate (cert : Certificate) : Except String String :=
  if cert.role ≠ roleIX then
    .error ("signer certificate role is " ++ cert.role.quote ++ ", want " ++ roleIX.quote)
  else if cert.domain ≠ node.domainID then
    .error ("signer certificate domain is " ++ cert.domain.quote ++ ", want " ++
      node.domainID.quote)
  else if GoText.trimSpace cert.ix = "" then .error "signer certificate ix is required"
  else .ok (signerIDForIX cert.ix)

/-- One round of `parseConfigSignerCertificates`. -/
def stageSigner (staged : SignerMap) (entry : SignerEntry) : Except String SignerMap := do
  if entry.certificate.length = 0 then
    .error ("signer certificate " ++ entry.signerID.quote ++ " is empty")
  else do
    let cert ← (w.crypto.parseCertificate entry.certificate).mapError
      ("parse signer certificate " ++ entry.signerID.quote ++ ": " ++ ·)
    let signerID ← configSignerIDForCertificate node cert
    if entry.signerID ≠ "" ∧ entry.signerID ≠ signerID then
      .error ("signer certificate id is " ++ signerID.quote ++ ", envelope listed " ++
        entry.signerID.quote)
    else if (staged.lookup signerID).any (fun existing => existing.raw != cert.raw) then
      .error ("multiple certificates supplied for signer " ++ signerID.quote)
    else .ok (staged.insert signerID cert)

def parseConfigSignerCertificates (entries : List SignerEntry) : Except String SignerMap :=
  entries.foldlM (stageSigner w node) ∅

/-! ## The walk -/

/-- The state of a walk: the policy for the next event, its position and back link, and
the certificates used so far. -/
structure Walk where
  trust : TrustConfig
  seq : ℕ
  prevHash : String
  used : SignerMap

def eventsContainDomainTrust (events : List Event) : Bool :=
  events.any fun event => event.resource == domainTrustResource

/-- The policy after an event. -/
def nextTrust (event : Event) (trust : TrustConfig) : Except String TrustConfig :=
  if event.resource = domainTrustResource then
    parseDomainTrustPayload w.crypto event.payload.bytes node.domainID
  else .ok trust

/-- `usedSigners[event.SignerID] = cert`, for an event that has a signer. -/
def recordUsed (used : SignerMap) (event : Event) : Option Certificate → SignerMap
  | some cert => used.insert event.signerID cert
  | none => used

/-- One round of the loops of `appendVerifiedConfigEvents` and `verifyExistingConfigLog`. -/
def verifyNext (staged : SignerMap) (s : Walk) (event : Event) : Except String Walk :=
  if event.seq ≠ s.seq then
    .error ("expected seq " ++ toString s.seq ++ ", got " ++ toString event.seq)
  else if event.prevHash ≠ s.prevHash then
    .error ("prev_hash mismatch at seq " ++ toString event.seq)
  else do
    let cert ← verifyConfigEventWithTrustAndSigners w node event s.trust staged
    let trust ← nextTrust w node event s.trust
    let hash ← event.hash w.crypto.sha256Text
    .ok ⟨trust, s.seq + 1, hash, recordUsed s.used event cert⟩

def walk (staged : SignerMap) (s : Walk) (events : List Event) : Except String Walk :=
  events.foldlM (verifyNext w node staged) s

/-- Where a walk over the events after a head begins. -/
def walkFrom (trust : TrustConfig) (head : Head) : Walk :=
  ⟨trust, head.seq + 1, head.hash, ∅⟩

/-- The policy a whole log is walked from: with a trust event in it, the empty one. -/
def startTrust (localTrust : TrustConfig) (events : List Event) : TrustConfig :=
  if eventsContainDomainTrust events then emptyTrust else localTrust

/-- The events of a store, by `Head` and `Range`. -/
def storedEvents (stored : List Event) : Except String (List Event) := do
  let head ← MemoryStore.head w.crypto.sha256Text stored
  if head.seq = 0 then .ok [] else MemoryStore.range stored 1 head.seq

/-- `verifyExistingConfigLog`. -/
def verifyExistingConfigLog (localTrust : TrustConfig) (stored : List Event) :
    Except String Unit := do
  let events ← storedEvents w stored
  let _ ← walk w node ∅ (walkFrom (startTrust localTrust events) ⟨0, ""⟩) events
  .ok ()

/-- The policy of the last trust event. -/
def latestDomainTrust (domainID : String) (events : List Event) :
    Except String (Option TrustConfig) :=
  match events.reverse.find? fun event => event.resource == domainTrustResource with
  | none => .ok none
  | some event => (parseDomainTrustPayload w.crypto event.payload.bytes domainID).map some

/-! ## Snapshots -/

structure Snapshot where
  domainID : String
  head : Head
  events : List Event
  signers : List SignerEntry

/-- One round of the loop of `verifyConfigSnapshotLocked`: the validator, the policy and
the certificates used. -/
def verifySnapshotNext (staged : SignerMap) (s : List Event × TrustConfig × SignerMap)
    (event : Event) : Except String (List Event × TrustConfig × SignerMap) := do
  let validator ← (MemoryStore.appendEvent w.crypto.sha256Text s.1 event).mapError
    fun _ => "append snapshot event"
  let cert ← verifyConfigEventWithTrustAndSigners w node event s.2.1 staged
  let trust ← nextTrust w node event s.2.1
  .ok (validator, trust, recordUsed s.2.2 event cert)

def verifyConfigSnapshotLocked (localTrust : TrustConfig) (snapshot : Snapshot) :
    Except String SignerMap :=
  if snapshot.domainID ≠ node.domainID then
    .error ("snapshot domain is " ++ snapshot.domainID.quote ++ ", want " ++ node.domainID.quote)
  else if snapshot.head.seq = 0 then
    if snapshot.head.hash ≠ "" then .error "snapshot zero head has non-empty hash"
    else if snapshot.events.length ≠ 0 then
      .error ("snapshot zero head has " ++ toString snapshot.events.length ++ " events")
    else .ok ∅
  else if snapshot.events.length ≠ snapshot.head.seq then
    .error ("snapshot has " ++ toString snapshot.events.length ++ " events for head seq " ++
      toString snapshot.head.seq)
  else
    match snapshot.events with
    | [] => .error ("snapshot head seq " ++ toString snapshot.head.seq ++ " has no events")
    | first :: _ =>
      if first.resource ≠ genesisResource then
        .error ("snapshot first event is " ++ first.resource.quote ++ ", want /domain/genesis")
      else do
        let staged ← parseConfigSignerCertificates w node snapshot.signers
        let (validator, _, used) ← snapshot.events.foldlM (verifySnapshotNext w node staged)
          ([], startTrust localTrust snapshot.events, ∅)
        let head ← MemoryStore.head w.crypto.sha256Text validator
        if head ≠ snapshot.head then .error "snapshot head mismatch" else .ok used

/-! ## Walks -/

variable {w : World R} {node : Node R}

theorem verifyNext_eq_ok {staged : SignerMap} {s s' : Walk} {event : Event} :
    verifyNext w node staged s event = .ok s' ↔
      event.seq = s.seq ∧ event.prevHash = s.prevHash ∧
      ∃ cert trust hash,
        verifyConfigEventWithTrustAndSigners w node event s.trust staged = .ok cert ∧
        nextTrust w node event s.trust = .ok trust ∧
        event.hash w.crypto.sha256Text = .ok hash ∧
        s' = ⟨trust, s.seq + 1, hash, recordUsed s.used event cert⟩ := by
  unfold verifyNext
  constructor
  · intro h
    obtain ⟨hseq, h⟩ := guard_eq_ok.mp h
    obtain ⟨hprev, h⟩ := guard_eq_ok.mp h
    obtain ⟨cert, hcert, h⟩ := bind_eq_ok.mp h
    obtain ⟨trust, htrust, h⟩ := bind_eq_ok.mp h
    obtain ⟨hash, hhash, h⟩ := bind_eq_ok.mp h
    injection h with h
    exact ⟨not_not.mp hseq, not_not.mp hprev, cert, trust, hash, hcert, htrust, hhash, h.symm⟩
  · rintro ⟨hseq, hprev, cert, trust, hash, hcert, htrust, hhash, rfl⟩
    simp [hseq, hprev, hcert, htrust, hhash, ok_bind]

/-- The whole of a well-formed log is read back. -/
theorem storedEvents_eq {stored : List Event} (h : WellFormed w.crypto.sha256Text stored)
    {head : Head} (hhead : MemoryStore.head w.crypto.sha256Text stored = .ok head) :
    storedEvents w stored = .ok stored := by
  obtain ⟨hlength, -⟩ := MemoryStore.head_eq_ok h hhead
  unfold storedEvents
  rw [hhead, ok_bind, hlength]
  split_ifs with hzero
  · rw [List.length_eq_zero_iff.mp hzero]
  · unfold MemoryStore.range
    rw [if_neg (by decide), if_neg (by omega), if_neg (by omega)]
    have hone : stored.length - 1 + 1 = stored.length := by omega
    rw [hone, Nat.sub_self, List.drop_zero, List.take_length]

theorem eq_of_storedEvents {stored events : List Event} (hwell : WellFormed w.crypto.sha256Text stored)
    (h : storedEvents w stored = .ok events) : events = stored := by
  obtain ⟨head, hhead, -⟩ := bind_eq_ok.mp h
  rw [storedEvents_eq hwell hhead] at h
  exact (Except.ok.inj h).symm

/-! ## Accepted snapshots -/

theorem verifySnapshotNext_eq_ok {staged : SignerMap} {event : Event}
    {s s' : List Event × TrustConfig × SignerMap}
    (h : verifySnapshotNext w node staged s event = .ok s') :
    MemoryStore.appendEvent w.crypto.sha256Text s.1 event = .ok s'.1 ∧
      ∃ cert, verifyConfigEventWithTrustAndSigners w node event s.2.1 staged = .ok cert := by
  obtain ⟨validator, happend, h⟩ := bind_eq_ok.mp h
  obtain ⟨cert, hverify, h⟩ := bind_eq_ok.mp h
  obtain ⟨trust, -, h⟩ := bind_eq_ok.mp h
  cases h
  exact ⟨mapError_eq_ok.mp happend, cert, hverify⟩

/-- The validator of `verifyConfigSnapshotLocked` takes every event. -/
theorem validator_of_verifySnapshotNext {staged : SignerMap} {events : List Event}
    {s s' : List Event × TrustConfig × SignerMap}
    (h : events.foldlM (verifySnapshotNext w node staged) s = .ok s') :
    MemoryStore.appendBatch w.crypto.sha256Text s.1 events = .ok s'.1 ∧ s'.1 = s.1 ++ events := by
  induction events generalizing s with
  | nil =>
    injection h with h
    rw [← h, List.append_nil]
    exact ⟨rfl, rfl⟩
  | cons event events ih =>
    obtain ⟨next, hnext, hrest⟩ := bind_eq_ok.mp h
    obtain ⟨happend, -⟩ := verifySnapshotNext_eq_ok hnext
    obtain ⟨hbatch, hlog⟩ := ih hrest
    refine ⟨?_, ?_⟩
    · rw [MemoryStore.appendBatch, List.foldlM_cons, happend, ok_bind]
      exact hbatch
    · obtain ⟨-, -, hnext⟩ := MemoryStore.appendEvent_eq_ok.mp happend
      rw [hlog, hnext, List.append_assoc, List.singleton_append]

/-- An accepted snapshot is a chain, and names the head of it. -/
theorem head_of_verifyConfigSnapshot {localTrust : TrustConfig} {snapshot : Snapshot}
    {used : SignerMap} (h : verifyConfigSnapshotLocked w node localTrust snapshot = .ok used) :
    WellFormed w.crypto.sha256Text snapshot.events ∧
      MemoryStore.head w.crypto.sha256Text snapshot.events = .ok snapshot.head := by
  obtain ⟨-, h⟩ := guard_eq_ok.mp h
  by_cases hzero : snapshot.head.seq = 0
  · rw [if_pos hzero] at h
    obtain ⟨hhash, h⟩ := guard_eq_ok.mp h
    obtain ⟨hevents, -⟩ := guard_eq_ok.mp h
    rw [List.length_eq_zero_iff.mp (not_not.mp hevents)]
    refine ⟨wellFormed_nil, ?_⟩
    show Except.ok _ = _
    rw [← hzero, ← not_not.mp hhash]
  · rw [if_neg hzero] at h
    obtain ⟨-, h⟩ := guard_eq_ok.mp h
    cases hevents : snapshot.events with
    | nil =>
      rw [hevents] at h
      exact absurd h (by simp)
    | cons first rest =>
      rw [hevents] at h
      obtain ⟨-, h⟩ := guard_eq_ok.mp h
      obtain ⟨staged, -, h⟩ := bind_eq_ok.mp h
      obtain ⟨⟨validator, trust, used'⟩, hloop, h⟩ := bind_eq_ok.mp h
      obtain ⟨head, hhead, h⟩ := bind_eq_ok.mp h
      obtain ⟨hsame, -⟩ := guard_eq_ok.mp h
      obtain ⟨hbatch, hlog⟩ := validator_of_verifySnapshotNext hloop
      obtain rfl : validator = first :: rest := hlog
      refine ⟨wellFormed_nil.appendBatch hbatch, ?_⟩
      rw [hhead, not_not.mp hsame]

end LogVerify
