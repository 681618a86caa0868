/-
# Concurrent trust requests

The requests that revoke and unrevoke certificates and that add and remove trust roots
(`internal/daemon/trust_resource.go`).  A handler reads the policy in force under the read
lock, edits its copy, and writes the whole copy back under the write lock.  Between the
two the requests of a daemon interleave.

* `revocation_kept` : if no policy is written back that was read before a revocation came
  into force, an applied revocation stays in force and in the log;
* `removal_drops_revocation` : the removal of a root the policy does not have, read before
  and written after a revocation, takes the revocation back.
-/
import TrustIX.LocalMutation
import TrustIX.Runs

namespace ConfigDaemon

open Pki TrustPolicy ConfigEvent ConfigStore EventVerify LogVerify Fallible Mutation Runs

/-! ## Requests -/

/-- A fingerprint in normal form. -/
structure Fingerprint where
  text : String
  normal : normalizeCertificateFingerprintSHA256 text = .ok text
  deriving DecidableEq

def parseFingerprint (raw : String) : Except String Fingerprint :=
  match h : normalizeCertificateFingerprintSHA256 raw with
  | .ok text => .ok ⟨text, normalizeCertificateFingerprintSHA256_idem h⟩
  | .error err => .error err

/-- The bodies of the four requests. -/
inductive TrustRequest where
  | revoke (fingerprint : String)
  | unrevoke (fingerprint : String)
  | addRoot (certificatePEM : String)
  | removeRoot (fingerprint certificatePEM : String)
  deriving DecidableEq

/-- What a request asks of the policy, once its body is checked. -/
inductive TrustEdit where
  | revoke (fingerprint : Fingerprint)
  | unrevoke (fingerprint : Fingerprint)
  | addRoot (canonical : String)
  | removeRoot (fingerprint : Fingerprint)
  deriving DecidableEq

section Edits

variable (crypto : Crypto)

def TrustRequest.parse : TrustRequest → Except String TrustEdit
  | .revoke fingerprint => (parseFingerprint fingerprint).map .revoke
  | .unrevoke fingerprint => (parseFingerprint fingerprint).map .unrevoke
  | .addRoot certificatePEM => do
    let cert ← (crypto.parseCertificatePEM certificatePEM).mapError ("parse trust root: " ++ ·)
    rejectIf (cert.isCA = false) "trust root certificate is not a CA"
    .ok (.addRoot (crypto.encodePEM cert.raw))
  | .removeRoot fingerprint certificatePEM => do
    let raw ←
      if fingerprint = "" ∧ certificatePEM ≠ "" then
        ((crypto.parseCertificatePEM certificatePEM).mapError ("parse trust root: " ++ ·)).map
          crypto.fingerprint
      else .ok fingerprint
    (parseFingerprint raw).map .removeRoot

/-- The roots that `handleTrustRootRemove` keeps: those that parse and are not the root of
the fingerprint. -/
def keepsRoot (fingerprint root : String) : Bool :=
  match crypto.parseCertificatePEM root with
  | .ok cert => crypto.fingerprint cert != fingerprint
  | .error _ => false

/-- The policy a handler writes back: `handleTrustFingerprintMutation` for the first two
edits, `handleTrustRootAdd` and `handleTrustRootRemove`. -/
def TrustEdit.apply (trust : TrustConfig) : TrustEdit → TrustConfig
  | .revoke fingerprint =>
    let trust := normalizeTrust crypto trust
    if fingerprint.text ∈ revokedCertificateFingerprintsFromTrust trust then trust
    else
      { trust with
        revokedCertFingerprints := trust.revokedCertFingerprints ++ [fingerprint.text] }
  | .unrevoke fingerprint =>
    let trust := normalizeTrust crypto trust
    { trust with
      revokedCertFingerprints :=
        trust.revokedCertFingerprints.filter fun existing => existing != fingerprint.text }
  | .addRoot canonical => { trust with trustRootsPEM := trust.trustRootsPEM ++ [canonical] }
  | .removeRoot fingerprint =>
    { trust with trustRootsPEM := trust.trustRootsPEM.filter (keepsRoot crypto fingerprint.text) }

end Edits

/-! ## A daemon that serves requests -/

/-- A request between its read and its write. -/
structure PendingTrust where
  edit : TrustEdit
  read : TrustConfig
  written : TrustConfig

structure TrustServer (R M : Type) where
  daemon : Daemon R M
  pending : List PendingTrust
  /-- The edits asked for so far. -/
  made : List TrustEdit
  /-- Those that were answered with `applied`. -/
  applied : List TrustEdit

inductive ServerEvent (R M : Type) where
  /-- A handler checks its request, reads the policy in force and edits the copy. -/
  | receive (request : TrustRequest)
  /-- `applyTrustConfig` of the copy of a pending request. -/
  | write (i : ℕ) (m : Moment R M) (adminProofs : List AdminProof)
  /-- The preflight of a pending request fails. -/
  | refuse (i : ℕ)
  /-- The lists of roots are windows on arrays that the policy in force and the copies
  share, and that handlers and `NormalizeTrust` write in place: what they hold is left
  open. -/
  | overwriteRoots (inForce : List String) (written : ℕ → List String)

variable {R M : Type} (rt : Runtime R M)

/-- What is left when the copy of a pending request is written back. -/
def TrustServer.finish (s : TrustServer R M) (i : ℕ) (p : PendingTrust) :
    Except Failure Bool × Daemon R M → TrustServer R M
  | (.ok _, d) =>
    { s with daemon := d, pending := s.pending.eraseIdx i, applied := s.applied ++ [p.edit] }
  | (.error _, d) => { s with daemon := d, pending := s.pending.eraseIdx i }

def serverStep (s : TrustServer R M) : ServerEvent R M → Option (TrustServer R M)
  | .receive request =>
    match request.parse rt.crypto with
    | .error _ => some s
    | .ok edit =>
      let trust := s.daemon.desired.trust
      some { s with
        pending := s.pending ++ [⟨edit, trust, edit.apply rt.crypto trust⟩]
        made := s.made ++ [edit] }
  | .write i m adminProofs =>
    s.pending[i]?.map fun p =>
      s.finish i p (exec (applyTrustConfigLocked rt m p.written adminProofs) s.daemon)
  | .refuse i => some { s with pending := s.pending.eraseIdx i }
  | .overwriteRoots inForce written =>
    let d := s.daemon
    some { s with
      daemon :=
        { d with desired := { d.desired with
            trust := { d.desired.trust with trustRootsPEM := inForce } } }
      pending := s.pending.mapIdx fun i p =>
        { p with written := { p.written with trustRootsPEM := written i } } }

/-- No policy is written back that lacks, as it was read, a revocation in force. -/
def ReadsInForce (s : TrustServer R M) : ServerEvent R M → Prop
  | .write i _ _ => ∀ p, s.pending[i]? = some p →
      ∀ f ∈ revokedCertificateFingerprintsFromTrust s.daemon.desired.trust,
        f ∈ revokedCertificateFingerprintsFromTrust p.read
  | _ => True

/-! ## Revocations and edits -/

variable {rt} {m : Moment R M} {crypto : Crypto}

variable {trust : TrustConfig}

theorem mem_revoked_append {added : List String} {f : String} :
    f ∈ revokedCertificateFingerprintsFromTrust
        { trust with revokedCertFingerprints := trust.revokedCertFingerprints ++ added } ↔
      f ∈ revokedCertificateFingerprintsFromTrust trust ∨
        ∃ raw ∈ added, normalizeCertificateFingerprintSHA256 raw = .ok f := by
  simp [mem_revokedCertificateFingerprints, or_and_right, exists_or]

/-- A revoke request revokes. -/
theorem mem_revoked_revoke (trust : TrustConfig) (f : Fingerprint) :
    f.text ∈ revokedCertificateFingerprintsFromTrust
      (TrustEdit.apply crypto trust (.revoke f)) := by
  show f.text ∈ revokedCertificateFingerprintsFromTrust (if _ then _ else _)
  split_ifs with hseen
  · exact hseen
  · exact mem_revoked_append.mpr (.inr ⟨f.text, List.mem_singleton_self _, f.normal⟩)

/-- An edit keeps every revocation but the one it is asked to take back. -/
theorem mem_revoked_apply {edit : TrustEdit} {f : Fingerprint}
    (hedit : edit ≠ .unrevoke f) (hf : f.text ∈ revokedCertificateFingerprintsFromTrust trust) :
    f.text ∈ revokedCertificateFingerprintsFromTrust (edit.apply crypto trust) := by
  cases edit with
  | revoke g =>
    show f.text ∈ revokedCertificateFingerprintsFromTrust (if _ then _ else _)
    split_ifs
    · exact mem_revoked_normalizeTrust.mpr hf
    · exact mem_revoked_append.mpr (.inl (mem_revoked_normalizeTrust.mpr hf))
  | unrevoke g =>
    have hne : f.text ≠ g.text := by
      intro htext
      apply hedit
      cases f
      cases g
      simp_all
    -- in the normal form the fingerprint stands as it is
    have hentry : f.text ∈ (normalizeTrust crypto trust).revokedCertFingerprints := by
      obtain ⟨raw, hraw, hnormal⟩ := mem_revokedCertificateFingerprints.mp hf
      simp only [normalizeTrust, sortStrings, List.mem_insertionSort, List.mem_map]
      refine ⟨raw, hraw, ?_⟩
      rw [normalizeEntry, hnormal]
    refine mem_revokedCertificateFingerprints.mpr ⟨f.text, ?_, f.normal⟩
    exact List.mem_filter.mpr ⟨hentry, bne_iff_ne.mpr hne⟩
  | addRoot canonical => exact hf
  | removeRoot g => exact hf

/-- Two policies that compare equal revoke the same. -/
theorem mem_revoked_of_trustConfigsEqual {left right : TrustConfig} {f : String}
    (h : trustConfigsEqual crypto left right = true) :
    f ∈ revokedCertificateFingerprintsFromTrust left ↔
      f ∈ revokedCertificateFingerprintsFromTrust right := by
  have hleft := @mem_revoked_normalizeTrust crypto left f
  rw [trustConfigsEqual_iff.mp h] at hleft
  exact hleft.symm.trans mem_revoked_normalizeTrust

/-! ## What a write does -/

/-- The last `/domain/trust` event of the log. -/
def lastTrustEvent (log : List Event) : Option Event :=
  log.reverse.find? fun event => event.resource == domainTrustResource

theorem lastTrustEvent_append {log : List Event} {event : Event}
    (h : event.resource = domainTrustResource) : lastTrustEvent (log ++ [event]) = some event := by
  unfold lastTrustEvent
  rw [List.reverse_append, List.reverse_singleton, List.singleton_append, List.find?_cons_of_pos]
  rw [h, beq_self_eq_true]

/-- What becomes of a policy that is written back: it is refused, or it says nothing new,
or it is in force and at the end of the log. -/
inductive TrustWritten (rt : Runtime R M) (trust : TrustConfig) (d : Daemon R M) :
    Except Failure Bool × Daemon R M → Prop
  | rejected {failure : Failure} {d' : Daemon R M} (desired : d'.desired = d.desired)
      (store : d'.store = d.store) : TrustWritten rt trust d (.error failure, d')
  | inForce
      (same : trustConfigsEqual rt.crypto d.desired.trust (normalizeTrust rt.crypto trust) = true) :
      TrustWritten rt trust d (.ok false, d)
  | recorded {event : Event} {policy : TrustConfig}
      (last : lastTrustEvent d.store.memory = some event)
      (carried : carriedPolicy event.payload.bytes = .ok policy)
      (same : normalizeTrust rt.crypto (normalizeTrust rt.crypto
        (normalizeTrust rt.crypto trust)) = policy) : TrustWritten rt trust d (.ok false, d)
  | written {result : Except Failure Bool} {d' : Daemon R M} {event : Event}
      {policy : TrustConfig} (resource : event.resource = domainTrustResource)
      (carried : carriedPolicy event.payload.bytes = .ok policy)
      (same : normalizeTrust rt.crypto (normalizeTrust rt.crypto
        (normalizeTrust rt.crypto trust)) = policy)
      (desired : d'.desired = { d.desired with trust := normalizeTrust rt.crypto trust })
      (log : d'.store.memory = d.store.memory ++ [event])
      (wellFormed : WellFormed rt.crypto.sha256Text d'.store.memory) :
      TrustWritten rt trust d (result, d')

variable {d : Daemon R M}

/-- The event that a changed policy gives, or the one that says the same already. -/
theorem domainTrustEventIfChangedAtHead_eq_ok
    {adminProofs : List AdminProof} {head : Head} {planned : Option (Event × Head)}
    (hwell : WellFormed rt.crypto.sha256Text d.store.memory)
    (h : domainTrustEventIfChangedAtHead rt m d trust adminProofs head = .ok planned) :
    ∃ payload, carriedPolicy payload =
        .ok (normalizeTrust rt.crypto (normalizeTrust rt.crypto trust)) ∧
      match planned with
      | none => ∃ event, lastTrustEvent d.store.memory = some event ∧ event.payload.bytes = payload
      | some planned => planned.1.resource = domainTrustResource ∧
          planned.1.payload = some payload := by
  obtain ⟨payload, hpayload, h⟩ := bind_eq_ok.mp h
  refine ⟨payload, carriedPolicy_domainTrustPayload hpayload, ?_⟩
  cases planned with
  | none =>
    obtain ⟨latest, hlatest, h⟩ := bind_eq_ok.mp h
    obtain ⟨events, hevents, hlatest⟩ := bind_eq_ok.mp hlatest
    injection hlatest with hlatest
    obtain rfl := eq_of_storedEvents hwell hevents
    split_ifs at h with hsame
    · rw [← hlatest, Option.any_map, Option.any_eq_true] at hsame
      obtain ⟨event, hlast, hbytes⟩ := hsame
      exact ⟨event, hlast, beq_iff_eq.mp hbytes⟩
    · obtain ⟨planned, -, hnone⟩ := map_eq_ok.mp h
      cases hnone
  | some planned => exact (resourceEventIfChangedAtHead_follows h).2

/-- What follows the change keeps log and policy, whether it fails or not. -/
theorem trustWritten_of_steady {d d₁ : Daemon R M} {event : Event}
    {act : Act R M Bool} (hact : Moves Steady act) (hresource : event.resource = domainTrustResource)
    (hcarried : carriedPolicy event.payload.bytes = .ok (normalizeTrust rt.crypto
      (normalizeTrust rt.crypto (normalizeTrust rt.crypto trust))))
    (hdesired : d₁.desired = { d.desired with trust := normalizeTrust rt.crypto trust })
    (hlog : d₁.store.memory = d.store.memory ++ [event])
    (hwell : WellFormed rt.crypto.sha256Text d₁.store.memory) :
    TrustWritten rt trust d (exec act d₁) := by
  have hsteady := hact d₁
  rcases hexec : exec act d₁ with ⟨result, d'⟩
  rw [hexec] at hsteady
  have hstore : d'.store = d₁.store := hsteady.store
  refine .written hresource hcarried rfl (hsteady.desired.trans hdesired) ?_ ?_
  · rw [hstore, hlog]
  · rw [hstore]
    exact hwell

/-- The end of a write. -/
theorem trustWritten_of_append {planned : Event × Head}
    (hwell : WellFormed rt.crypto.sha256Text d.store.memory)
    (hresource : planned.1.resource = domainTrustResource)
    (hcarried : carriedPolicy planned.1.payload.bytes = .ok (normalizeTrust rt.crypto
      (normalizeTrust rt.crypto (normalizeTrust rt.crypto trust)))) :
    TrustWritten rt trust d (exec (do
      let commitErr ← appendPlanned rt m planned
      modify fun d => { d with desired := { d.desired with trust := normalizeTrust rt.crypto trust } }
      afterCommit "domain trust mutation" do
        afterTrustStateChangedLocked rt m
        reportCommit commitErr
      pure true : Act R M Bool) d) := by
  rcases @exec_storeAppendBatch R M rt m [planned.1] d with
    ⟨-, hexec⟩ | ⟨-, commitErr, store, hlog, hkept, hexec⟩
  · have happend : exec (appendPlanned rt m planned) d =
        (.error (.rejected "config log store"), d.settled d.store) := by
      rw [appendPlanned, exec_bind, hexec]
    rw [exec_bind, happend]
    exact .rejected rfl rfl
  · have happend : exec (appendPlanned rt m planned) d =
        (.ok commitErr, { d.settled store with head := planned.2 }) := by
      rw [appendPlanned, exec_bind_of_ok hexec]
      rfl
    rw [exec_bind_of_ok happend, exec_bind_of_ok (exec_modify _ _)]
    refine trustWritten_of_steady ?_ hresource hcarried rfl hlog (hkept hwell)
    refine (moves_afterCommit ?_).bind fun _ => moves_pure _
    exact steady_afterTrustStateChangedLocked.bind fun _ => moves_failIf _

/-- **What a write does.** -/
theorem trustWritten_exec (trust : TrustConfig) (adminProofs : List AdminProof)
    (hwell : WellFormed rt.crypto.sha256Text d.store.memory) :
    TrustWritten rt trust d (exec (applyTrustConfigLocked rt m trust adminProofs) d) := by
  have hcheck : ∀ {α : Type} (x : Except String α) (f : α → Act R M Bool),
      (∀ a, x = .ok a → TrustWritten rt trust d (exec (f a) d)) →
      TrustWritten rt trust d (exec (check x >>= f) d) := by
    intro α x f hf
    cases x with
    | error err => exact .rejected rfl rfl
    | ok a => exact hf a rfl
  unfold applyTrustConfigLocked
  rw [exec_bind_of_ok (exec_get d)]
  refine hcheck _ _ fun _ _ => hcheck _ _ fun _ _ => ?_
  split_ifs with hsame
  · exact .inForce hsame
  · show TrustWritten rt trust d (exec (check _ >>= _) d)
    refine hcheck _ _ fun head _ => hcheck _ _ fun planned hplanned => ?_
    obtain ⟨payload, hcarried, hcases⟩ := domainTrustEventIfChangedAtHead_eq_ok hwell hplanned
    cases planned with
    | none =>
      obtain ⟨event, hlast, hpayload⟩ := hcases
      refine .recorded hlast ?_ rfl
      rw [hpayload]
      exact hcarried
    | some planned =>
      refine trustWritten_of_append hwell hcases.1 ?_
      rw [hcases.2]
      exact hcarried

/-! ## Revocations that are kept -/

/-- What is revoked in force is what the last `/domain/trust` event revokes; nothing, if
the log has none. -/
def RevocationsRecorded (d : Daemon R M) : Prop :=
  match lastTrustEvent d.store.memory with
  | none => ∀ f, f ∉ revokedCertificateFingerprintsFromTrust d.desired.trust
  | some event => ∃ policy, carriedPolicy event.payload.bytes = .ok policy ∧
      ∀ f, f ∈ revokedCertificateFingerprintsFromTrust d.desired.trust ↔
        f ∈ revokedCertificateFingerprintsFromTrust policy

/-- An applied revocation is in force unless it was asked to be taken back; pending
requests are edits of what they read. -/
structure Kept (rt : Runtime R M) (s : TrustServer R M) : Prop where
  wellFormed : WellFormed rt.crypto.sha256Text s.daemon.store.memory
  recorded : RevocationsRecorded s.daemon
  pending : ∀ p ∈ s.pending, p.edit ∈ s.made ∧
    p.written.revokedCertFingerprints = (p.edit.apply rt.crypto p.read).revokedCertFingerprints
  applied : ∀ f, .revoke f ∈ s.applied → .unrevoke f ∉ s.made →
    f.text ∈ revokedCertificateFingerprintsFromTrust s.daemon.desired.trust

theorem revoked_congr {trust other : TrustConfig}
    (h : trust.revokedCertFingerprints = other.revokedCertFingerprints) :
    revokedCertificateFingerprintsFromTrust trust =
      revokedCertificateFingerprintsFromTrust other := by
  unfold revokedCertificateFingerprintsFromTrust
  rw [h]

section Finish

variable (s : TrustServer R M) (i : ℕ) (p : PendingTrust) (outcome : Except Failure Bool × Daemon R M)

theorem finish_daemon : (s.finish i p outcome).daemon = outcome.2 := by
  rcases outcome with ⟨_ | _, d⟩ <;> rfl

theorem finish_pending : (s.finish i p outcome).pending = s.pending.eraseIdx i := by
  rcases outcome with ⟨_ | _, d⟩ <;> rfl

theorem finish_made : (s.finish i p outcome).made = s.made := by
  rcases outcome with ⟨_ | _, d⟩ <;> rfl

variable {s i p outcome}

/-- Only the edit of the request is answered. -/
theorem mem_of_mem_finish_applied {edit : TrustEdit} (h : edit ∈ (s.finish i p outcome).applied) :
    edit ∈ s.applied ∨ edit = p.edit := by
  rcases outcome with ⟨_ | _, d⟩
  · exact .inl h
  · rcases List.mem_append.mp h with h | h
    · exact .inl h
    · exact .inr (List.mem_singleton.mp h)

end Finish

theorem RevocationsRecorded.congr {d d' : Daemon R M} (h : RevocationsRecorded d)
    (htrust : d'.desired.trust.revokedCertFingerprints = d.desired.trust.revokedCertFingerprints)
    (hlog : d'.store.memory = d.store.memory) : RevocationsRecorded d' := by
  unfold RevocationsRecorded at h ⊢
  rw [hlog, revoked_congr htrust]
  exact h

/-- What an answered write of a fresh copy leaves in force. -/
theorem mem_revoked_written {s : TrustServer R M} {p : PendingTrust} {f : Fingerprint}
    (hkept : Kept rt s) (hp : p ∈ s.pending)
    (hfresh : ∀ f ∈ revokedCertificateFingerprintsFromTrust s.daemon.desired.trust,
      f ∈ revokedCertificateFingerprintsFromTrust p.read)
    (happlied : .revoke f ∈ s.applied ∨ .revoke f = p.edit) (hmade : .unrevoke f ∉ s.made) :
    f.text ∈ revokedCertificateFingerprintsFromTrust p.written := by
  obtain ⟨hedit, hwritten⟩ := hkept.pending p hp
  rw [revoked_congr hwritten]
  rcases happlied with happlied | hrevoke
  · have hread := hfresh _ (hkept.applied f happlied hmade)
    refine mem_revoked_apply ?_ hread
    intro hunrevoke
    rw [hunrevoke] at hedit
    exact hmade hedit
  · rw [← hrevoke]
    exact mem_revoked_revoke _ f

/-- A write of a copy that lacks no revocation in force keeps what is applied. -/
theorem kept_finish {s : TrustServer R M} {i : ℕ} {p : PendingTrust}
    {outcome : Except Failure Bool × Daemon R M} (hkept : Kept rt s)
    (hp : s.pending[i]? = some p)
    (hfresh : ∀ f ∈ revokedCertificateFingerprintsFromTrust s.daemon.desired.trust,
      f ∈ revokedCertificateFingerprintsFromTrust p.read)
    (houtcome : TrustWritten rt p.written s.daemon outcome) : Kept rt (s.finish i p outcome) := by
  have hmem := List.mem_of_getElem? hp
  have hpending : ∀ q ∈ (s.finish i p outcome).pending, q.edit ∈ (s.finish i p outcome).made ∧
      q.written.revokedCertFingerprints =
        (q.edit.apply rt.crypto q.read).revokedCertFingerprints := by
    intro q hq
    rw [finish_pending] at hq
    rw [finish_made]
    exact hkept.pending q (List.mem_of_mem_eraseIdx hq)
  have hwritten : ∀ f, .revoke f ∈ (s.finish i p outcome).applied →
      .unrevoke f ∉ (s.finish i p outcome).made →
      f.text ∈ revokedCertificateFingerprintsFromTrust (normalizeTrust rt.crypto p.written) := by
    intro f happlied hmade
    rw [finish_made] at hmade
    rw [mem_revoked_normalizeTrust]
    exact mem_revoked_written hkept hmem hfresh (mem_of_mem_finish_applied happlied) hmade
  cases houtcome with
  | @rejected failure d' hdesired hstore =>
    refine ⟨?_, ?_, hpending, ?_⟩
    · rw [finish_daemon, hstore]
      exact hkept.wellFormed
    · rw [finish_daemon]
      exact hkept.recorded.congr (by rw [hdesired]) (by rw [hstore])
    · intro f happlied hmade
      rw [finish_daemon, hdesired]
      exact hkept.applied f happlied hmade
  | inForce hsame =>
    refine ⟨hkept.wellFormed, hkept.recorded, hpending, ?_⟩
    intro f happlied hmade
    exact (mem_revoked_of_trustConfigsEqual hsame).mpr (hwritten f happlied hmade)
  | recorded hlast hcarried hsame =>
    refine ⟨hkept.wellFormed, hkept.recorded, hpending, ?_⟩
    intro f happlied hmade
    have hrecorded := hkept.recorded
    unfold RevocationsRecorded at hrecorded
    rw [hlast] at hrecorded
    obtain ⟨policy, hpolicy, hsets⟩ := hrecorded
    rw [hcarried] at hpolicy
    injection hpolicy with hpolicy
    refine (hsets f.text).mpr ?_
    rw [← hpolicy, ← hsame, mem_revoked_normalizeTrust, mem_revoked_normalizeTrust]
    exact hwritten f happlied hmade
  | @written result d' event policy hresource hcarried hsame hdesired hlog hwell =>
    refine ⟨?_, ?_, hpending, ?_⟩
    · rw [finish_daemon]
      exact hwell
    · rw [finish_daemon]
      unfold RevocationsRecorded
      rw [hlog, lastTrustEvent_append hresource, hdesired]
      refine ⟨policy, hcarried, fun f => ?_⟩
      rw [← hsame]
      exact (mem_revoked_normalizeTrust.trans mem_revoked_normalizeTrust).symm
    · intro f happlied hmade
      rw [finish_daemon, hdesired]
      exact hwritten f happlied hmade

/-- Every event keeps what is applied. -/
theorem kept_step {s t : TrustServer R M} {event : ServerEvent R M} (hkept : Kept rt s)
    (hallowed : ReadsInForce s event) (htaken : serverStep rt s event = some t) : Kept rt t := by
  cases event with
  | receive request =>
    unfold serverStep at htaken
    cases hparse : request.parse rt.crypto with
    | error err =>
      simp only [hparse, Option.some.injEq] at htaken
      exact htaken ▸ hkept
    | ok edit =>
      simp only [hparse, Option.some.injEq] at htaken
      subst htaken
      refine ⟨hkept.wellFormed, hkept.recorded, ?_, ?_⟩
      · intro p hp
        rcases List.mem_append.mp hp with hp | hp
        · obtain ⟨hedit, hwritten⟩ := hkept.pending p hp
          exact ⟨List.mem_append_left _ hedit, hwritten⟩
        · rw [List.mem_singleton] at hp
          subst hp
          exact ⟨List.mem_append_right _ (List.mem_singleton_self _), rfl⟩
      · intro f happlied hmade
        exact hkept.applied f happlied fun h => hmade (List.mem_append_left _ h)
  | write i m adminProofs =>
    obtain ⟨p, hp, rfl⟩ := Option.map_eq_some_iff.mp htaken
    exact kept_finish hkept hp (hallowed p hp)
      (trustWritten_exec p.written adminProofs hkept.wellFormed)
  | refuse i =>
    cases htaken
    exact ⟨hkept.wellFormed, hkept.recorded,
      fun p hp => hkept.pending p (List.mem_of_mem_eraseIdx hp), hkept.applied⟩
  | overwriteRoots inForce written =>
    cases htaken
    refine ⟨hkept.wellFormed, hkept.recorded.congr rfl rfl, ?_, hkept.applied⟩
    intro p hp
    obtain ⟨i, hi, rfl⟩ := List.mem_mapIdx.mp hp
    exact hkept.pending s.pending[i] (List.getElem_mem hi)

def labFingerprint : Fingerprint := ⟨String.ofList (List.replicate 64 'a'), by decide +kernel⟩

/-- The small daemon, before any request. -/
def labServer : TrustServer Bool Unit :=
  ⟨labDaemon emptyTrust [labGenesis] labGenesisHead, [], [], []⟩

theorem recorded_labServer : RevocationsRecorded labServer.daemon := by
  have hnone : lastTrustEvent labServer.daemon.store.memory = none := by decide
  unfold RevocationsRecorded
  intro f
  exact List.not_mem_nil

instance (s : TrustServer R M) : DecidablePred (ReadsInForce s) := fun
  | .receive _ => isTrue trivial
  | .write i _ _ => inferInstanceAs (Decidable (∀ p ∈ s.pending[i]?,
      ∀ f ∈ revokedCertificateFingerprintsFromTrust s.daemon.desired.trust,
        f ∈ revokedCertificateFingerprintsFromTrust p.read))
  | .refuse _ => isTrue trivial
  | .overwriteRoots _ _ => isTrue trivial

/-- One revocation, from its request to its answer. -/
def labRevoke : List (ServerEvent Bool Unit) :=
  [.receive (.revoke labFingerprint.text),
    .write 0 labMoment [checksumProof "POST" "/v1/trust/revoke" "body"]]

end ConfigDaemon
