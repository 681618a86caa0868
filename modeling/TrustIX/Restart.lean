/-
# Trust after a restart

A start takes the policy of the last `/domain/trust` event into force and then the last
local configuration of the log, with the trust section that configuration was written
with (`loadAndApply`, `restoreLatestLocalDesiredFromLogLocked`).

* `restart_trust_iff` : the policy of the log is in force after a start iff the last local
  configuration agrees with it;
* `restart_drops_revocation` : a run in which it does not, and a revocation is lost.
-/
import TrustIX.Lifecycle

namespace ConfigDaemon

open Pki TrustPolicy ConfigEvent ConfigStore EventVerify LogVerify Fallible Mutation

variable {R M : Type} {rt : Runtime R M} {m : Moment R M}

/-- The configuration of the file, under the policy of the log. -/
def underPolicy (rt : Runtime R M) (file : Desired R) (policy : TrustConfig) : Desired R :=
  if trustConfigsEqual rt.crypto file.trust policy then file else { file with trust := policy }

/-- The last local configuration in the log agrees with the policy, or is the one that is
in force without it. -/
def CarriesPolicy (rt : Runtime R M) (m : Moment R M) (file : Desired R) (policy : TrustConfig)
    (log : List Event) : Prop :=
  ∀ event decoded, log.reverse.find? (isDesiredOf rt file.ixID) = some event →
    rt.decodeDesired event.payload.bytes = .ok decoded →
    trustConfigsEqual rt.crypto (normalize (rt.world m) decoded).trust policy = true ∨
      desiredConfigsEqual rt (underPolicy rt file policy)
        (normalize (rt.world m) decoded) = true

theorem underPolicy_trust (file : Desired R) (policy : TrustConfig) :
    trustConfigsEqual rt.crypto (underPolicy rt file policy).trust policy = true := by
  unfold underPolicy
  split_ifs with h
  · exact h
  · exact trustConfigsEqual_iff.mpr rfl

theorem underPolicy_ixID (file : Desired R) (policy : TrustConfig) :
    (underPolicy rt file policy).ixID = file.ixID := by
  unfold underPolicy
  split_ifs
  · rfl
  · rfl

/-- The policy of the log comes into force. -/
theorem desired_of_applyLatestDomainTrust {d d' : Daemon R M} {policy : TrustConfig}
    (hwell : WellFormed rt.crypto.sha256Text d.store.memory)
    (hpolicy : latestDomainTrust (rt.world m) d.desired.domainID d.store.memory = .ok (some policy))
    (h : exec (applyLatestDomainTrustFromLogLocked rt m) d = (.ok (), d')) :
    d'.desired = underPolicy rt d.desired policy := by
  obtain ⟨events, d₁, hread, hrest⟩ := exec_bind_eq_ok.mp h
  obtain ⟨hstored, rfl⟩ := exec_storeLog_eq_ok.mp hread
  obtain rfl := eq_of_storedEvents hwell hstored
  obtain ⟨d₂, d₃, hget, hmatch⟩ := exec_bind_eq_ok.mp hrest
  cases hget
  obtain ⟨latest, d₄, hlatest, hswitch⟩ := exec_bind_eq_ok.mp hmatch
  obtain ⟨hfound, rfl⟩ := exec_check_eq_ok.mp hlatest
  rw [hpolicy] at hfound
  cases hfound
  simp only at hswitch
  unfold underPolicy
  split at hswitch
  · rename_i hequal
    cases hswitch
    rw [if_pos hequal]
  · rename_i hdiffers
    rw [if_neg hdiffers]
    obtain ⟨⟨⟩, d₅, hset, hafter⟩ := exec_bind_eq_ok.mp hswitch
    cases hset
    have hsteady := @steady_afterTrustStateChangedLocked R M rt m
      { d₄ with desired := { d₄.desired with trust := policy } }
    rw [hafter] at hsteady
    exact hsteady.desired

/-- Then the last local configuration does, trust section included. -/
theorem trust_of_restoreLatestLocalDesired {d d' : Daemon R M}
    (hwell : WellFormed rt.crypto.sha256Text d.store.memory)
    (h : exec (restoreLatestLocalDesiredFromLogLocked rt m) d = (.ok (), d')) :
    (d.store.memory.reverse.find? (isDesiredOf rt d.desired.ixID) = none ∧ d'.desired = d.desired) ∨
      ∃ event decoded,
        d.store.memory.reverse.find? (isDesiredOf rt d.desired.ixID) = some event ∧
        rt.decodeDesired event.payload.bytes = .ok decoded ∧
        d'.desired =
          if desiredConfigsEqual rt d.desired (normalize (rt.world m) decoded) then d.desired
          else normalize (rt.world m) decoded := by
  obtain ⟨head, d₁, hread, hrest⟩ := exec_bind_eq_ok.mp h
  obtain ⟨-, rfl⟩ := exec_storeHead_eq_ok.mp hread
  obtain ⟨events, d₂, hlog, hget⟩ := exec_bind_eq_ok.mp hrest
  obtain ⟨hstored, rfl⟩ := exec_storeLog_eq_ok.mp hlog
  obtain rfl := eq_of_storedEvents hwell hstored
  obtain ⟨d₃, d₄, hgot, hmatch⟩ := exec_bind_eq_ok.mp hget
  cases hgot
  obtain ⟨latest, d₅, hlatest, hswitch⟩ := exec_bind_eq_ok.mp hmatch
  obtain ⟨hfound, rfl⟩ := exec_check_eq_ok.mp hlatest
  unfold latestLocalDesiredFromEvents at hfound
  cases hfind : d₅.store.memory.reverse.find? (isDesiredOf rt d₅.desired.ixID) with
  | none =>
    rw [hfind] at hfound
    cases hfound
    cases hswitch
    exact .inl ⟨rfl, rfl⟩
  | some event =>
    rw [hfind] at hfound
    obtain ⟨decoded, hdecoded, hvalid⟩ := bind_eq_ok.mp hfound
    obtain ⟨-, hsome⟩ := seq_eq_ok.mp hvalid
    cases hsome
    refine .inr ⟨event, decoded, rfl, mapError_eq_ok.mp hdecoded, ?_⟩
    simp only at hswitch
    split at hswitch
    · rename_i hequal
      cases hswitch
      rw [if_pos hequal]
    · rename_i hdiffers
      rw [if_neg hdiffers]
      obtain ⟨⟨⟩, d₆, hmodules, hset⟩ := exec_bind_eq_ok.mp hswitch
      cases hset
      rfl

/-- **The policy in force after a start** is that of the log iff the last local
configuration of the log does not bring another. -/
theorem restart_trust_iff (rt : Runtime R M) {m : Moment R M} {file : Desired R}
    {policy : TrustConfig} {stopped started : Daemon R M}
    (hstart : exec (loadAndApply rt m (.ok file)) stopped = (.ok (), started))
    (hpolicy : latestDomainTrust (rt.world m) file.domainID started.store.memory =
      .ok (some policy)) :
    trustConfigsEqual rt.crypto started.desired.trust policy = true ↔
      CarriesPolicy rt m file policy started.store.memory := by
  obtain ⟨stored, opened, restored, -, hopened, -, hrestore, hsteady⟩ :=
    exec_loadAndApply_eq_ok hstart
  have hlog : started.store = opened.store := by
    have hrestored := @sameLog_restoreFromLog R M rt m opened
    rw [hrestore] at hrestored
    exact hsteady.store.trans hrestored
  rw [hlog] at hpolicy ⊢
  rw [hsteady.desired]
  obtain ⟨head, d₁, hread, hrest⟩ := exec_bind_eq_ok.mp hrestore
  obtain ⟨-, rfl⟩ := exec_storeHead_eq_ok.mp hread
  obtain ⟨⟨⟩, d₂, hset, htrust⟩ := exec_bind_eq_ok.mp hrest
  cases hset
  obtain ⟨⟨⟩, d₃, happly, hlocal⟩ := exec_bind_eq_ok.mp htrust
  have hunder : d₃.desired = underPolicy rt file policy := by
    rw [← hopened.desired] at hpolicy ⊢
    exact desired_of_applyLatestDomainTrust (d := { d₁ with head := head }) hopened.wellFormed hpolicy
      happly
  have hstore : d₃.store = d₁.store := by
    have hcalm := @calm_applyLatestDomainTrustFromLogLocked R M rt m { d₁ with head := head }
    rw [happly] at hcalm
    exact hcalm.store
  have hix : d₃.desired.ixID = file.ixID := by
    rw [hunder, underPolicy_ixID]
  have hcases := trust_of_restoreLatestLocalDesired (hstore ▸ hopened.wellFormed) hlocal
  rw [hix, hstore, hunder] at hcases
  rcases hcases with ⟨hnone, hkept⟩ | ⟨event, decoded, hevent, hdecoded, hrestored⟩
  · -- without a local configuration the policy of the log stays
    rw [hkept]
    refine iff_of_true (underPolicy_trust file policy) ?_
    intro event decoded hevent
    rw [hnone] at hevent
    cases hevent
  · have hcarries : CarriesPolicy rt m file policy d₁.store.memory ↔
        (trustConfigsEqual rt.crypto (normalize (rt.world m) decoded).trust policy = true ∨
          desiredConfigsEqual rt (underPolicy rt file policy)
            (normalize (rt.world m) decoded) = true) := by
      constructor
      · intro h
        exact h event decoded hevent hdecoded
      · intro h event' decoded' hevent' hdecoded'
        rw [hevent] at hevent'
        cases hevent'
        rw [hdecoded] at hdecoded'
        cases hdecoded'
        exact h
    rw [hcarries, hrestored]
    split_ifs with hequal
    · exact iff_of_true (underPolicy_trust file policy) (.inr hequal)
    · rw [or_iff_left hequal]

/-! ## A lost revocation -/

/-- A policy that revokes one certificate. -/
def revokingTrust : TrustConfig :=
  { emptyTrust with revokedCertFingerprints := [String.ofList (List.replicate 64 'a')] }

/-- The small daemon after its first start, an apply of the configuration in force and a
revocation. -/
def labRevoked : Daemon Bool Unit :=
  let applied := (exec (applyDesiredConfigLocked labRuntime labMoment (labConfig emptyTrust false)
    []) labStarted).2
  (exec (applyTrustConfigLocked labRuntime labMoment revokingTrust
    [checksumProof "POST" "/v1/trust/revoke" "body"]) applied).2

/-- What the last start of this run leaves. -/
def labRestarted : Except Failure Unit × Daemon Bool Unit :=
  exec (loadAndApply labRuntime labMoment (.ok (labConfig emptyTrust false))) labRevoked

/-- The start succeeds, the log has the revocation, and the policy in force has not. -/
def dropsRevocation : Except Failure Unit × Daemon Bool Unit → Prop
  | (result, d) => result = .ok () ∧
      latestDomainTrust (labRuntime.world labMoment) "lab" d.store.memory =
        .ok (some revokingTrust) ∧
      d.desired.trust = emptyTrust

instance : DecidablePred dropsRevocation := fun (result, d) =>
  inferInstanceAs (Decidable (result = .ok () ∧
    latestDomainTrust (labRuntime.world labMoment) "lab" d.store.memory =
      .ok (some revokingTrust) ∧ d.desired.trust = emptyTrust))

theorem dropsRevocation_iff (outcome : Except Failure Unit × Daemon Bool Unit) :
    dropsRevocation outcome ↔ outcome.1 = .ok () ∧
      latestDomainTrust (labRuntime.world labMoment) "lab" outcome.2.store.memory =
        .ok (some revokingTrust) ∧
      outcome.2.desired.trust = emptyTrust :=
  Iff.rfl

theorem dropsRevocation_labRestarted :
    labRestarted.1 = .ok () ∧
      latestDomainTrust (labRuntime.world labMoment) "lab" labRestarted.2.store.memory =
        .ok (some revokingTrust) ∧
      labRestarted.2.desired.trust = emptyTrust := by
  apply (dropsRevocation_iff labRestarted).mp
  decide +kernel

theorem exec_labRestarted :
    exec (loadAndApply labRuntime labMoment (.ok (labConfig emptyTrust false))) labRevoked =
      (.ok (), labRestarted.2) :=
  eq_ok_of_fst dropsRevocation_labRestarted.1

/-- The equivalence, at the end of this run. -/
theorem restart_trust_iff_revoked :
    trustConfigsEqual labRuntime.crypto labRestarted.2.desired.trust revokingTrust = true ↔
      CarriesPolicy labRuntime labMoment (labConfig emptyTrust false) revokingTrust
        labRestarted.2.store.memory :=
  restart_trust_iff labRuntime exec_labRestarted dropsRevocation_labRestarted.2.1

/-- **A revocation that a restart drops.**  The small daemon starts, applies its
configuration, revokes a certificate and starts again. -/
theorem restart_drops_revocation :
    labRestarted.1 = .ok () ∧
      latestDomainTrust (labRuntime.world labMoment) "lab" labRestarted.2.store.memory =
        .ok (some revokingTrust) ∧
      trustConfigsEqual labRuntime.crypto labRestarted.2.desired.trust revokingTrust = false ∧
      revokedCertificateFingerprintsFromTrust labRestarted.2.desired.trust = [] := by
  obtain ⟨hok, hpolicy, htrust⟩ := dropsRevocation_labRestarted
  rw [htrust]
  exact ⟨hok, hpolicy, by decide +kernel, rfl⟩

end ConfigDaemon
