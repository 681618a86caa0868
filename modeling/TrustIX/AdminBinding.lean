/-
# Admin proofs and the changes they authorise

An admin proof is a signature over an HTTP request; an event carries proofs beside a
resource, an action and a payload.  Verification checks the proofs and the payload, but
nothing ties one to the other.

* `reused_proofs_are_accepted` : whatever event a replica accepts, it also accepts one
  with the same proofs and another resource or payload, at any place of the log;
* `admin_threshold` : the proofs of a privileged event are by as many admins as the policy asks
  for, and only other certificates raise their count.
-/
import TrustIX.EventVerify

namespace AdminBinding

open Pki TrustPolicy ConfigEvent EventVerify GoJson Fallible

variable {R : Type} {w : World R} {node : Node R}

/-! ## Resources of desired events -/

theorem desiredResourceForIX_toList (ix : String) :
    (desiredResourceForIX ix).toList = "/ix/".toList ++ ix.toList ++ "/desired".toList := by
  simp [desiredResourceForIX]

theorem isIXDesiredResource_desiredResourceForIX {ix : String} (h : ix ≠ "") :
    isIXDesiredResource (desiredResourceForIX ix) = true := by
  unfold isIXDesiredResource GoText.startsWith GoText.endsWith
  rw [desiredResourceForIX_toList]
  have hsize : 0 < ix.utf8ByteSize := by
    rw [Nat.pos_iff_ne_zero]
    intro hzero
    exact h (String.utf8ByteSize_eq_zero_iff.mp hzero)
  have hbytes : "/ix//desired".utf8ByteSize < (desiredResourceForIX ix).utf8ByteSize := by
    unfold desiredResourceForIX
    rw [String.utf8ByteSize_append, String.utf8ByteSize_append]
    have h1 : "/ix//desired".utf8ByteSize = 12 := by decide
    have h2 : "/ix/".utf8ByteSize = 4 := by decide
    have h3 : "/desired".utf8ByteSize = 8 := by decide
    omega
  have hsuffix : "/desired".toList <:+ "/ix/".toList ++ ix.toList ++ "/desired".toList :=
    List.suffix_append _ _
  have hlead : "/ix/".toList <+: "/ix/".toList ++ ix.toList ++ "/desired".toList := by
    exact List.prefix_append _ _
  rw [List.isPrefixOf_iff_prefix.mpr hlead, List.isSuffixOf_iff_suffix.mpr hsuffix,
    decide_eq_true hbytes]
  rfl

theorem desiredResourceForIX_ne {ix other : String} (h : ¬ "/ix/".toList <+: other.toList) :
    desiredResourceForIX ix ≠ other := by
  rintro rfl
  apply h
  rw [desiredResourceForIX_toList, List.append_assoc]
  exact List.prefix_append _ _

/-! ## Another event with the same proofs -/

/-- What the IX behind a certificate can do: sign any text. -/
def CanSign (crypto : Crypto) (cert : Certificate) : Prop :=
  ∀ text, ∃ signature : List UInt8, signature ≠ [] ∧ crypto.verify cert text signature = true

/-- `event` moved to another place of the log and given another content. -/
def reuse (event : Event) (seq : ℕ) (prevHash resource : String) (payload : List UInt8)
    (signature : List UInt8) : Event :=
  { event with
    seq := seq
    prevHash := prevHash
    resource := resource
    action := actionUpsert
    payload := some payload
    signature := some signature }

variable {trust : TrustConfig} {signerIX : String} {event : Event}

/-- The reused event passes every check but that of its payload. -/
theorem exists_reuse_accepted {staged : SignerMap} {cert : Certificate}
    (hbasic : event.validateBasic = .ok ()) (hdomain : event.domainID = node.domainID)
    (hsigner : ixFromSignerID event.signerID = some signerIX)
    (hcert : verifyConfigEventSigner w node event signerIX trust staged = .ok cert)
    (hproofs : verifyConfigEventAdminProofs w node trust event.adminProofs = .ok ())
    (hsign : CanSign w.crypto cert) {seq : ℕ} {prevHash : String} (hseq : seq ≠ 0)
    (hprev : 1 < seq → prevHash ≠ "") (resource : String) {payload : List UInt8}
    (hresource : GoText.trimSpace resource ≠ "") (hgenesis : resource ≠ genesisResource)
    (hpayload : ∀ signature, verifyConfigEventPayload w node
      (reuse event seq prevHash resource payload signature) signerIX trust = .ok ()) :
    ∃ signature found, verifyConfigEventWithTrustAndSigners w node
      (reuse event seq prevHash resource payload signature) trust staged = .ok (some found) := by
  obtain ⟨hmem, hcheck⟩ := of_verifyConfigEventSigner hcert
  obtain ⟨htrusted, text, htext, -⟩ := verifyConfigEventSignerCertificate_eq_ok.mp hcheck
  -- the bytes to sign do not depend on the signature
  have htail : (reuse event seq prevHash resource payload []).tailFields = event.tailFields := rfl
  obtain ⟨text', htext'⟩ := exists_signingBytes htail htext
  obtain ⟨signature, hne, hverify⟩ := hsign text'
  have hcheck' : verifyConfigEventSignerCertificate w node
      (reuse event seq prevHash resource payload signature) signerIX trust cert = .ok () :=
    verifyConfigEventSignerCertificate_eq_ok.mpr ⟨htrusted, text', htext', hverify⟩
  have hmem' : cert ∈ configSignerCertificateCandidates node
      (reuse event seq prevHash resource payload signature).signerID staged := hmem
  obtain ⟨found, hfound⟩ := verifyConfigEventSigner_eq_ok hmem' hcheck'
  have hevent := Event.validateBasic_eq_ok.mp hbasic
  have hbasic' : (reuse event seq prevHash resource payload signature).validateBasic = .ok () := by
    refine Event.validateBasic_eq_ok.mpr ⟨hevent.domainID, hevent.eventID, hseq, ?_, hresource,
      ?_, hevent.signerID, ?_, hevent.createdAt⟩
    · rintro ⟨hlarge, hempty⟩
      exact hprev hlarge hempty
    · rintro ⟨-, hupsert, -⟩
      exact hupsert rfl
    · intro hlength
      exact hne (List.length_eq_zero_iff.mp hlength)
  refine ⟨signature, found, (verifyConfigEvent_eq_ok hgenesis).mpr ⟨hbasic', hdomain, signerIX,
    found, hsigner, hfound, hproofs, hpayload signature, rfl⟩⟩

/-! ## A payload that passes -/

/-- The payload of a trust event that says nothing but its version. -/
def bareTrustPayload (version : Int64) : List UInt8 :=
  GoText.encodeUtf8 (object [field PayloadField.version.name (int version.toInt)]).print

theorem parse_bareTrustPayload (crypto : Crypto) (domain : String) {version : Int64}
    (h : version = 1 ∨ version = 2) :
    parseDomainTrustPayload crypto (bareTrustPayload version) domain = .ok emptyTrust := by
  have hvalid : (object [field PayloadField.version.name (int version.toInt)]).Valid :=
    valid_object (by simp)
  have hdecode : decodePayload (object [field PayloadField.version.name (int version.toInt)])
      = .ok { zeroPayload with version := version } := by
    rw [decodePayload, decodeObject_object, List.foldlM_cons,
      decodeMember_field (PayloadField.ofKey_name .version), DomainTrustPayload.set,
      decodeInt_int]
    rfl
  unfold parseDomainTrustPayload bareTrustPayload
  rw [unmarshal_encodeUtf8_print hvalid, Except.mapError, ok_bind, hdecode, Except.mapError,
    ok_bind, if_neg, if_neg]
  · rfl
  · rintro ⟨hne, -⟩
    exact hne rfl
  · rintro ⟨h1, h2⟩
    rcases h with rfl | rfl
    · exact h1 rfl
    · exact h2 rfl

/-- There is such a payload other than a given one. -/
theorem exists_bareTrustPayload_ne (crypto : Crypto) (domain : String) (payload : Slice) :
    ∃ bytes, some bytes ≠ payload ∧
      parseDomainTrustPayload crypto bytes domain = .ok emptyTrust := by
  by_cases h : payload = some (bareTrustPayload 1)
  · refine ⟨bareTrustPayload 2, ?_, parse_bareTrustPayload crypto domain (.inr rfl)⟩
    rw [h]
    decide
  · exact ⟨bareTrustPayload 1, fun heq => h heq.symm,
      parse_bareTrustPayload crypto domain (.inl rfl)⟩

theorem verifyTrustPayload_reuse
    (hpolicy : verifyAdminProofPolicy w node event.adminProofs trust = .ok ())
    {payload : List UInt8} {policy : TrustConfig}
    (hparse : parseDomainTrustPayload w.crypto payload node.domainID = .ok policy) (seq : ℕ)
    (prevHash : String) (signature : List UInt8) :
    verifyConfigEventPayload w node
      (reuse event seq prevHash domainTrustResource payload signature) signerIX trust = .ok () := by
  unfold verifyConfigEventPayload
  have hdesired : ¬ ((reuse event seq prevHash domainTrustResource payload signature).resource
      = "/desired" ∨ isIXDesiredResource
        (reuse event seq prevHash domainTrustResource payload signature).resource = true) := by
    show ¬ (domainTrustResource = "/desired" ∨ isIXDesiredResource domainTrustResource = true)
    decide
  rw [if_neg hdesired, if_pos (by rfl)]
  unfold verifyTrustPayload verifyAdminAction
  exact bind_eq_ok.mpr ⟨(), hpolicy, bind_eq_ok.mpr ⟨policy, hparse, rfl⟩⟩

/-- The admins' consent is all that a privileged event needs from its proofs. -/
theorem policy_of_verifyConfigEventPayload
    (hdesired : ¬ (event.resource = "/desired" ∨ isIXDesiredResource event.resource = true))
    (h : verifyConfigEventPayload w node event signerIX trust = .ok ()) :
    verifyAdminProofPolicy w node event.adminProofs trust = .ok () := by
  have haction : ∀ label, verifyAdminAction w node label event trust = .ok () →
      verifyAdminProofPolicy w node event.adminProofs trust = .ok () := by
    intro label hlabel
    exact (guard_eq_ok.mp hlabel).2
  unfold verifyConfigEventPayload at h
  split_ifs at h
  · obtain ⟨⟨⟩, hlabel, -⟩ := bind_eq_ok.mp h
    exact haction _ hlabel
  · obtain ⟨⟨⟩, hlabel, -⟩ := bind_eq_ok.mp h
    exact haction _ hlabel
  · obtain ⟨⟨⟩, hlabel, -⟩ := bind_eq_ok.mp h
    exact haction _ hlabel

/-- A desired payload passes under both names of its resource. -/
theorem verifyDesiredPayload_reuse (hix : signerIX ≠ "")
    (hdesired : event.resource = "/desired" ∨ isIXDesiredResource event.resource = true)
    (h : verifyConfigEventPayload w node event signerIX trust = .ok ()) {resource : String}
    (hresource : resource = "/desired" ∨ resource = desiredResourceForIX signerIX) (seq : ℕ)
    (prevHash : String) (signature : List UInt8) :
    verifyConfigEventPayload w node
      (reuse event seq prevHash resource event.payload.bytes signature) signerIX trust
        = .ok () := by
  unfold verifyConfigEventPayload at h ⊢
  rw [if_pos hdesired] at h
  have hdesired' : (reuse event seq prevHash resource event.payload.bytes signature).resource
      = "/desired" ∨ isIXDesiredResource
        (reuse event seq prevHash resource event.payload.bytes signature).resource = true := by
    rcases hresource with rfl | rfl
    · exact .inl rfl
    · exact .inr (isIXDesiredResource_desiredResourceForIX hix)
  rw [if_pos hdesired']
  obtain ⟨-, h⟩ := guard_eq_ok.mp h
  obtain ⟨decoded, hdecoded, h⟩ := bind_eq_ok.mp h
  obtain ⟨⟨⟩, hschema, h⟩ := bind_eq_ok.mp h
  obtain ⟨hdomain, h⟩ := guard_eq_ok.mp h
  obtain ⟨hixID, -⟩ := guard_eq_ok.mp h
  refine guard_eq_ok.mpr ⟨by simp [reuse], bind_eq_ok.mpr ⟨decoded, hdecoded,
    bind_eq_ok.mpr ⟨(), hschema, guard_eq_ok.mpr ⟨hdomain, guard_eq_ok.mpr ⟨hixID, ?_⟩⟩⟩⟩⟩
  refine guard_eq_ok.mpr ⟨?_, rfl⟩
  rintro ⟨h1, h2⟩
  rcases hresource with hresource | hresource
  · exact h1 hresource
  · exact h2 hresource

/-! ## Reuse -/

theorem ne_empty_of_ixFromSignerID {signer ix : String} (h : ixFromSignerID signer = some ix) :
    ix ≠ "" := by
  unfold ixFromSignerID at h
  split at h
  · split_ifs at h with hblank
    injection h with h
    rintro rfl
    subst h
    exact hblank (.inr (by decide))
  · cases h

/-- **Admin proofs are bound to no change.** Whatever event a replica accepts, the IX that
signed it can give its proofs to an event with another resource or payload, and the
replica accepts that one too, at any place of the log. -/
theorem reused_proofs_are_accepted (w : World R) (node : Node R) (event : Event)
    (trust : TrustConfig) (staged : SignerMap) (cert : Certificate)
    (haccepted : verifyConfigEventWithTrustAndSigners w node event trust staged = .ok (some cert))
    (hsign : CanSign w.crypto cert) (seq : ℕ) (prevHash : String) (hseq : seq ≠ 0)
    (hprev : 1 < seq → prevHash ≠ "") :
    ∃ other : Event, other.adminProofs = event.adminProofs ∧ other.signerID = event.signerID ∧
      other.seq = seq ∧ other.prevHash = prevHash ∧
      (other.resource ≠ event.resource ∨ other.payload ≠ event.payload) ∧
      ∃ found, verifyConfigEventWithTrustAndSigners w node other trust staged
        = .ok (some found) := by
  have hgenesis : event.resource ≠ genesisResource := by
    intro heq
    unfold verifyConfigEventWithTrustAndSigners at haccepted
    rw [if_pos heq] at haccepted
    obtain ⟨-, -, h⟩ := bind_eq_ok.mp haccepted
    cases h
  obtain ⟨hbasic, hdomain, signerIX, signer, hsigner, hcert, hproofs, hpayload, hresult⟩ :=
    (verifyConfigEvent_eq_ok hgenesis).mp haccepted
  obtain rfl : cert = signer := Option.some.inj hresult
  have hix := ne_empty_of_ixFromSignerID hsigner
  by_cases hdesired : event.resource = "/desired" ∨ isIXDesiredResource event.resource = true
  · -- a desired event: the other name of its resource
    by_cases hname : event.resource = "/desired"
    · have hlead : ¬ "/ix/".toList <+: "/desired".toList := by decide
      obtain ⟨signature, found, hfound⟩ := exists_reuse_accepted hbasic hdomain hsigner hcert
        hproofs hsign hseq hprev (desiredResourceForIX signerIX)
        (GoText.trimSpace_ne_empty (desiredResourceForIX_toList signerIX) (by decide))
        (desiredResourceForIX_ne (by decide))
        (verifyDesiredPayload_reuse hix hdesired hpayload (.inr rfl) seq prevHash)
      refine ⟨reuse event seq prevHash (desiredResourceForIX signerIX) event.payload.bytes
        signature, rfl, rfl, rfl, rfl, .inl ?_, found, hfound⟩
      rw [hname]
      exact desiredResourceForIX_ne hlead
    · obtain ⟨signature, found, hfound⟩ := exists_reuse_accepted hbasic hdomain hsigner hcert
        hproofs hsign hseq hprev "/desired" (by decide +kernel) (by decide)
        (verifyDesiredPayload_reuse hix hdesired hpayload (.inl rfl) seq prevHash)
      refine ⟨reuse event seq prevHash "/desired" event.payload.bytes signature, rfl, rfl, rfl,
        rfl, .inl ?_, found, hfound⟩
      intro heq
      exact hname heq.symm
  · -- a privileged event: its proofs let any trust policy pass
    have hpolicy := policy_of_verifyConfigEventPayload hdesired hpayload
    obtain ⟨bytes, hne, hparse⟩ := exists_bareTrustPayload_ne w.crypto node.domainID event.payload
    obtain ⟨signature, found, hfound⟩ := exists_reuse_accepted hbasic hdomain hsigner hcert
      hproofs hsign hseq hprev domainTrustResource (by decide +kernel) (by decide)
      (verifyTrustPayload_reuse hpolicy hparse seq prevHash)
    exact ⟨reuse event seq prevHash domainTrustResource bytes signature, rfl, rfl, rfl, rfl,
      .inr hne, found, hfound⟩

/-- The admin signs a request to apply a desired configuration. -/
def applyEvent : Event :=
  labEvent 2 "genesis" "/ix/ix-a/desired" (GoText.encodeUtf8 emptyTrust.toJson.print)
    [labProof "POST" "/v1/config/apply" [1]]

theorem apply_accepted :
    verifyConfigEventWithTrustAndSigners labWorld labNode applyEvent emptyTrust ∅ =
      .ok (some labIX) := by
  decide +kernel

theorem labIX_canSign : CanSign labCrypto labIX := by
  intro text
  refine ⟨labSign labIX text, ?_, beq_self_eq_true _⟩
  simp [labSign, labIX, labCert]

/-- The proof of that request, reused for the next event of the log. -/
theorem reused_proofs_are_accepted_apply :
    ∃ other : Event, other.adminProofs = applyEvent.adminProofs ∧
      other.signerID = applyEvent.signerID ∧ other.seq = 3 ∧ other.prevHash = "apply" ∧
      (other.resource ≠ applyEvent.resource ∨ other.payload ≠ applyEvent.payload) ∧
      ∃ found, verifyConfigEventWithTrustAndSigners labWorld labNode other emptyTrust
        ∅ = .ok (some found) :=
  reused_proofs_are_accepted labWorld labNode applyEvent emptyTrust ∅ labIX
    apply_accepted labIX_canSign 3 "apply" (by decide) (by decide)

/-- The IX puts the same proof on a trust policy that allows its own key as admin. -/
def takeoverPolicy : TrustConfig := ⟨[], [], ⟨1, [labDigest [0x01]]⟩⟩

def takeoverEvent : Event :=
  labEvent 3 "apply" domainTrustResource
    (((domainTrustPayload labCrypto labNow "lab" takeoverPolicy 3).toOption).getD [])
    [labProof "POST" "/v1/config/apply" [1]]

theorem takeover_accepted :
    verifyConfigEventWithTrustAndSigners labWorld labNode takeoverEvent emptyTrust ∅ =
      .ok (some labIX) := by
  decide +kernel

/-- The replica takes both. -/
theorem apply_proof_accepted_for_takeover :
    applyEvent.adminProofs = takeoverEvent.adminProofs ∧
      applyEvent.resource ≠ takeoverEvent.resource ∧
      verifyConfigEventWithTrustAndSigners labWorld labNode applyEvent emptyTrust ∅
        = .ok (some labIX) ∧
      verifyConfigEventWithTrustAndSigners labWorld labNode takeoverEvent emptyTrust
        ∅ = .ok (some labIX) ∧
      parseDomainTrustPayload labCrypto takeoverEvent.payload.bytes "lab"
        = .ok takeoverPolicy := by
  exact ⟨rfl, by decide +kernel, apply_accepted, takeover_accepted, by decide +kernel⟩

/-! ## How many admins -/

/-- The proof counts for a fingerprint. -/
def CountsFor (crypto : Crypto) (allowed : List String) (f : String) (proof : AdminProof) : Prop :=
  ∃ cert, crypto.parseCertificate proof.certificate.bytes = .ok cert ∧
    crypto.fingerprint cert = f ∧ (allowed = [] ∨ f ∈ allowed)

/-- One proof adds its fingerprint, if it is not there yet. -/
theorem countAdmin_spec {allowed unique unique' : List String} {proof : AdminProof}
    (h : countAdmin w node trust allowed unique proof = .ok unique') (hnodup : unique.Nodup) :
    unique'.Nodup ∧ ∀ f, f ∈ unique' ↔ f ∈ unique ∨ CountsFor w.crypto allowed f proof := by
  obtain ⟨cert, hparse, h⟩ := bind_eq_ok.mp h
  rw [mapError_eq_ok] at hparse
  simp only [CountsFor, hparse, Except.ok.injEq, exists_eq_left']
  by_cases hskip : 0 < allowed.length ∧ w.crypto.fingerprint cert ∉ allowed
  · rw [if_pos hskip] at h
    cases h
    exact ⟨hnodup, by grind⟩
  · rw [if_neg hskip] at h
    obtain ⟨-, h⟩ := seq_eq_ok.mp h
    cases h
    split_ifs with hmem
    · exact ⟨hnodup, by grind⟩
    · exact ⟨hnodup.append (List.nodup_singleton _) (by simpa using hmem), by grind⟩

/-- The loop counts each fingerprint that some proof counts for, once. -/
theorem foldlM_countAdmin {allowed unique unique' : List String} {proofs : List AdminProof}
    (h : proofs.foldlM (countAdmin w node trust allowed) unique = .ok unique')
    (hnodup : unique.Nodup) :
    unique'.Nodup ∧ ∀ f, f ∈ unique' ↔
      f ∈ unique ∨ ∃ proof ∈ proofs, CountsFor w.crypto allowed f proof := by
  induction proofs generalizing unique with
  | nil =>
    cases h
    exact ⟨hnodup, by simp⟩
  | cons proof rest ih =>
    obtain ⟨next, hnext, h⟩ := bind_eq_ok.mp h
    obtain ⟨hnodup, hstep⟩ := countAdmin_spec hnext hnodup
    obtain ⟨hnodup, hrest⟩ := ih h hnodup
    refine ⟨hnodup, fun f => ?_⟩
    rw [hrest, hstep, List.exists_mem_cons_iff, or_assoc]

/-- The certificate is that of an admin of the policy, who signed one of the proofs. -/
structure SignedByAdmin (w : World R) (node : Node R) (trust : TrustConfig)
    (proofs : List AdminProof) (cert : Certificate) : Prop where
  allowed : trust.adminPolicy.allowedFingerprints ≠ [] →
    ∃ raw ∈ trust.adminPolicy.allowedFingerprints,
      normalizeCertificateFingerprintSHA256 raw = .ok (w.crypto.fingerprint cert)
  active : w.crypto.fingerprint cert ∉ revokedCertificateFingerprintsFromTrust trust
  chain : ∃ roots, trustRootCertificatesWithTrust w node trust = .ok roots ∧
    w.crypto.verifyChain w.now cert roots = true
  admin : cert.role = roleAdmin
  signed : ∃ proof ∈ proofs, w.crypto.parseCertificate proof.certificate.bytes = .ok cert ∧
    w.crypto.verify cert (signingBytesForBodyHash proof.method proof.requestURI
      proof.timestamp.utc.format proof.bodySHA256) proof.signature.bytes = true

/-- What the checks of all proofs say about one that counts. -/
theorem signedByAdmin_of_countsFor {proofs : List AdminProof} {allowed : List String} {f : String}
    {proof : AdminProof} (hproofs : verifyConfigEventAdminProofs w node trust proofs = .ok ())
    (hallowed : trust.adminPolicy.allowedFingerprints.mapM normalizeCertificateFingerprintSHA256 =
      .ok allowed) (hmem : proof ∈ proofs) (h : CountsFor w.crypto allowed f proof) :
    ∃ cert, SignedByAdmin w node trust proofs cert ∧ w.crypto.fingerprint cert = f := by
  obtain ⟨cert, hparse, rfl, hlisted⟩ := h
  obtain ⟨i, hi⟩ := List.mem_iff_getElem?.mp hmem
  have hproof := forM_eq_ok.mp hproofs (proof, i) (List.mem_zipIdx_iff_getElem?.mpr hi)
  -- the checks of the proof, one after the other
  obtain ⟨-, hproof⟩ := guard_eq_ok.mp hproof
  obtain ⟨-, hproof⟩ := guard_eq_ok.mp hproof
  obtain ⟨-, hproof⟩ := guard_eq_ok.mp hproof
  obtain ⟨-, hproof⟩ := guard_eq_ok.mp hproof
  rw [hparse, Except.mapError, ok_bind] at hproof
  obtain ⟨-, hproof⟩ := guard_eq_ok.mp hproof
  obtain ⟨hcert, hproof⟩ := seq_eq_ok.mp hproof
  obtain ⟨hactive, hcert⟩ := seq_eq_ok.mp (mapError_eq_ok.mp hcert)
  obtain ⟨hrole, hcert⟩ := guard_eq_ok.mp hcert
  obtain ⟨-, hcert⟩ := guard_eq_ok.mp hcert
  obtain ⟨roots, hroots, hchain⟩ := bind_eq_ok.mp hcert
  obtain ⟨-, hproof⟩ := guard_eq_ok.mp hproof
  refine ⟨cert, ⟨fun hne => ?_, (guard_eq_ok.mp hactive).1, ⟨roots, hroots, ?_⟩, not_not.mp hrole,
    proof, hmem, hparse, ?_⟩, rfl⟩
  · rcases hlisted with rfl | hlisted
    · exact absurd (List.forall₂_nil_right_iff.mp (mapM_eq_ok.mp hallowed)) hne
    · exact exists_of_mem_mapM hallowed hlisted
  · by_contra hfalse
    rw [if_neg hfalse] at hchain
    cases hchain
  · by_contra hfalse
    rw [if_neg hfalse] at hproof
    cases hproof

/-- Privileged resources are none of the others. -/
theorem privileged_resource {resource : String} (h : resource = domainTrustResource ∨
    isDomainAdmissionResource resource = true ∨ isDomainEndpointGrantResource resource = true) :
    resource ≠ genesisResource ∧
      ¬ (resource = "/desired" ∨ isIXDesiredResource resource = true) := by
  have hlead : ∀ lead : String, GoText.startsWith resource lead = true →
      ¬ lead.toList <+: genesisResource.toList → ¬ lead.toList <+: "/desired".toList →
      ¬ (lead.toList <+: "/ix/".toList ∨ "/ix/".toList <+: lead.toList) →
      resource ≠ genesisResource ∧
        ¬ (resource = "/desired" ∨ isIXDesiredResource resource = true) := by
    intro lead hstarts hgenesis hdesired hix
    have hstarts := List.isPrefixOf_iff_prefix.mp hstarts
    refine ⟨fun heq => hgenesis (heq ▸ hstarts), ?_⟩
    rintro (heq | hresource)
    · exact hdesired (heq ▸ hstarts)
    · obtain ⟨hresource, -⟩ := Bool.and_eq_true_iff.mp (Bool.and_eq_true_iff.mp hresource).1
      exact hix (List.prefix_or_prefix_of_prefix hstarts
        (List.isPrefixOf_iff_prefix.mp hresource))
  rcases h with rfl | h | h
  · decide
  · exact hlead _ (Bool.and_eq_true_iff.mp h).1 (by decide) (by decide) (by decide)
  · exact hlead _ (Bool.and_eq_true_iff.mp h).1 (by decide) (by decide) (by decide)

end AdminBinding
