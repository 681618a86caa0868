/-
# Config events

The events of the signed configuration log (`internal/configlog/event.go`): their
basic validation, their JSON form, and the bytes that are signed and hashed.

* `decodeEvent_toJson` : an event read back from its JSON has its times cut to whole
  minutes of zone offset, and is otherwise the same;
* `agree_of_signingJson_eq` : the signed bytes determine every field but the
  signature, the times as their JSON text.
-/
import TrustIX.GoJson
import TrustIX.GoText

namespace ConfigEvent

open JsonText GoJson Fallible

/-! ## Events -/

/-- An admin's signature over the request that led to an event. -/
structure AdminProof where
  signerID : String
  certificate : Slice
  method : String
  requestURI : String
  bodySHA256 : String
  timestamp : GoTime.Time
  signature : Slice
  deriving DecidableEq

/-- `Action` is an open string type; `validateBasic` admits three values. -/
def actionCreate : String := "create"
def actionUpsert : String := "upsert"
def actionDelete : String := "delete"

structure Event where
  domainID : String
  eventID : String
  seq : ℕ
  prevHash : String
  resource : String
  action : String
  payload : Slice
  signerID : String
  signature : Slice
  createdAt : GoTime.Time
  effectiveAt : GoTime.Time
  adminProofs : List AdminProof
  deriving DecidableEq

/-- Position and hash of the last event of a log. -/
structure Head where
  seq : ℕ
  hash : String
  deriving DecidableEq, Repr

/-- `validateNonEmpty` of the identifier types. -/
def validateNonEmpty (name value : String) : Except String Unit :=
  if GoText.trimSpace value = "" then .error (name ++ " is required") else .ok ()

def Event.validateBasic (event : Event) : Except String Unit := do
  validateNonEmpty "domain id" event.domainID
  validateNonEmpty "event id" event.eventID
  if event.seq = 0 then .error "event seq is required"
  else if event.seq > 1 ∧ event.prevHash = "" then
    .error ("event prev_hash is required for seq " ++ toString event.seq)
  else do
    validateNonEmpty "resource path" event.resource
    if event.action ≠ actionCreate ∧ event.action ≠ actionUpsert ∧ event.action ≠ actionDelete then
      .error ("unsupported config action " ++ event.action.quote)
    else do
      validateNonEmpty "signer id" event.signerID
      if event.signature.bytes.length = 0 then .error "event signature is required"
      else if event.createdAt.isZero then .error "event created_at is required"
      else .ok ()

/-- The checks of `validateBasic`. -/
structure Event.Basic (event : Event) : Prop where
  domainID : GoText.trimSpace event.domainID ≠ ""
  eventID : GoText.trimSpace event.eventID ≠ ""
  seq : event.seq ≠ 0
  prevHash : ¬ (event.seq > 1 ∧ event.prevHash = "")
  resource : GoText.trimSpace event.resource ≠ ""
  action : ¬ (event.action ≠ actionCreate ∧ event.action ≠ actionUpsert ∧
    event.action ≠ actionDelete)
  signerID : GoText.trimSpace event.signerID ≠ ""
  signature : event.signature.bytes.length ≠ 0
  createdAt : event.createdAt.isZero = false

theorem validateNonEmpty_eq_ok {name value : String} :
    validateNonEmpty name value = .ok () ↔ GoText.trimSpace value ≠ "" := by
  unfold validateNonEmpty
  split_ifs with h
  · simp [h]
  · simp [h]

variable {event : Event}

theorem Event.validateBasic_eq_ok : event.validateBasic = .ok () ↔ event.Basic := by
  unfold Event.validateBasic
  constructor
  · intro h
    obtain ⟨⟨⟩, hdomain, h⟩ := bind_eq_ok.mp h
    obtain ⟨⟨⟩, hevent, h⟩ := bind_eq_ok.mp h
    obtain ⟨hseq, h⟩ := guard_eq_ok.mp h
    obtain ⟨hprev, h⟩ := guard_eq_ok.mp h
    obtain ⟨⟨⟩, hresource, h⟩ := bind_eq_ok.mp h
    obtain ⟨haction, h⟩ := guard_eq_ok.mp h
    obtain ⟨⟨⟩, hsigner, h⟩ := bind_eq_ok.mp h
    obtain ⟨hsignature, h⟩ := guard_eq_ok.mp h
    obtain ⟨hcreated, -⟩ := guard_eq_ok.mp h
    rw [validateNonEmpty_eq_ok] at hdomain hevent hresource hsigner
    exact ⟨hdomain, hevent, hseq, hprev, hresource, haction, hsigner, hsignature,
      Bool.eq_false_iff.mpr hcreated⟩
  · intro h
    rw [validateNonEmpty_eq_ok.mpr h.domainID, ok_bind, validateNonEmpty_eq_ok.mpr h.eventID,
      ok_bind, if_neg h.seq, if_neg h.prevHash, validateNonEmpty_eq_ok.mpr h.resource, ok_bind,
      if_neg h.action, validateNonEmpty_eq_ok.mpr h.signerID, ok_bind, if_neg h.signature,
      if_neg (by simp [h.createdAt])]

/-! ## JSON -/

/-- The fields of a proof, with their JSON names. -/
inductive ProofField where
  | signerID
  | certificate
  | method
  | requestURI
  | bodySHA256
  | timestamp
  | signature
  deriving DecidableEq

def ProofField.name : ProofField → String
  | .signerID => "signer_id"
  | .certificate => "certificate"
  | .method => "method"
  | .requestURI => "request_uri"
  | .bodySHA256 => "body_sha256"
  | .timestamp => "timestamp"
  | .signature => "signature"

def ProofField.ofKey (key : List Char) : Option ProofField :=
  [ProofField.signerID, .certificate, .method, .requestURI, .bodySHA256, .timestamp,
    .signature].find? (fun f => keyMatches f.name key)

/-- The fields of an event, with their JSON names. -/
inductive EventField where
  | domainID
  | eventID
  | seq
  | prevHash
  | resource
  | action
  | payload
  | signerID
  | signature
  | createdAt
  | effectiveAt
  | adminProofs
  deriving DecidableEq

def EventField.name : EventField → String
  | .domainID => "domain_id"
  | .eventID => "event_id"
  | .seq => "seq"
  | .prevHash => "prev_hash"
  | .resource => "resource"
  | .action => "action"
  | .payload => "payload"
  | .signerID => "signer_id"
  | .signature => "signature"
  | .createdAt => "created_at"
  | .effectiveAt => "effective_at"
  | .adminProofs => "admin_proofs"

def EventField.ofKey (key : List Char) : Option EventField :=
  [EventField.domainID, .eventID, .seq, .prevHash, .resource, .action, .payload, .signerID,
    .signature, .createdAt, .effectiveAt, .adminProofs].find? (fun f => keyMatches f.name key)

def AdminProof.toJson (proof : AdminProof) : Except String Json := do
  let timestamp ← time proof.timestamp
  .ok (object
    [field ProofField.signerID.name (string proof.signerID),
      field ProofField.certificate.name (slice proof.certificate),
      field ProofField.method.name (string proof.method),
      field ProofField.requestURI.name (string proof.requestURI),
      field ProofField.bodySHA256.name (string proof.bodySHA256),
      field ProofField.timestamp.name timestamp,
      field ProofField.signature.name (slice proof.signature)])

/-- The members before the signature. -/
def Event.headFields (event : Event) : List (List Char × Json) :=
  [field EventField.domainID.name (string event.domainID),
    field EventField.eventID.name (string event.eventID),
    field EventField.seq.name (nat event.seq),
    field EventField.prevHash.name (string event.prevHash),
    field EventField.resource.name (string event.resource),
    field EventField.action.name (string event.action),
    field EventField.payload.name (slice event.payload),
    field EventField.signerID.name (string event.signerID)]

/-- `admin_proofs,omitempty`. -/
def proofFields : List Json → List (List Char × Json)
  | [] => []
  | proofs => [field EventField.adminProofs.name (array proofs)]

/-- The members after the signature. -/
def Event.tailFields (event : Event) : Except String (List (List Char × Json)) := do
  let createdAt ← time event.createdAt
  let effectiveAt ← time event.effectiveAt
  let proofs ← event.adminProofs.mapM AdminProof.toJson
  .ok ([field EventField.createdAt.name createdAt,
    field EventField.effectiveAt.name effectiveAt] ++ proofFields proofs)

def Event.toJson (event : Event) : Except String Json := do
  let tail ← event.tailFields
  .ok (object (event.headFields ++ [field EventField.signature.name (slice event.signature)] ++
    tail))

/-- `json.Marshal(event)`. -/
def Event.marshal (event : Event) : Except String (List Char) := event.toJson.map Json.print

def Event.signingJson (event : Event) : Except String Json := do
  let tail ← event.tailFields
  .ok (object (event.headFields ++ tail))

def Event.signingBytes (event : Event) : Except String (List Char) :=
  event.signingJson.map Json.print

/-- `Hash`, where `sha256Hex` is the hexadecimal SHA-256 digest of a text's UTF-8 bytes. -/
def Event.hash (sha256Hex : List Char → String) (event : Event) : Except String String :=
  event.signingBytes.map sha256Hex

/-! ## Decoding -/

def AdminProof.set (f : ProofField) (v : Json) (proof : AdminProof) :
    Except String AdminProof :=
  match f with
  | .signerID => (decodeString proof.signerID v).map fun x => { proof with signerID := x }
  | .certificate => (decodeSlice v).map fun x => { proof with certificate := x }
  | .method => (decodeString proof.method v).map fun x => { proof with method := x }
  | .requestURI => (decodeString proof.requestURI v).map fun x => { proof with requestURI := x }
  | .bodySHA256 => (decodeString proof.bodySHA256 v).map fun x => { proof with bodySHA256 := x }
  | .timestamp => (decodeTime proof.timestamp v).map fun x => { proof with timestamp := x }
  | .signature => (decodeSlice v).map fun x => { proof with signature := x }

def zeroProof : AdminProof := ⟨"", none, "", "", "", GoTime.zeroTime, none⟩

def decodeProof : Json → Except String AdminProof :=
  decodeObject ProofField.ofKey AdminProof.set zeroProof

def decodeProofs : Json → Except String (List AdminProof)
  | .null => .ok []
  | .arr items => items.toList.mapM decodeProof
  | _ => .error "cannot unmarshal into []AdminProof"

def Event.set (f : EventField) (v : Json) (event : Event) : Except String Event :=
  match f with
  | .domainID => (decodeString event.domainID v).map fun x => { event with domainID := x }
  | .eventID => (decodeString event.eventID v).map fun x => { event with eventID := x }
  | .seq => (decodeNat event.seq v).map fun x => { event with seq := x }
  | .prevHash => (decodeString event.prevHash v).map fun x => { event with prevHash := x }
  | .resource => (decodeString event.resource v).map fun x => { event with resource := x }
  | .action => (decodeString event.action v).map fun x => { event with action := x }
  | .payload => (decodeSlice v).map fun x => { event with payload := x }
  | .signerID => (decodeString event.signerID v).map fun x => { event with signerID := x }
  | .signature => (decodeSlice v).map fun x => { event with signature := x }
  | .createdAt => (decodeTime event.createdAt v).map fun x => { event with createdAt := x }
  | .effectiveAt => (decodeTime event.effectiveAt v).map fun x => { event with effectiveAt := x }
  | .adminProofs => (decodeProofs v).map fun x => { event with adminProofs := x }

def zeroEvent : Event :=
  ⟨"", "", 0, "", "", "", none, "", none, GoTime.zeroTime, GoTime.zeroTime, []⟩

def decodeEvent : Json → Except String Event :=
  decodeObject EventField.ofKey Event.set zeroEvent

/-! ## Reading an event back -/

/-- What the JSON text keeps of a proof. -/
def AdminProof.reload (proof : AdminProof) : AdminProof :=
  { proof with timestamp := proof.timestamp.truncate }

/-- What the JSON text keeps of an event. -/
def Event.reload (event : Event) : Event :=
  { event with
    createdAt := event.createdAt.truncate
    effectiveAt := event.effectiveAt.truncate
    adminProofs := event.adminProofs.map AdminProof.reload }

theorem ProofField.ofKey_name (f : ProofField) : ProofField.ofKey f.name.toList = some f := by
  cases f <;> decide

theorem EventField.ofKey_name (f : EventField) : EventField.ofKey f.name.toList = some f := by
  cases f <;> decide

@[simp] theorem ProofField.validToken_name (f : ProofField) : ValidToken f.name.toList := by
  cases f <;> exact GoJson.validToken_name (by decide)

@[simp] theorem EventField.validToken_name (f : EventField) : ValidToken f.name.toList := by
  cases f <;> exact GoJson.validToken_name (by decide)

variable {v : Json} {proof : AdminProof}

theorem decodeProof_toJson (h : proof.toJson = .ok v) : decodeProof v = .ok proof.reload := by
  obtain ⟨timestamp, htime, hv⟩ := bind_eq_ok.mp h
  rw [← Except.ok.inj hv, decodeProof, decodeObject_object]
  simp only [List.foldlM_cons, List.foldlM_nil, decodeMember_field (ProofField.ofKey_name _),
    AdminProof.set, decodeString_string, decodeSlice_slice, decodeTime_time htime, Except.map,
    ok_bind]
  rfl

theorem mapM_decodeProof {proofs : List AdminProof} {values : List Json}
    (h : proofs.mapM AdminProof.toJson = .ok values) :
    values.mapM decodeProof = .ok (proofs.map AdminProof.reload) := by
  rw [mapM_eq_ok] at h ⊢
  rw [List.forall₂_map_right_iff]
  exact (h.imp fun _ _ hp => decodeProof_toJson hp).flip

theorem Event.tailFields_eq_ok {tail : List (List Char × Json)} :
    event.tailFields = .ok tail ↔ ∃ createdAt effectiveAt proofs,
      time event.createdAt = .ok createdAt ∧ time event.effectiveAt = .ok effectiveAt ∧
      event.adminProofs.mapM AdminProof.toJson = .ok proofs ∧
      [field EventField.createdAt.name createdAt,
        field EventField.effectiveAt.name effectiveAt] ++ proofFields proofs = tail := by
  unfold Event.tailFields
  simp only [bind_eq_ok, Except.ok.injEq]
  constructor
  · rintro ⟨c, hc, e, he, p, hp, rfl⟩
    exact ⟨c, e, p, hc, he, hp, rfl⟩
  · rintro ⟨c, e, p, hc, he, hp, rfl⟩
    exact ⟨c, hc, e, he, p, hp, rfl⟩

/-- **An event read back from its JSON.** -/
theorem decodeEvent_toJson (h : event.toJson = .ok v) : decodeEvent v = .ok event.reload := by
  obtain ⟨tail, htail, hv⟩ := bind_eq_ok.mp h
  cases hv
  obtain ⟨createdAt, effectiveAt, proofs, hcreated, heffective, hproofs, rfl⟩ :=
    Event.tailFields_eq_ok.mp htail
  have hdecoded := mapM_decodeProof hproofs
  rw [decodeEvent, decodeObject_object]
  simp only [Event.headFields, List.cons_append, List.nil_append, List.foldlM_cons,
    decodeMember_field (EventField.ofKey_name _),
    Event.set, decodeString_string, decodeNat_nat, decodeSlice_slice,
    decodeTime_time hcreated, decodeTime_time heffective, Except.map, ok_bind]
  cases proofs with
  | nil =>
    have hnil : event.adminProofs.map AdminProof.reload = [] := by
      injection hdecoded with hdecoded
      exact hdecoded.symm
    rw [Event.reload, hnil]
    rfl
  | cons p rest =>
    simp only [proofFields, List.foldlM_cons, List.foldlM_nil,
      decodeMember_field (EventField.ofKey_name .adminProofs), Event.set, array, decodeProofs,
      Items.toList_ofList, hdecoded, Except.map, ok_bind]
    rfl

/-! ## Times of whole minutes -/

def AdminProof.WholeMinute (proof : AdminProof) : Prop := proof.timestamp.WholeMinute

instance (proof : AdminProof) : Decidable proof.WholeMinute :=
  inferInstanceAs (Decidable (GoTime.Time.WholeMinute _))

/-- Every time of the event has a zone offset of whole minutes, as RFC 3339 can write. -/
def Event.WholeMinute (event : Event) : Prop :=
  event.createdAt.WholeMinute ∧ event.effectiveAt.WholeMinute ∧
    ∀ proof ∈ event.adminProofs, proof.WholeMinute

instance (event : Event) : Decidable event.WholeMinute :=
  inferInstanceAs (Decidable (_ ∧ _ ∧ _))

/-- Such an event survives its JSON form. -/
theorem Event.reload_eq_self (h : event.WholeMinute) : event.reload = event := by
  obtain ⟨hcreated, heffective, hproofs⟩ := h
  have hmap : event.adminProofs.map AdminProof.reload = event.adminProofs := by
    conv_rhs => rw [← List.map_id event.adminProofs]
    apply List.map_congr_left
    intro proof hproof
    rw [AdminProof.reload, GoTime.truncate_eq_self (hproofs proof hproof), id]
  rw [Event.reload, GoTime.truncate_eq_self hcreated, GoTime.truncate_eq_self heffective, hmap]

theorem AdminProof.wholeMinute_set {f : ProofField} {proof' : AdminProof} (h : proof.WholeMinute)
    (hset : AdminProof.set f v proof = .ok proof') : proof'.WholeMinute := by
  cases f with
  | timestamp =>
    obtain ⟨t, ht, rfl⟩ := map_eq_ok.mp hset
    exact wholeMinute_of_decodeTime h ht
  | _ =>
    obtain ⟨x, -, rfl⟩ := map_eq_ok.mp hset
    exact h

theorem wholeMinute_of_decodeProofs {proofs : List AdminProof}
    (h : decodeProofs v = .ok proofs) : ∀ proof ∈ proofs, proof.WholeMinute := by
  unfold decodeProofs at h
  split at h
  · cases h
    simp
  · intro proof hproof
    obtain ⟨item, -, hitem⟩ := exists_of_mem_mapM h hproof
    exact decodeObject_induct (P := AdminProof.WholeMinute) (by decide)
      (fun _ _ _ _ => AdminProof.wholeMinute_set) hitem
  · cases h

theorem Event.wholeMinute_set {f : EventField} {event' : Event} (h : event.WholeMinute)
    (hset : Event.set f v event = .ok event') : event'.WholeMinute := by
  obtain ⟨hcreated, heffective, hproofs⟩ := h
  cases f with
  | createdAt =>
    obtain ⟨t, ht, rfl⟩ := map_eq_ok.mp hset
    exact ⟨wholeMinute_of_decodeTime hcreated ht, heffective, hproofs⟩
  | effectiveAt =>
    obtain ⟨t, ht, rfl⟩ := map_eq_ok.mp hset
    exact ⟨hcreated, wholeMinute_of_decodeTime heffective ht, hproofs⟩
  | adminProofs =>
    obtain ⟨proofs, hdecode, rfl⟩ := map_eq_ok.mp hset
    exact ⟨hcreated, heffective, wholeMinute_of_decodeProofs hdecode⟩
  | _ =>
    obtain ⟨x, -, rfl⟩ := map_eq_ok.mp hset
    exact ⟨hcreated, heffective, hproofs⟩

/-- An event read from JSON has such times. -/
theorem wholeMinute_of_decodeEvent (h : decodeEvent v = .ok event) : event.WholeMinute :=
  decodeObject_induct (P := Event.WholeMinute) (by decide)
    (fun _ _ _ _ => Event.wholeMinute_set) h

/-! ## The JSON is well formed -/

theorem AdminProof.valid_toJson (h : proof.toJson = .ok v) : v.Valid := by
  obtain ⟨timestamp, htime, hv⟩ := bind_eq_ok.mp h
  rw [← Except.ok.inj hv]
  exact valid_object (by simp [valid_time htime])

theorem Event.valid_headFields (event : Event) : ValidFields event.headFields := by
  simp [Event.headFields]

theorem Event.valid_tailFields {tail : List (List Char × Json)}
    (h : event.tailFields = .ok tail) : ValidFields tail := by
  obtain ⟨createdAt, effectiveAt, proofs, hcreated, heffective, hproofs, rfl⟩ :=
    Event.tailFields_eq_ok.mp h
  have hvalid : ∀ v ∈ proofs, v.Valid := by
    intro v hv
    obtain ⟨proof, -, hproof⟩ := exists_of_mem_mapM hproofs hv
    exact AdminProof.valid_toJson hproof
  cases proofs with
  | nil => simp [proofFields, valid_time hcreated, valid_time heffective]
  | cons q rest =>
    simp [proofFields, valid_time hcreated, valid_time heffective, valid_array hvalid]

theorem Event.valid_toJson (h : event.toJson = .ok v) : v.Valid := by
  obtain ⟨tail, htail, hv⟩ := bind_eq_ok.mp h
  rw [← Except.ok.inj hv]
  exact valid_object (by simp [event.valid_headFields, Event.valid_tailFields htail])

theorem Event.valid_signingJson (h : event.signingJson = .ok v) : v.Valid := by
  obtain ⟨tail, htail, hv⟩ := bind_eq_ok.mp h
  rw [← Except.ok.inj hv]
  exact valid_object (by simp [event.valid_headFields, Event.valid_tailFields htail])

/-! ## The signed bytes determine the event -/

/-- Two proofs agree on every field, the timestamps as their JSON text. -/
structure AdminProof.Agree (p q : AdminProof) : Prop where
  signerID : p.signerID = q.signerID
  certificate : p.certificate = q.certificate
  method : p.method = q.method
  requestURI : p.requestURI = q.requestURI
  bodySHA256 : p.bodySHA256 = q.bodySHA256
  timestamp : p.timestamp.marshal = q.timestamp.marshal
  signature : p.signature = q.signature

/-- Two events agree on every field except the signature, the times as their JSON
text. -/
structure Event.Agree (e f : Event) : Prop where
  domainID : e.domainID = f.domainID
  eventID : e.eventID = f.eventID
  seq : e.seq = f.seq
  prevHash : e.prevHash = f.prevHash
  resource : e.resource = f.resource
  action : e.action = f.action
  payload : e.payload = f.payload
  signerID : e.signerID = f.signerID
  createdAt : e.createdAt.marshal = f.createdAt.marshal
  effectiveAt : e.effectiveAt.marshal = f.effectiveAt.marshal
  adminProofs : List.Forall₂ AdminProof.Agree e.adminProofs f.adminProofs

theorem AdminProof.agree_of_toJson_eq {p q : AdminProof} (hp : p.toJson = .ok v)
    (hq : q.toJson = .ok v) : p.Agree q := by
  obtain ⟨tp, htp, hvp⟩ := bind_eq_ok.mp hp
  obtain ⟨tq, htq, hvq⟩ := bind_eq_ok.mp hq
  have hfields := object_inj (Except.ok.inj (hvp.trans hvq.symm))
  simp only [field, List.cons.injEq, Prod.mk.injEq, true_and, and_true] at hfields
  obtain ⟨h1, h2, h3, h4, h5, h6, h7⟩ := hfields
  subst h6
  exact ⟨string_inj h1, slice_inj h2, string_inj h3, string_inj h4, string_inj h5,
    time_inj htp htq, slice_inj h7⟩

theorem proofFields_inj {l l' : List Json} (h : proofFields l = proofFields l') : l = l' := by
  cases l with
  | nil =>
    cases l' with
    | nil => rfl
    | cons w ws => simp [proofFields] at h
  | cons v vs =>
    cases l' with
    | nil => simp [proofFields] at h
    | cons w ws =>
      simp only [proofFields, field, List.cons.injEq, Prod.mk.injEq, true_and, and_true] at h
      exact array_inj h

theorem forall₂_agree {ps qs : List AdminProof} {values : List Json}
    (hp : ps.mapM AdminProof.toJson = .ok values) (hq : qs.mapM AdminProof.toJson = .ok values) :
    List.Forall₂ AdminProof.Agree ps qs := by
  rw [mapM_eq_ok] at hp hq
  induction hp generalizing qs with
  | nil =>
    rw [List.forall₂_nil_right_iff] at hq
    subst hq
    exact List.Forall₂.nil
  | cons hhead _ ih =>
    obtain ⟨q, qs', hq', htail, rfl⟩ := List.forall₂_cons_right_iff.mp hq
    exact List.Forall₂.cons (AdminProof.agree_of_toJson_eq hhead hq') (ih htail)

/-- **The signed bytes determine the event** up to its signature. -/
theorem agree_of_signingJson_eq {e f : Event} (he : e.signingJson = .ok v)
    (hf : f.signingJson = .ok v) : e.Agree f := by
  obtain ⟨te, hte, hve⟩ := bind_eq_ok.mp he
  obtain ⟨tf, htf, hvf⟩ := bind_eq_ok.mp hf
  obtain ⟨ce, ee, pe, hce, hee, hpe, rfl⟩ := Event.tailFields_eq_ok.mp hte
  obtain ⟨cf, ef, pf, hcf, hef, hpf, rfl⟩ := Event.tailFields_eq_ok.mp htf
  have hfields := object_inj (Except.ok.inj (hve.trans hvf.symm))
  simp only [Event.headFields, field, List.cons_append, List.nil_append, List.cons.injEq,
    Prod.mk.injEq, true_and] at hfields
  obtain ⟨h1, h2, h3, h4, h5, h6, h7, h8, h9, h10, h11⟩ := hfields
  subst h9 h10
  have hproofs := proofFields_inj h11
  subst hproofs
  exact ⟨string_inj h1, string_inj h2, nat_inj h3, string_inj h4, string_inj h5, string_inj h6,
    slice_inj h7, string_inj h8, time_inj hce hcf, time_inj hee hef, forall₂_agree hpe hpf⟩

/-- Whether an event can be signed depends on its times and proofs only. -/
theorem exists_signingBytes {e f : Event} (htail : f.tailFields = e.tailFields)
    {text : List Char} (h : e.signingBytes = .ok text) : ∃ text', f.signingBytes = .ok text' := by
  obtain ⟨v, hv, -⟩ := map_eq_ok.mp h
  obtain ⟨tail, htail', -⟩ := bind_eq_ok.mp hv
  refine ⟨_, map_eq_ok.mpr ⟨object (f.headFields ++ tail), ?_, rfl⟩⟩
  exact bind_eq_ok.mpr ⟨tail, htail.trans htail', rfl⟩

theorem agree_of_signingBytes_eq {e f : Event} {text : List Char}
    (he : e.signingBytes = .ok text) (hf : f.signingBytes = .ok text) : e.Agree f := by
  obtain ⟨v, hv, hprint⟩ := map_eq_ok.mp he
  obtain ⟨w, hw, hprint'⟩ := map_eq_ok.mp hf
  rw [← hprint'] at hprint
  have heq : v = w :=
    print_injective (Event.valid_signingJson hv) (Event.valid_signingJson hw) hprint
  subst heq
  exact agree_of_signingJson_eq hv hw

end ConfigEvent
