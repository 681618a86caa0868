/-
# Endpoint grants

Grants that let a peer open data sessions on an endpoint: their normal form and
validation, the latest grants of a config log, the resolution of a revoke request, and
the access check (`internal/daemon/endpoint_grant_resource.go`).

* `parse_encode` : a grant that was read from the log reads back from what is written;
* `revoke_removes_access_iff` : when a revoke that names a subject and an endpoint takes
  the access away.

A payload is the record that its JSON text stands for; times are instants in nanoseconds.
-/
import TrustIX.Membership
import TrustIX.Fallible

namespace EndpointGrants

open ConfigEvent Fallible
open Membership (zeroTime)

/-! ## Grants -/

/-- `endpointGrantPayload`. -/
structure Grant where
  version : ℤ
  domainID : String
  grantID : String
  issuerIX : String
  subjectIX : String
  endpoint : String
  transport : String
  state : String
  permissions : List String
  issuedAt : ℤ
  expiresAt : ℤ
  effectiveSeq : ℕ
  effectiveAt : ℤ
  reason : String
  deriving DecidableEq

def stateActive : String := "active"
def stateRevoked : String := "revoked"
def permissionDataSession : String := "data_session"

def normalizePermission (value : String) : String :=
  GoText.toLower (String.ofList ((GoText.trimSpace value).toList.map fun c =>
    if c = '-' then '_' else c))

/-- `normalizeEndpointGrantPermissions`: each permission once, sorted. -/
def normalizeEndpointGrantPermissions (values : List String) : List String :=
  (((values.map normalizePermission).filter (· ≠ "")).dedup).insertionSort (· ≤ ·)

def normalizeEndpointGrantPayload (grant : Grant) : Grant :=
  { grant with
    version := if grant.version = 0 then 1 else grant.version
    grantID := GoText.toLower (GoText.trimSpace grant.grantID)
    transport := GoText.toLower (GoText.trimSpace grant.transport)
    state := GoText.toLower (GoText.trimSpace grant.state)
    permissions := normalizeEndpointGrantPermissions grant.permissions
    reason := GoText.trimSpace grant.reason }

def validEndpointGrantID (grantID : String) : Bool :=
  let id := GoText.trimSpace grantID
  id != "" && decide (id.utf8ByteSize ≤ 128) && id.toList.all fun r =>
    (decide ('a' ≤ r) && decide (r ≤ 'z')) || (decide ('0' ≤ r) && decide (r ≤ '9')) ||
      r == '-' || r == '_'

def validateEndpointGrantPayload (grant : Grant) (domain : String) : Except String Unit := do
  rejectIf (grant.version ≠ 1)
    ("endpoint grant payload version is " ++ toString grant.version ++ ", want 1")
  rejectIf (grant.domainID ≠ domain)
    ("endpoint grant domain is " ++ grant.domainID.quote ++ ", want " ++ domain.quote)
  rejectIf (validEndpointGrantID grant.grantID = false)
    ("endpoint grant id " ++ grant.grantID.quote ++ " is invalid")
  (validateNonEmpty "ix id" grant.issuerIX).mapError ("endpoint grant issuer_ix: " ++ ·)
  (validateNonEmpty "ix id" grant.subjectIX).mapError ("endpoint grant subject_ix: " ++ ·)
  (validateNonEmpty "endpoint id" grant.endpoint).mapError ("endpoint grant endpoint: " ++ ·)
  rejectIf (grant.state ≠ stateActive ∧ grant.state ≠ stateRevoked)
    ("endpoint grant state is " ++ grant.state.quote ++ ", want active or revoked")
  rejectIf (grant.issuedAt = zeroTime) "endpoint grant issued_at is required"
  rejectIf (grant.effectiveAt = zeroTime) "endpoint grant effective_at is required"
  rejectIf (grant.permissions = []) "endpoint grant permissions are required"
  grant.permissions.forM fun permission =>
    rejectIf (permission ≠ permissionDataSession)
      ("endpoint grant permission " ++ permission.quote ++ " is unsupported")

/-- `encodeEndpointGrantPayload`, as the record that is written. -/
def encodeEndpointGrantPayload (grant : Grant) : Grant := normalizeEndpointGrantPayload grant

def parseEndpointGrantPayload (payload : Grant) (domain : String) : Except String Grant := do
  let grant := normalizeEndpointGrantPayload payload
  validateEndpointGrantPayload grant domain
  pure grant

/-! ## The grants of a log -/

/-- A grant event of the log. -/
structure GrantEvent where
  seq : ℕ
  payload : Grant
  deriving DecidableEq

abbrev LatestGrants := AList (fun _ : String => Grant)

/-- The loop of `latestEndpointGrantsFromLogLocked`. -/
def readGrant (domain : String) (latest : LatestGrants) (event : GrantEvent) :
    Except String LatestGrants := do
  let grant ← (parseEndpointGrantPayload event.payload domain).mapError
    ("decode endpoint grant seq " ++ toString event.seq ++ ": " ++ ·)
  pure (latest.insert grant.grantID grant)

def latestGrants (domain : String) (log : List GrantEvent) : Except String LatestGrants :=
  log.foldlM (readGrant domain) ∅

/-- The grants in the order of their ids. -/
def sortedGrants (latest : LatestGrants) : List Grant :=
  (latest.keys.insertionSort (· ≤ ·)).filterMap fun id => latest.lookup id

def latestEndpointGrantsFromLog (domain : String) (log : List GrantEvent) :
    Except String (List Grant) := do
  let latest ← latestGrants domain log
  pure (sortedGrants latest)

/-- `latestResourcePayload` of the resource of a grant: a grant event is only accepted
under the resource that its own grant id names. -/
def latestResourcePayload (log : List GrantEvent) (grantID : String) : Option Grant :=
  (log.reverse.find? fun event =>
    (normalizeEndpointGrantPayload event.payload).grantID == grantID).map GrantEvent.payload

/-! ## Access -/

/-- `config.EndpointConfig`, of which the access check reads name and transport. -/
structure EndpointConfig where
  name : String
  transport : String
  deriving DecidableEq

def endpointGrantTransportMatches (left right : String) : Bool :=
  let left := GoText.toLower (GoText.trimSpace left)
  let right := GoText.toLower (GoText.trimSpace right)
  left == right || (left == "kernel_udp" && right == "udp") ||
    (left == "udp" && right == "kernel_udp")

def endpointGrantAllowsDataSession (grant : Grant) : Bool :=
  grant.permissions.any (· == permissionDataSession)

/-- The grant is active and for this peer and endpoint, issued here. -/
def Grant.covers (grant : Grant) (localIX peer : String) (endpoint : EndpointConfig) : Bool :=
  grant.state == stateActive && endpointGrantAllowsDataSession grant &&
    grant.issuerIX == localIX && grant.subjectIX == peer && grant.endpoint == endpoint.name &&
    (grant.transport == "" || endpointGrantTransportMatches endpoint.transport grant.transport)

/-- The grant is in force at this time: not expired, and effective. -/
def Grant.liveAt (grant : Grant) (now : ℤ) : Bool :=
  (grant.expiresAt == zeroTime || decide (now < grant.expiresAt)) &&
    (grant.effectiveAt == zeroTime || decide (grant.effectiveAt ≤ now))

def peerHasActiveEndpointGrant (domain localIX : String) (log : List GrantEvent) (peer : String)
    (endpoint : EndpointConfig) (now : ℤ) : Bool :=
  match latestEndpointGrantsFromLog domain log with
  | .error _ => false
  | .ok grants => grants.any fun grant => grant.covers localIX peer endpoint && grant.liveAt now

/-! ## Revoking -/

/-- `endpointGrantRevokeRequest`. -/
structure RevokeRequest where
  grantID : String
  subjectIX : String
  endpoint : String
  transport : String
  deriving DecidableEq

/-- A grant that a request by subject and endpoint may resolve to. -/
def RevokeRequest.selects (request : RevokeRequest) (grant : Grant) : Bool :=
  let transportName := GoText.toLower (GoText.trimSpace request.transport)
  grant.subjectIX == request.subjectIX && grant.endpoint == request.endpoint &&
    (transportName == "" || endpointGrantTransportMatches grant.transport transportName) &&
    grant.state == stateActive

def resolveEndpointGrantRevokeTarget (domain : String) (log : List GrantEvent)
    (request : RevokeRequest) : Except String Grant := do
  let grants ← latestEndpointGrantsFromLog domain log
  let grantID := GoText.trimSpace request.grantID
  if grantID ≠ "" then
    match grants.find? fun grant => grant.grantID == grantID with
    | some grant => pure grant
    | none => throw ("endpoint grant " ++ grantID.quote ++ " is not found")
  else if request.subjectIX = "" ∨ request.endpoint = "" then
    throw "grant_id or subject_ix+endpoint is required"
  else
    -- the loop runs from the last grant to the first
    match grants.reverse.find? request.selects with
    | some grant => pure grant
    | none => throw ("active endpoint grant for peer " ++ request.subjectIX.quote ++
        " endpoint " ++ request.endpoint.quote ++ " is not found")

/-- What a mutation finds outside the grants: the verdict on its admin proofs, the head of
the log, and how signing and appending the event end. -/
structure Surroundings where
  verifyAdminProofPolicy : Except String Unit
  headSeq : ℕ
  append : Except String Unit

/-- `applyEndpointGrantConfigLocked`: the grant events of the log afterwards. -/
def applyEndpointGrantConfig (domain localIX : String) (around : Surroundings) (now : ℤ)
    (log : List GrantEvent) (grant : Grant) : Except String (List GrantEvent) := do
  around.verifyAdminProofPolicy
  let planned : Grant :=
    { grant with
      domainID := domain
      issuerIX := if grant.issuerIX = "" then localIX else grant.issuerIX
      effectiveSeq := around.headSeq + 1
      effectiveAt := if grant.effectiveAt = zeroTime then now else grant.effectiveAt }
  validateEndpointGrantPayload planned domain
  let payload := encodeEndpointGrantPayload planned
  if latestResourcePayload log (GoText.trimSpace planned.grantID) = some payload then
    pure log
  else do
    around.append
    pure (log ++ [⟨around.headSeq + 1, payload⟩])

/-- `handleEndpointGrantRevoke`. -/
def handleEndpointGrantRevoke (domain localIX : String) (around : Surroundings) (now : ℤ)
    (log : List GrantEvent) (request : RevokeRequest) : Except String (List GrantEvent) := do
  let grant ← resolveEndpointGrantRevokeTarget domain log request
  applyEndpointGrantConfig domain localIX around now log
    { grant with state := stateRevoked, effectiveAt := now }

/-! ## Normal forms -/

/-- What validation requires. -/
structure Grant.Valid (grant : Grant) (domain : String) : Prop where
  version : grant.version = 1
  domainID : grant.domainID = domain
  grantID : validEndpointGrantID grant.grantID = true
  issuerIX : GoText.trimSpace grant.issuerIX ≠ ""
  subjectIX : GoText.trimSpace grant.subjectIX ≠ ""
  endpoint : GoText.trimSpace grant.endpoint ≠ ""
  state : grant.state = stateActive ∨ grant.state = stateRevoked
  issuedAt : grant.issuedAt ≠ zeroTime
  effectiveAt : grant.effectiveAt ≠ zeroTime
  someone : grant.permissions ≠ []
  permissions : ∀ permission ∈ grant.permissions, permission = permissionDataSession

variable {domain : String} {grant : Grant}

theorem validate_eq_ok :
    validateEndpointGrantPayload grant domain = .ok () ↔ grant.Valid domain := by
  unfold validateEndpointGrantPayload
  simp only [seq_eq_ok, rejectIf_eq_ok, mapError_eq_ok, validateNonEmpty_eq_ok, forM_eq_ok,
    ne_eq, not_not, not_and_or, Bool.not_eq_false]
  constructor
  · rintro ⟨hversion, hdomain, hid, hissuer, hsubject, hendpoint, hstate, hissued, heffective,
      hsome, hpermissions⟩
    exact ⟨hversion, hdomain, hid, hissuer, hsubject, hendpoint, hstate, hissued, heffective,
      hsome, hpermissions⟩
  · intro h
    exact ⟨h.version, h.domainID, h.grantID, h.issuerIX, h.subjectIX, h.endpoint, h.state,
      h.issuedAt, h.effectiveAt, h.someone, h.permissions⟩

variable {payload : Grant}

theorem parse_eq_ok :
    parseEndpointGrantPayload payload domain = .ok grant ↔
      normalizeEndpointGrantPayload payload = grant ∧ grant.Valid domain := by
  unfold parseEndpointGrantPayload
  rw [seq_eq_ok, validate_eq_ok]
  constructor
  · rintro ⟨hvalid, hgrant⟩
    cases hgrant
    exact ⟨rfl, hvalid⟩
  · rintro ⟨rfl, hvalid⟩
    exact ⟨hvalid, rfl⟩

/-- The permissions of a valid grant in normal form. -/
theorem permissions_eq {values : List String} (hsome : normalizeEndpointGrantPermissions values ≠ [])
    (hall : ∀ permission ∈ normalizeEndpointGrantPermissions values,
      permission = permissionDataSession) :
    normalizeEndpointGrantPermissions values = [permissionDataSession] := by
  have hnodup : (normalizeEndpointGrantPermissions values).Nodup := by
    unfold normalizeEndpointGrantPermissions
    rw [(List.perm_insertionSort _ _).nodup_iff]
    exact List.nodup_dedup _
  have hreplicate := List.eq_replicate_of_mem hall
  rw [hreplicate, List.nodup_replicate] at hnodup
  have hlength : (normalizeEndpointGrantPermissions values).length ≠ 0 := by
    intro h
    exact hsome (List.length_eq_zero_iff.mp h)
  have hone : (normalizeEndpointGrantPermissions values).length = 1 := by omega
  rw [hreplicate, hone]
  rfl

/-- A grant in normal form is left alone. -/
def Grant.Normal (grant : Grant) : Prop := normalizeEndpointGrantPayload grant = grant

theorem normal_normalize
    (hvalid : (normalizeEndpointGrantPayload payload).Valid domain) :
    (normalizeEndpointGrantPayload payload).Normal := by
  have hpermissions := permissions_eq hvalid.someone hvalid.permissions
  have hagain : normalizeEndpointGrantPermissions [permissionDataSession] =
      [permissionDataSession] := by decide
  have hversion := hvalid.version
  unfold Grant.Normal
  unfold normalizeEndpointGrantPayload at hversion ⊢
  dsimp only at hversion ⊢
  rw [hpermissions, hagain, GoText.toLower_trimSpace_idem, GoText.toLower_trimSpace_idem,
    GoText.toLower_trimSpace_idem, GoText.trimSpace_trimSpace, hversion, if_neg one_ne_zero]

/-- Fields that normalisation does not look at may change. -/
theorem Grant.Normal.update (h : grant.Normal) (domainID issuerIX : String) (effectiveSeq : ℕ)
    (effectiveAt : ℤ) :
    Grant.Normal { grant with
      domainID := domainID, issuerIX := issuerIX, state := stateRevoked
      effectiveSeq := effectiveSeq, effectiveAt := effectiveAt } := by
  unfold Grant.Normal normalizeEndpointGrantPayload at h ⊢
  rw [Grant.mk.injEq] at h ⊢
  obtain ⟨hversion, -, hid, -, -, -, htransport, -, hpermissions, -, -, -, -, hreason⟩ := h
  have hstate : GoText.toLower (GoText.trimSpace stateRevoked) = stateRevoked := by
    decide
  exact ⟨hversion, rfl, hid, rfl, rfl, rfl, htransport, hstate, hpermissions, rfl, rfl, rfl, rfl,
    hreason⟩

/-- **What was read from the log reads back** from what is written of it. -/
theorem parse_encode (h : parseEndpointGrantPayload payload domain = .ok grant) :
    parseEndpointGrantPayload (encodeEndpointGrantPayload grant) domain = .ok grant := by
  obtain ⟨rfl, hvalid⟩ := parse_eq_ok.mp h
  have hnormal := normal_normalize hvalid
  refine parse_eq_ok.mpr ⟨?_, hvalid⟩
  unfold encodeEndpointGrantPayload
  rw [hnormal, hnormal]

/-! ## The latest grants -/

variable {log : List GrantEvent} {latest : LatestGrants}

theorem latestGrants_concat {event : GrantEvent} :
    latestGrants domain (log ++ [event]) = .ok latest ↔
      ∃ before grant, latestGrants domain log = .ok before ∧
        parseEndpointGrantPayload event.payload domain = .ok grant ∧
        before.insert grant.grantID grant = latest := by
  unfold latestGrants
  rw [List.foldlM_append, bind_eq_ok]
  constructor
  · rintro ⟨before, hbefore, hread⟩
    rw [List.foldlM_cons, bind_eq_ok] at hread
    obtain ⟨after, hafter, hnil⟩ := hread
    obtain ⟨grant, hparse, hinsert⟩ := bind_eq_ok.mp hafter
    cases hnil
    exact ⟨before, grant, hbefore, mapError_eq_ok.mp hparse, Except.ok.inj hinsert⟩
  · rintro ⟨before, grant, hbefore, hparse, rfl⟩
    refine ⟨before, hbefore, ?_⟩
    rw [List.foldlM_cons, bind_eq_ok]
    refine ⟨_, bind_eq_ok.mpr ⟨grant, mapError_eq_ok.mpr hparse, rfl⟩, rfl⟩

theorem latestResourcePayload_concat (log : List GrantEvent) (event : GrantEvent) (id : String) :
    latestResourcePayload (log ++ [event]) id =
      if (normalizeEndpointGrantPayload event.payload).grantID = id then some event.payload
      else latestResourcePayload log id := by
  unfold latestResourcePayload
  rw [List.reverse_append, List.reverse_singleton, List.singleton_append, List.find?_cons]
  by_cases hid : (normalizeEndpointGrantPayload event.payload).grantID = id
  · rw [if_pos hid, beq_iff_eq.mpr hid]
    rfl
  · rw [if_neg hid, beq_eq_false_iff_ne.mpr hid]

/-- The latest grant of an id is the last payload of its resource, in normal form. -/
theorem lookup_latestGrants (h : latestGrants domain log = .ok latest) (id : String) :
    latest.lookup id = (latestResourcePayload log id).map normalizeEndpointGrantPayload := by
  induction log using List.reverseRecOn generalizing latest with
  | nil =>
    cases h
    rfl
  | append_singleton log event ih =>
    obtain ⟨before, grant, hbefore, hparse, rfl⟩ := latestGrants_concat.mp h
    obtain ⟨rfl, -⟩ := parse_eq_ok.mp hparse
    rw [latestResourcePayload_concat]
    by_cases hid : (normalizeEndpointGrantPayload event.payload).grantID = id
    · rw [if_pos hid, ← hid, AList.lookup_insert]
      rfl
    · rw [if_neg hid, AList.lookup_insert_ne (Ne.symm hid)]
      exact ih hbefore

/-- Every latest grant is stored under its id, is valid and in normal form. -/
theorem latest_spec (h : latestGrants domain log = .ok latest) {id : String}
    (hlookup : latest.lookup id = some grant) :
    grant.grantID = id ∧ grant.Valid domain ∧ grant.Normal := by
  induction log using List.reverseRecOn generalizing latest with
  | nil =>
    cases h
    exact absurd hlookup (by simp)
  | append_singleton log event ih =>
    obtain ⟨before, read, hbefore, hparse, rfl⟩ := latestGrants_concat.mp h
    by_cases hid : id = read.grantID
    · subst hid
      rw [AList.lookup_insert] at hlookup
      cases hlookup
      obtain ⟨rfl, hvalid⟩ := parse_eq_ok.mp hparse
      exact ⟨rfl, hvalid, normal_normalize hvalid⟩
    · rw [AList.lookup_insert_ne hid] at hlookup
      exact ih hbefore hlookup

theorem mem_sortedGrants (h : latestGrants domain log = .ok latest) :
    grant ∈ sortedGrants latest ↔ latest.lookup grant.grantID = some grant := by
  unfold sortedGrants
  rw [List.mem_filterMap]
  constructor
  · rintro ⟨id, -, hlookup⟩
    rw [(latest_spec h hlookup).1]
    exact hlookup
  · intro hlookup
    refine ⟨grant.grantID, ?_, hlookup⟩
    rw [List.mem_insertionSort, ← AList.mem_keys, ← AList.lookup_isSome, hlookup]
    rfl

/-! ## What a revoke leaves -/

/-- The grant that a revoke writes. -/
def revokedGrant (domain localIX : String) (around : Surroundings) (now : ℤ) (target : Grant) :
    Grant :=
  { target with
    domainID := domain
    issuerIX := if target.issuerIX = "" then localIX else target.issuerIX
    state := stateRevoked
    effectiveSeq := around.headSeq + 1
    effectiveAt := now }

variable {request : RevokeRequest}

/-- A request by subject and endpoint resolves to one of the active grants it selects. -/
theorem resolve_spec {target : Grant} (hnamed : GoText.trimSpace request.grantID = "")
    (h : resolveEndpointGrantRevokeTarget domain log request = .ok target) :
    ∃ latest, latestGrants domain log = .ok latest ∧
      latest.lookup target.grantID = some target ∧ request.selects target = true := by
  obtain ⟨grants, hgrants, h⟩ := bind_eq_ok.mp h
  obtain ⟨latest, hlatest, hsorted⟩ := bind_eq_ok.mp hgrants
  cases hsorted
  refine ⟨latest, hlatest, ?_⟩
  simp only [hnamed, ne_eq, not_true_eq_false, if_false] at h
  split_ifs at h with hmissing
  split at h
  · rename_i grant hfind
    cases h
    have hmem := List.mem_reverse.mp (List.mem_of_find?_eq_some hfind)
    exact ⟨(mem_sortedGrants hlatest).mp hmem, List.find?_some hfind⟩
  · exact absurd h (by simp [throw, throwThe, MonadExceptOf.throw])

theorem state_of_selects
    (h : request.selects grant = true) : grant.state = stateActive := by
  unfold RevokeRequest.selects at h
  rw [Bool.and_eq_true, beq_iff_eq] at h
  exact h.2

/-- **A revoke that succeeds appends one event**, which revokes the grant it resolved to. -/
theorem handleRevoke_spec {localIX : String} {around : Surroundings} {now : ℤ}
    {log' : List GrantEvent} {target : Grant}
    (hnamed : GoText.trimSpace request.grantID = "")
    (hresolve : resolveEndpointGrantRevokeTarget domain log request = .ok target)
    (h : handleEndpointGrantRevoke domain localIX around now log request = .ok log') :
    log' = log ++ [⟨around.headSeq + 1, revokedGrant domain localIX around now target⟩] ∧
      parseEndpointGrantPayload (revokedGrant domain localIX around now target) domain =
        .ok (revokedGrant domain localIX around now target) := by
  obtain ⟨latest, hlatest, hlookup, hselects⟩ := resolve_spec hnamed hresolve
  obtain ⟨-, -, hnormal⟩ := latest_spec hlatest hlookup
  obtain ⟨grant, hgrant, happly⟩ := bind_eq_ok.mp h
  obtain rfl := Except.ok.inj (hresolve.symm.trans hgrant)
  obtain ⟨-, happly⟩ := seq_eq_ok.mp happly
  obtain ⟨hvalidate, happly⟩ := seq_eq_ok.mp happly
  rw [ite_self] at hvalidate happly
  have hwritten : (revokedGrant domain localIX around now target).Normal := hnormal.update _ _ _ _
  have hvalid : (revokedGrant domain localIX around now target).Valid domain :=
    validate_eq_ok.mp hvalidate
  have hencode : encodeEndpointGrantPayload (revokedGrant domain localIX around now target) =
      revokedGrant domain localIX around now target := hwritten
  change (if latestResourcePayload log (GoText.trimSpace target.grantID) =
    some (encodeEndpointGrantPayload (revokedGrant domain localIX around now target)) then _
    else _) = _ at happly
  rw [hencode] at happly
  -- the last payload of the resource is that of the active grant, so the event is new
  have hchanged : latestResourcePayload log (GoText.trimSpace target.grantID) ≠
      some (revokedGrant domain localIX around now target) := by
    intro hsame
    have hread := lookup_latestGrants hlatest (GoText.trimSpace target.grantID)
    rw [hsame, Option.map_some, hwritten] at hread
    have hid : target.grantID = GoText.trimSpace target.grantID := (latest_spec hlatest hread).1
    rw [← hid] at hread
    have htarget : target = revokedGrant domain localIX around now target :=
      Option.some.inj (hlookup.symm.trans hread)
    have hstate : target.state = stateRevoked := congrArg Grant.state htarget
    rw [state_of_selects hselects] at hstate
    exact absurd hstate (by decide)
  rw [if_neg hchanged] at happly
  obtain ⟨-, hlog⟩ := seq_eq_ok.mp happly
  have hafter := (Except.ok.inj hlog).symm
  change log' = log ++ [⟨around.headSeq + 1,
    encodeEndpointGrantPayload (revokedGrant domain localIX around now target)⟩] at hafter
  rw [hencode] at hafter
  exact ⟨hafter, parse_eq_ok.mpr ⟨hwritten, hvalid⟩⟩

/-- The access check looks for one latest grant that covers the pair and is in force. -/
theorem peerHasActive_iff {localIX peer : String} {endpoint : EndpointConfig} {now : ℤ}
    (h : latestGrants domain log = .ok latest) :
    peerHasActiveEndpointGrant domain localIX log peer endpoint now = true ↔
      ∃ grant, latest.lookup grant.grantID = some grant ∧
        grant.covers localIX peer endpoint = true ∧ grant.liveAt now = true := by
  have hgrants : latestEndpointGrantsFromLog domain log = .ok (sortedGrants latest) :=
    bind_eq_ok.mpr ⟨latest, h, rfl⟩
  unfold peerHasActiveEndpointGrant
  rw [hgrants]
  simp only [List.any_eq_true, Bool.and_eq_true, mem_sortedGrants h]

/-- A grant other than the target that covers the pair and is in force at some time from
`now` on. -/
def Overlaps (domain localIX : String) (log : List GrantEvent) (target : Grant) (peer : String)
    (endpoint : EndpointConfig) (now : ℤ) : Prop :=
  ∃ latest grant, latestGrants domain log = .ok latest ∧
    latest.lookup grant.grantID = some grant ∧ grant.grantID ≠ target.grantID ∧
    grant.covers localIX peer endpoint = true ∧ ∃ time, now ≤ time ∧ grant.liveAt time = true

/-- **When a revoke takes the access away.** After a revoke that names the subject and the
endpoint, the subject has no access to the endpoint from then on, exactly if no grant
other than the one the request resolved to covers the pair now or later. -/
theorem revoke_removes_access_iff (domain localIX : String) (around : Surroundings) (now : ℤ)
    (log log' : List GrantEvent) (request : RevokeRequest) (target : Grant)
    (endpoint : EndpointConfig) (hnamed : GoText.trimSpace request.grantID = "")
    (hresolve : resolveEndpointGrantRevokeTarget domain log request = .ok target)
    (hrevoke : handleEndpointGrantRevoke domain localIX around now log request = .ok log') :
    (∀ time, now ≤ time →
        peerHasActiveEndpointGrant domain localIX log' request.subjectIX endpoint time = false) ↔
      ¬ Overlaps domain localIX log target request.subjectIX endpoint now := by
  obtain ⟨latest, hlatest, -, -⟩ := resolve_spec hnamed hresolve
  obtain ⟨rfl, hparse⟩ := handleRevoke_spec hnamed hresolve hrevoke
  have hlatest' : latestGrants domain
      (log ++ [⟨around.headSeq + 1, revokedGrant domain localIX around now target⟩]) =
        .ok (latest.insert target.grantID (revokedGrant domain localIX around now target)) :=
    latestGrants_concat.mpr ⟨latest, _, hlatest, hparse, rfl⟩
  -- the revoked grant itself covers nothing, the others are as before
  have hrevoked : ∀ grant : Grant,
      (latest.insert target.grantID (revokedGrant domain localIX around now target)).lookup
          grant.grantID = some grant ∧ grant.covers localIX request.subjectIX endpoint = true ↔
        latest.lookup grant.grantID = some grant ∧ grant.grantID ≠ target.grantID ∧
          grant.covers localIX request.subjectIX endpoint = true := by
    intro grant
    by_cases hid : grant.grantID = target.grantID
    · rw [hid, AList.lookup_insert]
      constructor
      · rintro ⟨hsame, hcovers⟩
        cases hsame
        exact absurd hcovers (by simp [Grant.covers, revokedGrant, stateRevoked, stateActive])
      · rintro ⟨-, hne, -⟩
        exact absurd rfl hne
    · rw [AList.lookup_insert_ne hid]
      constructor
      · rintro ⟨hlookup, hcovers⟩
        exact ⟨hlookup, hid, hcovers⟩
      · rintro ⟨hlookup, -, hcovers⟩
        exact ⟨hlookup, hcovers⟩
  constructor
  · rintro hnone ⟨latest', grant, hlatest'', hlookup, hne, hcovers, time, htime, hlive⟩
    obtain rfl := Except.ok.inj (hlatest.symm.trans hlatest'')
    have hfalse := hnone time htime
    rw [← Bool.not_eq_true, peerHasActive_iff hlatest'] at hfalse
    obtain ⟨hafter, -⟩ := (hrevoked grant).mpr ⟨hlookup, hne, hcovers⟩
    exact hfalse ⟨grant, hafter, hcovers, hlive⟩
  · intro hother time htime
    rw [← Bool.not_eq_true, peerHasActive_iff hlatest']
    rintro ⟨grant, hafter, hcovers, hlive⟩
    obtain ⟨hlookup, hne, -⟩ := (hrevoked grant).mp ⟨hafter, hcovers⟩
    exact hother ⟨latest, grant, hlatest, hlookup, hne, hcovers, time, htime, hlive⟩

/-! ## Two grants for one pair -/

/-- A grant of `ix-a` that lets `ix-b` use the endpoint `edge`, with no expiry. -/
def sampleGrant (grantID : String) : Grant where
  version := 1
  domainID := "lab"
  grantID := grantID
  issuerIX := "ix-a"
  subjectIX := "ix-b"
  endpoint := "edge"
  transport := "udp"
  state := stateActive
  permissions := [permissionDataSession]
  issuedAt := 1
  expiresAt := zeroTime
  effectiveSeq := 1
  effectiveAt := 1
  reason := ""

def sampleRequest : RevokeRequest := ⟨"", "ix-b", "edge", ""⟩
def quietSurroundings : Surroundings := ⟨.ok (), 2, .ok ()⟩

/-- Two grants are issued for the pair, one is revoked, and the peer keeps its access. -/
theorem revoke_leaves_access :
    let log : List GrantEvent := [⟨1, sampleGrant "eg-1"⟩, ⟨2, sampleGrant "eg-2"⟩]
    ∃ log', handleEndpointGrantRevoke "lab" "ix-a" quietSurroundings 5 log sampleRequest =
        .ok log' ∧
      peerHasActiveEndpointGrant "lab" "ix-a" log' "ix-b" ⟨"edge", "udp"⟩ 6 = true := by
  refine ⟨[⟨1, sampleGrant "eg-1"⟩, ⟨2, sampleGrant "eg-2"⟩,
    ⟨3, revokedGrant "lab" "ix-a" quietSurroundings 5 (sampleGrant "eg-2")⟩], ?_, ?_⟩
  · rfl
  · decide +kernel

/-- With a single grant the revoke takes the access away. -/
theorem revoke_removes_access_single :
    let log : List GrantEvent := [⟨1, sampleGrant "eg-1"⟩]
    let log' := log ++ [⟨3, revokedGrant "lab" "ix-a" quietSurroundings 5 (sampleGrant "eg-1")⟩]
    ∀ time, 5 ≤ time →
      peerHasActiveEndpointGrant "lab" "ix-a" log' "ix-b" ⟨"edge", "udp"⟩ time = false := by
  have hlatest : latestGrants "lab" [⟨1, sampleGrant "eg-1"⟩] =
      .ok ((∅ : LatestGrants).insert "eg-1" (sampleGrant "eg-1")) := by rfl
  refine (revoke_removes_access_iff "lab" "ix-a" quietSurroundings 5 [⟨1, sampleGrant "eg-1"⟩] _
    sampleRequest (sampleGrant "eg-1") ⟨"edge", "udp"⟩ (by decide +kernel) (by rfl)
    (by rfl)).mpr ?_
  rintro ⟨latest, grant, hlatest', hlookup, hne, -⟩
  obtain rfl := Except.ok.inj (hlatest.symm.trans hlatest')
  have hkey : grant.grantID = "eg-1" := by
    by_contra hother
    rw [AList.lookup_insert_ne hother, AList.lookup_empty] at hlookup
    exact absurd hlookup (by simp)
  exact hne hkey

end EndpointGrants
