/-
# Admissions and the members table

The chain admissions of a domain, the check of an advertisement against them, and what
happens when an admission changes while advertisements are being merged
(`internal/daemon/admission_resource.go`, `mergeAdvertisementWithOptions`).

A merge checks the admission first and writes its record later, under another lock. A
change of an admission holds `configMu` throughout: it appends its event, takes a copy of
the table under the read lock, checks every record of the copy, and deletes those that
fail under the write lock. The steps below are these critical sections.

* `revoked_member_absent` : when a revoked member stays out of the table.
-/
import TrustIX.Membership
import TrustIX.Runs

namespace Admission

open Membership Runs

/-! ## Admissions -/

inductive AdmissionState
  | approved
  | revoked
  deriving DecidableEq

/-- `admissionPayload`; `limits` are its prefixes and route authorizations. -/
structure AdmissionPayload (A : Type) where
  ixID : String
  state : AdmissionState
  ixCertFingerprint : String
  controlAPI : String
  effectiveAt : ℤ
  limits : A
  deriving DecidableEq

/-- What the check reads of the content of an advertisement, and how the limits of an
admission are compared with it. -/
structure Rules (A C : Type) where
  certificateFingerprint : C → String
  allowsAdvertisementPrefixes : A → Advertisement C → Bool
  allowsRouteAuthorizations : A → Advertisement C → Bool

/-- Why an advertisement is not admitted. -/
inductive Refusal
  | noAdmission (ixID : String)
  | state (ixID : String) (state : AdmissionState)
  | notEffective (ixID : String) (effectiveAt : ℤ)
  | fingerprint (ixID got want : String)
  | controlAPI (ixID got want : String)
  | prefixes
  | routeAuthorizations
  deriving DecidableEq

variable {A C : Type}

/-- `latestAdmissionsFromLogLocked`: the last admission of each IX. -/
def latestAdmissions (log : List (AdmissionPayload A)) :
    AList (fun _ : String => AdmissionPayload A) :=
  log.foldl (fun latest admission => latest.insert admission.ixID admission) ∅

/-- `latestAdmissionForIXLocked`. -/
def latestAdmissionForIX (log : List (AdmissionPayload A)) (ixID : String) :
    Option (AdmissionPayload A) :=
  (latestAdmissions log).lookup ixID

theorem latestAdmissionForIX_concat (log : List (AdmissionPayload A))
    (admission : AdmissionPayload A) (ixID : String) :
    latestAdmissionForIX (log ++ [admission]) ixID =
      if ixID = admission.ixID then some admission else latestAdmissionForIX log ixID := by
  unfold latestAdmissionForIX latestAdmissions
  rw [List.foldl_append, List.foldl_cons, List.foldl_nil]
  by_cases hid : ixID = admission.ixID
  · rw [if_pos hid, hid, AList.lookup_insert]
  · rw [if_neg hid, AList.lookup_insert_ne hid]

/-- `verifyAdmissionForAdvertisementLocked`. -/
def verifyAdmissionForAdvertisement (rules : Rules A C) (localIX : String) (now : ℤ)
    (log : List (AdmissionPayload A)) (advertisement : Advertisement C) : Except Refusal Unit := do
  let ixID := advertisement.ixID
  if ixID = localIX then return ()
  match latestAdmissionForIX log ixID with
  | none => throw (.noAdmission ixID)
  | some admission =>
    if admission.state ≠ .approved then throw (.state ixID admission.state)
    if admission.effectiveAt ≠ zeroTime ∧ now < admission.effectiveAt then
      throw (.notEffective ixID admission.effectiveAt)
    let got := rules.certificateFingerprint advertisement.content
    if got ≠ admission.ixCertFingerprint then
      throw (.fingerprint ixID got admission.ixCertFingerprint)
    if admission.controlAPI ≠ "" ∧
        GoText.trimSpace advertisement.controlAPI ≠ admission.controlAPI then
      throw (.controlAPI ixID advertisement.controlAPI admission.controlAPI)
    if !rules.allowsAdvertisementPrefixes admission.limits advertisement then throw .prefixes
    if !rules.allowsRouteAuthorizations admission.limits advertisement then
      throw .routeAuthorizations

/-- The last admission of the IX revokes it. -/
def Revoked (log : List (AdmissionPayload A)) (ixID : String) : Prop :=
  ∃ admission, latestAdmissionForIX log ixID = some admission ∧ admission.state = .revoked

variable {advertisement : Advertisement C} {now : ℤ}

/-- No advertisement of a revoked IX is admitted. -/
theorem verifyAdmission_of_revoked {rules : Rules A C} {localIX : String}
    {log : List (AdmissionPayload A)} (hrevoked : Revoked log advertisement.ixID)
    (hlocal : advertisement.ixID ≠ localIX) :
    verifyAdmissionForAdvertisement rules localIX now log advertisement =
      .error (.state advertisement.ixID .revoked) := by
  obtain ⟨admission, hlatest, hstate⟩ := hrevoked
  unfold verifyAdmissionForAdvertisement
  simp only [hlatest, if_neg hlocal, hstate]
  rfl

/-! ## Merges and changes of admissions -/

/-- How far the change that holds `configMu` has come. -/
inductive Change (A : Type)
  | idle
  | appended (admission : AdmissionPayload A)
  | removing (admission : AdmissionPayload A) (remove : List String)

/-- A daemon as merges and changes see it. `merging` are the advertisements that passed
their checks and wait for the table; `revoked` are the IXes whose revoke has returned
and that no later admission names. -/
structure State (A C : Type) where
  log : List (AdmissionPayload A)
  members : Members C
  merging : List (Advertisement C)
  change : Change A
  revoked : List String

inductive Event (A C : Type)
  /-- A merge up to its admission check; `base` is the verdict of `verifyAdvertisementBase`. -/
  | checkMerge (now : ℤ) (base : Bool) (advertisement : Advertisement C)
  /-- A merge that passed its checks registers the signer and writes its record. -/
  | insertMerge (index : ℕ) (now : ℤ) (source : String) (options : MergeOptions)
      (registered : Bool)
  /-- An approve or a revoke appends its event. -/
  | append (admission : AdmissionPayload A)
  | snapshot (now : ℤ)
  | delete
  /-- Records go for another reason: they expire, or are deleted on request. -/
  | drop (ixIDs : List String)

/-- The ids that `pruneUnadmittedMembersLocked` finds in its copy of the table. -/
def unadmitted (rules : Rules A C) (localIX : String) (now : ℤ) (log : List (AdmissionPayload A))
    (members : Members C) : List String :=
  members.records.keys.filter fun ixID => ixID != localIX &&
    (members.lookup ixID).any fun record =>
      !(verifyAdmissionForAdvertisement rules localIX now log record.advertisement).isOk

def step (rules : Rules A C) (localIX : String) (state : State A C) :
    Event A C → Option (State A C)
  | .checkMerge now base advertisement =>
    if base ∧ (verifyAdmissionForAdvertisement rules localIX now state.log advertisement).isOk ∧
        advertisement.ixID ≠ localIX then
      some { state with merging := state.merging ++ [advertisement] }
    else some state
  | .insertMerge index now source options registered =>
    state.merging[index]?.map fun advertisement =>
      { state with
        merging := state.merging.eraseIdx index
        members :=
          if registered then
            state.members.put (mergeRecord localIX now source options advertisement
              (state.members.lookup advertisement.ixID))
          else state.members }
  | .append admission =>
    match state.change with
    | .idle => some { state with
        log := state.log ++ [admission]
        change := .appended admission
        revoked := state.revoked.filter (· ≠ admission.ixID) }
    | _ => none
  | .snapshot now =>
    match state.change with
    | .appended admission => some { state with
        change := .removing admission (unadmitted rules localIX now state.log state.members) }
    | _ => none
  | .delete =>
    match state.change with
    | .removing admission remove => some { state with
        members := remove.foldl Members.delete state.members
        change := .idle
        revoked :=
          if admission.state = .revoked then admission.ixID :: state.revoked
          else state.revoked }
    | _ => none
  | .drop ixIDs => some { state with members := ixIDs.foldl Members.delete state.members }

/-- No merge of the IX being revoked is between its check and the table when the revoke
copies the table. -/
def Undisturbed (state : State A C) : Event A C → Prop
  | .snapshot _ =>
    match state.change with
    | .appended admission => admission.state = .revoked →
        ∀ advertisement ∈ state.merging, advertisement.ixID ≠ admission.ixID
    | _ => True
  | _ => True

/-- The daemon before the first request: any log and table. -/
def Initial (state : State A C) : Prop :=
  state.merging = [] ∧ state.change = .idle ∧ state.revoked = []

/-! ## A revoked member stays out -/

/-- The IX is revoked and not on its way into the table, and if it is in the table still,
the change under way is about to delete it. -/
structure Out (state : State A C) (remove : List String) (ixID : String) : Prop where
  revoked : Revoked state.log ixID
  absent : ixID ∈ remove ∨ state.members.lookup ixID = none
  unmerged : ∀ advertisement ∈ state.merging, advertisement.ixID ≠ ixID

/-- What holds of a change under way. -/
def ChangeInv (localIX : String) (state : State A C) : Prop :=
  match state.change with
  | .idle => True
  | .appended admission => latestAdmissionForIX state.log admission.ixID = some admission
  | .removing admission remove => admission.state = .revoked → admission.ixID ≠ localIX →
      Out state remove admission.ixID

/-- The invariant of every undisturbed run. -/
structure Inv (localIX : String) (state : State A C) : Prop where
  out : ∀ ixID ∈ state.revoked, ixID ≠ localIX → Out state [] ixID
  change : ChangeInv localIX state

section Step

variable {rules : Rules A C} {localIX : String} {state : State A C} {remove : List String}
  {ixID : String}

/-- An admitted advertisement is not of a revoked IX. -/
theorem ne_of_admitted (hrevoked : Revoked state.log ixID) (hlocal : advertisement.ixID ≠ localIX)
    (hok : (verifyAdmissionForAdvertisement rules localIX now state.log advertisement).isOk = true) :
    advertisement.ixID ≠ ixID := by
  rintro rfl
  rw [verifyAdmission_of_revoked hrevoked hlocal] at hok
  exact absurd hok Bool.false_ne_true

theorem Out.checkMerge (h : Out state remove ixID) (hlocal : advertisement.ixID ≠ localIX)
    (hok : (verifyAdmissionForAdvertisement rules localIX now state.log advertisement).isOk = true) :
    Out { state with merging := state.merging ++ [advertisement] } remove ixID := by
  exact { h with unmerged := List.forall_mem_append.mpr ⟨h.unmerged,
    List.forall_mem_singleton.mpr (ne_of_admitted h.revoked hlocal hok)⟩ }

theorem Out.insertMerge {index : ℕ} {source : String} {options : MergeOptions} {registered : Bool}
    (h : Out state remove ixID) (hindex : state.merging[index]? = some advertisement) :
    Out { state with
      merging := state.merging.eraseIdx index
      members :=
        if registered then
          state.members.put (mergeRecord localIX now source options advertisement
            (state.members.lookup advertisement.ixID))
        else state.members } remove ixID := by
  have hne := h.unmerged advertisement (List.mem_of_getElem? hindex)
  refine ⟨h.revoked, h.absent.imp_right fun habsent => ?_, fun other hother => ?_⟩
  · -- the record that is written is of another IX
    cases registered with
    | false => exact habsent
    | true =>
      show (state.members.put _).lookup ixID = none
      rw [Members.lookup_put, ixID_mergeRecord, if_neg hne.symm]
      exact habsent
  · exact h.unmerged other (List.mem_of_mem_eraseIdx hother)

theorem Out.append {admission : AdmissionPayload A} {change : Change A} {revoked : List String}
    (h : Out state remove ixID) (hother : ixID ≠ admission.ixID) :
    Out { state with log := state.log ++ [admission], change := change, revoked := revoked }
      remove ixID := by
  refine { h with revoked := ?_ }
  obtain ⟨latest, hlatest, hstate⟩ := h.revoked
  refine ⟨latest, ?_, hstate⟩
  rw [latestAdmissionForIX_concat, if_neg hother]
  exact hlatest

theorem Out.drop {ixIDs : List String} (h : Out state remove ixID) :
    Out { state with members := ixIDs.foldl Members.delete state.members } remove ixID := by
  refine { h with absent := h.absent.imp_right fun habsent => ?_ }
  show (ixIDs.foldl Members.delete state.members).lookup ixID = none
  rw [Members.lookup_foldl_delete, habsent, ite_self]

/-- A revoked IX that is in the table is found in its copy. -/
theorem mem_unadmitted {record : MemberRecord C} (hrevoked : Revoked state.log ixID)
    (hlocal : ixID ≠ localIX) (hrecord : state.members.lookup ixID = some record) :
    ixID ∈ unadmitted rules localIX now state.log state.members := by
  have hkey : record.advertisement.ixID = ixID := state.members.keyed ixID record hrecord
  have hverdict : verifyAdmissionForAdvertisement rules localIX now state.log
      record.advertisement = .error (.state record.advertisement.ixID .revoked) := by
    apply verifyAdmission_of_revoked
    · rw [hkey]
      exact hrevoked
    · rw [hkey]
      exact hlocal
  unfold unadmitted
  rw [List.mem_filter, hrecord]
  refine ⟨state.members.mem_keys hrecord, ?_⟩
  rw [Option.any_some, hverdict, Bool.and_eq_true]
  exact ⟨bne_iff_ne.mpr hlocal, rfl⟩

/-- A step that touches neither log nor change keeps the invariant if it lets nobody in. -/
theorem Inv.of_out {next : State A C} (hinv : Inv localIX state) (hlog : next.log = state.log)
    (hchange : next.change = state.change) (hrevoked : next.revoked = state.revoked)
    (hout : ∀ remove ixID, Out state remove ixID → Out next remove ixID) : Inv localIX next := by
  refine ⟨fun ixID hmem hother => hout [] ixID (hinv.out ixID (hrevoked ▸ hmem) hother), ?_⟩
  have hbefore := hinv.change
  unfold ChangeInv at hbefore ⊢
  rw [hchange]
  cases hcase : state.change with
  | idle => trivial
  | appended admission =>
    simp only [hcase] at hbefore ⊢
    rw [hlog]
    exact hbefore
  | removing admission remove =>
    simp only [hcase] at hbefore ⊢
    intro hstate hother
    exact hout remove admission.ixID (hbefore hstate hother)

/-- **One undisturbed step keeps revoked members out.** -/
theorem inv_step {next : State A C} {event : Event A C} (hinv : Inv localIX state)
    (hundisturbed : Undisturbed state event) (hstep : step rules localIX state event = some next) :
    Inv localIX next := by
  cases event with
  | checkMerge now base advertisement =>
    simp only [step] at hstep
    split_ifs at hstep with hpassed <;> cases hstep
    · exact hinv.of_out rfl rfl rfl fun _ _ hout => hout.checkMerge hpassed.2.2 hpassed.2.1
    · exact hinv
  | insertMerge index now source options registered =>
    obtain ⟨advertisement, hindex, rfl⟩ := Option.map_eq_some_iff.mp hstep
    exact hinv.of_out rfl rfl rfl fun _ _ hout => hout.insertMerge hindex
  | append admission =>
    simp only [step] at hstep
    split at hstep
    · cases hstep
      refine ⟨fun ixID hmem hother => ?_, ?_⟩
      · obtain ⟨hbefore, hne⟩ := List.mem_filter.mp hmem
        exact (hinv.out ixID hbefore hother).append (of_decide_eq_true hne)
      · show latestAdmissionForIX (state.log ++ [admission]) admission.ixID = some admission
        rw [latestAdmissionForIX_concat, if_pos rfl]
    · exact absurd hstep (by simp)
  | snapshot now =>
    simp only [step] at hstep
    split at hstep
    · rename_i admission happended
      cases hstep
      refine ⟨fun ixID hmem hother => { hinv.out ixID hmem hother with }, ?_⟩
      -- the event of the revoke is the last one of its IX, and nothing of it is under way
      have hlatest := hinv.change
      simp only [ChangeInv, happended] at hlatest
      simp only [Undisturbed, happended] at hundisturbed
      show admission.state = .revoked → admission.ixID ≠ localIX → Out _ _ _
      intro hstate hother
      have hrevoked : Revoked state.log admission.ixID := ⟨admission, hlatest, hstate⟩
      refine ⟨hrevoked, ?_, hundisturbed hstate⟩
      show admission.ixID ∈ unadmitted rules localIX now state.log state.members ∨
        state.members.lookup admission.ixID = none
      cases hrecord : state.members.lookup admission.ixID with
      | none => exact .inr rfl
      | some record => exact .inl (mem_unadmitted hrevoked hother hrecord)
    · exact absurd hstep (by simp)
  | delete =>
    simp only [step] at hstep
    split at hstep
    · rename_i admission remove hremoving
      cases hstep
      refine ⟨fun ixID hmem hother => ?_, trivial⟩
      have hreturned : ∀ id, Out state remove id →
          Out { state with
            members := remove.foldl Members.delete state.members
            change := .idle
            revoked := if admission.state = .revoked then admission.ixID :: state.revoked
              else state.revoked } [] id := by
        intro id hout
        refine ⟨hout.revoked, .inr ?_, hout.unmerged⟩
        show (remove.foldl Members.delete state.members).lookup id = none
        rw [Members.lookup_foldl_delete]
        rcases hout.absent with hremove | habsent
        · rw [if_pos hremove]
        · rw [habsent, ite_self]
      have hbefore : ixID ∈ state.revoked → Out state remove ixID := by
        intro hold
        have hout := hinv.out ixID hold hother
        exact { hout with absent := .inr (hout.absent.resolve_left (by simp)) }
      have hchange := hinv.change
      simp only [ChangeInv, hremoving] at hchange
      apply hreturned
      split_ifs at hmem with hstate
      · rcases List.mem_cons.mp hmem with rfl | hold
        · exact hchange hstate hother
        · exact hbefore hold
      · exact hbefore hmem
    · exact absurd hstep (by simp)
  | drop ixIDs =>
    cases hstep
    exact hinv.of_out rfl rfl rfl fun _ _ hout => hout.drop

end Step

/-- **A revoked member stays out of the table** in every run in which no merge of it is
between its admission check and the table when a revoke copies the table: once the revoke
has returned, and until a later admission names the IX, there is no record of it. -/
theorem revoked_member_absent (rules : Rules A C) (localIX : String) (start state : State A C)
    (hstart : Initial start)
    (hreaches : Reaches (step rules localIX) Undisturbed start state)
    (ixID : String) (hother : ixID ≠ localIX) (hrevoked : ixID ∈ state.revoked) :
    state.members.lookup ixID = none := by
  have hinv : Inv localIX state := by
    refine hreaches.invariant (Inv localIX) ?_ ?_
    · obtain ⟨hmerging, hchange, hreturned⟩ := hstart
      refine ⟨fun ixID hmem => ?_, ?_⟩
      · rw [hreturned] at hmem
        exact absurd hmem (by simp)
      · unfold ChangeInv
        rw [hchange]
        trivial
    · intro s event t hs hok hstep
      exact inv_step hs hok hstep
  exact (hinv.out ixID hrevoked hother).absent.resolve_left (by simp)

/-- Rules that compare nothing but the certificate. -/
def plainRules : Rules Unit Unit := ⟨fun _ => "cert", fun _ _ => true, fun _ _ => true⟩

/-- An admission of `ix-x`. -/
def sampleAdmission (state : AdmissionState) : AdmissionPayload Unit :=
  ⟨"ix-x", state, "cert", "", 0, ()⟩

def approvedStart : State Unit Unit :=
  ⟨[sampleAdmission .approved], Members.empty, [], .idle, []⟩

/-- The whole revoke runs between the check of a merge and its record. -/
def raceEvents : List (Event Unit Unit) :=
  [.checkMerge 1 true (sampleAd 1 "head" 0), .append (sampleAdmission .revoked), .snapshot 2,
    .delete, .insertMerge 0 3 "ix-x" postOptions true]

instance (state : State A C) (event : Event A C) : Decidable (Undisturbed state event) :=
  match event with
  | .snapshot _ =>
    match h : state.change with
    | .appended admission => decidable_of_iff (admission.state = .revoked →
        ∀ advertisement ∈ state.merging, advertisement.ixID ≠ admission.ixID)
          (by simp only [Undisturbed, h])
    | .idle => isTrue (by simp only [Undisturbed, h])
    | .removing _ _ => isTrue (by simp only [Undisturbed, h])
  | .checkMerge .. | .insertMerge .. | .append _ | .delete | .drop _ => isTrue trivial

/-- The revoke has returned, no merge is under way, and the revoked member is in the table. -/
theorem revoked_member_reinserted :
    ∃ state, Reaches (step plainRules "ix-a") (fun _ _ => True) approvedStart state ∧
      "ix-x" ∈ state.revoked ∧ state.merging = [] ∧
      (state.members.lookup "ix-x").isSome := by
  have hrun : (replay (step plainRules "ix-a") (fun _ _ => True) approvedStart raceEvents).map
      (fun state => (state.revoked, state.merging.length,
        (state.members.lookup "ix-x").isSome)) = some (["ix-x"], 0, true) := by
    decide +kernel
  obtain ⟨state, hstate, hfields⟩ := Option.map_eq_some_iff.mp hrun
  simp only [Prod.mk.injEq] at hfields
  obtain ⟨hrevoked, hmerging, hrecord⟩ := hfields
  exact ⟨state, reaches_of_replay hstate, by simp [hrevoked],
    List.length_eq_zero_iff.mp hmerging, hrecord⟩

/-- The merge is finished before the revoke copies the table. -/
def orderedEvents : List (Event Unit Unit) :=
  [.checkMerge 1 true (sampleAd 1 "head" 0), .append (sampleAdmission .revoked),
    .insertMerge 0 2 "ix-x" postOptions true, .snapshot 3, .delete,
    .checkMerge 4 true (sampleAd 1 "head" 0)]

theorem revoked_member_absent_ordered :
    ∃ state, Reaches (step plainRules "ix-a") Undisturbed approvedStart state ∧
      "ix-x" ∈ state.revoked ∧ state.members.lookup "ix-x" = none := by
  have hrun : (replay (step plainRules "ix-a") Undisturbed approvedStart orderedEvents).map
      State.revoked = some ["ix-x"] := by
    decide +kernel
  obtain ⟨state, hstate, hrevoked⟩ := Option.map_eq_some_iff.mp hrun
  have hreaches := reaches_of_replay hstate
  have hmem : "ix-x" ∈ state.revoked := by simp [hrevoked]
  exact ⟨state, hreaches, hmem, revoked_member_absent plainRules "ix-a" approvedStart state
    ⟨rfl, rfl, rfl⟩ hreaches "ix-x" (by decide) hmem⟩

end Admission
