/-
# The members table

Advertisements of IXes, the records a node keeps of them, how an advertisement is
merged into the table, how records expire, and the pages a node answers polls with
(`internal/daemon/membership.go`, `peer.go`, `api.go`).

* `mem_controlMembersResponse` : a page holds the own advertisement and those of
  records that are direct and fresh, and nothing else;
* `mergeAll_agree_iff` : for which advertisements the one that is kept does not depend
  on the order of arrival.

Times are instants in nanoseconds: the code only compares and subtracts them.
-/
import TrustIX.ConfigEvent

namespace Membership

open ConfigEvent

/-! ## Advertisements and records -/

/-- `advertisementResponse`; `content` is what the merge does not look at. -/
structure Advertisement (C : Type) where
  ixID : String
  configHead : Head
  controlAPI : String
  issuedAt : ℤ
  content : C
  deriving DecidableEq

/-- `memberRecord`. -/
structure MemberRecord (C : Type) where
  advertisement : Advertisement C
  lastSeen : ℤ
  source : String
  direct : Bool
  via : String
  deriving DecidableEq

/-- `time.Time{}`, the instant of a time that was never set. -/
def zeroTime : ℤ := -62135596800 * 10 ^ 9

/-- `memberRecordTTL`, two minutes. -/
def memberRecordTTL : ℤ := 120 * 10 ^ 9

structure ControlTarget where
  id : String
  controlAPI : String
  deriving DecidableEq

/-- `mergeAdvertisementOptions`. -/
structure MergeOptions where
  refreshSeen : Bool
  direct : Bool
  via : String
  deriving DecidableEq

variable {C : Type}

def advertisementNewer (existing candidate : Advertisement C) : Bool :=
  if candidate.configHead.seq ≠ existing.configHead.seq then
    decide (candidate.configHead.seq > existing.configHead.seq)
  else if candidate.configHead.hash ≠ existing.configHead.hash then true
  else decide (candidate.issuedAt > existing.issuedAt)

def advertisementMatchesControlTarget (advertisement : Advertisement C)
    (target : ControlTarget) : Bool :=
  (target.id != "" && advertisement.ixID == target.id) ||
    (GoText.trimSpace advertisement.controlAPI != "" &&
      GoText.trimSpace advertisement.controlAPI == GoText.trimSpace target.controlAPI)

/-- `now.Sub(record.LastSeen) <= memberRecordTTL`. -/
def MemberRecord.fresh (now : ℤ) (record : MemberRecord C) : Bool :=
  decide (now - record.lastSeen ≤ memberRecordTTL)

/-! ## The table -/

/-- `daemon.members`: every record is stored under the id its advertisement names. -/
structure Members (C : Type) where
  records : AList (fun _ : String => MemberRecord C)
  keyed : ∀ ixID record, records.lookup ixID = some record → record.advertisement.ixID = ixID

variable {ixID : String}

namespace Members

def lookup (members : Members C) (ixID : String) : Option (MemberRecord C) :=
  members.records.lookup ixID

def empty : Members C := ⟨∅, by intro ixID record h; simp at h⟩

@[simp] theorem lookup_empty (ixID : String) : (empty : Members C).lookup ixID = none := rfl

def put (members : Members C) (record : MemberRecord C) : Members C where
  records := members.records.insert record.advertisement.ixID record
  keyed := by
    intro ixID other h
    by_cases hid : ixID = record.advertisement.ixID
    · subst hid
      rw [AList.lookup_insert] at h
      injection h with h
      rw [← h]
    · rw [AList.lookup_insert_ne hid] at h
      exact members.keyed ixID other h

theorem lookup_put (members : Members C) (record : MemberRecord C) (ixID : String) :
    (members.put record).lookup ixID =
      if ixID = record.advertisement.ixID then some record else members.lookup ixID := by
  unfold lookup put
  by_cases hid : ixID = record.advertisement.ixID
  · rw [if_pos hid, hid, AList.lookup_insert]
  · rw [if_neg hid, AList.lookup_insert_ne hid]

/-- `delete(daemon.members, ixID)`. -/
def delete (members : Members C) (ixID : String) : Members C where
  records := members.records.erase ixID
  keyed := by
    intro other record h
    by_cases hid : other = ixID
    · rw [hid, AList.lookup_erase] at h
      exact absurd h (by simp)
    · rw [AList.lookup_erase_ne hid] at h
      exact members.keyed other record h

theorem lookup_delete (members : Members C) (ixID other : String) :
    (members.delete ixID).lookup other = if other = ixID then none else members.lookup other := by
  unfold lookup delete
  by_cases hid : other = ixID
  · rw [if_pos hid, hid, AList.lookup_erase]
  · rw [if_neg hid, AList.lookup_erase_ne hid]

theorem lookup_foldl_delete (ids : List String) (members : Members C) (ixID : String) :
    (ids.foldl delete members).lookup ixID = if ixID ∈ ids then none else members.lookup ixID := by
  induction ids generalizing members with
  | nil => simp
  | cons id rest ih =>
    rw [List.foldl_cons, ih, lookup_delete]
    by_cases hrest : ixID ∈ rest
    · simp [hrest]
    · by_cases hid : ixID = id <;> simp [hrest, hid]

theorem mem_keys (members : Members C) {record : MemberRecord C}
    (h : members.lookup ixID = some record) : ixID ∈ members.records.keys := by
  rw [← AList.mem_keys, ← AList.lookup_isSome]
  exact Option.isSome_iff_exists.mpr ⟨record, h⟩

end Members

/-- `pruneExpiredMembers`: the expired records are deleted, the own one never is. -/
def pruneExpiredMembers (localIX : String) (now : ℤ) (members : Members C) : Members C :=
  (members.records.keys.filter fun ixID =>
      ixID != localIX && (members.lookup ixID).any fun record => !record.fresh now).foldl
    Members.delete members

/-- A record is left by a prune if it is the own one or fresh. -/
theorem lookup_pruneExpiredMembers (localIX : String) (now : ℤ) (members : Members C)
    (ixID : String) :
    (pruneExpiredMembers localIX now members).lookup ixID =
      (members.lookup ixID).filter fun record => ixID == localIX || record.fresh now := by
  unfold pruneExpiredMembers
  rw [Members.lookup_foldl_delete]
  cases hrecord : members.lookup ixID with
  | none => simp
  | some record =>
    have hkey := members.mem_keys hrecord
    by_cases hlocal : ixID = localIX
    · simp [hlocal, Option.filter]
    · cases hfresh : record.fresh now <;>
        simp [hrecord, hlocal, hfresh, hkey, Option.filter]

/-! ## The merge -/

/-- The options of `mergeAdvertisement`: a posted advertisement counts as seen. -/
def postOptions : MergeOptions := ⟨true, true, ""⟩

/-- The options of `mergeAdvertisementFromControlTarget`. -/
def pollOptions (advertisement : Advertisement C) (target : ControlTarget) : MergeOptions :=
  if advertisementMatchesControlTarget advertisement target then ⟨true, true, ""⟩
  else ⟨false, false, target.id⟩

/-- The `via` that a merge offers to the record. -/
def offeredVia (localIX : String) (options : MergeOptions) (ixID : String) : String :=
  if options.direct || options.via == ixID || options.via == localIX then "" else options.via

/-- The part of `mergeAdvertisementWithOptions` under `membershipMu`: the record of the
advertisement's IX afterwards. -/
def mergeRecord (localIX : String) (now : ℤ) (source : String) (options : MergeOptions)
    (advertisement : Advertisement C) : Option (MemberRecord C) → MemberRecord C
  | none =>
    ⟨advertisement, now, source, options.direct, offeredVia localIX options advertisement.ixID⟩
  | some existing =>
    let via := offeredVia localIX options advertisement.ixID
    let direct := existing.direct || options.direct
    { -- an advertisement that is not newer still refreshes the rest of the record
      advertisement :=
        if advertisementNewer existing.advertisement advertisement then advertisement
        else existing.advertisement
      lastSeen :=
        if options.refreshSeen || existing.lastSeen == zeroTime then now else existing.lastSeen
      source := if options.refreshSeen || existing.source == "" then source else existing.source
      direct := direct
      via := if direct then "" else if via = "" then existing.via else via }

/-- What a node finds out about an advertisement before it touches the table:
`verifyAdvertisementBase`, `verifyAdmissionForAdvertisement` and
`registerConfigSignerCertificate`. -/
structure Gate (C : Type) where
  verifyAdvertisementBase : Advertisement C → Except String Unit
  verifyAdmissionForAdvertisement : Advertisement C → Except String Unit
  registerConfigSignerCertificate : Advertisement C → Except String Unit

/-- The gate lets the advertisement through to the table. -/
def Gate.passes (gate : Gate C) (advertisement : Advertisement C) : Bool :=
  (gate.verifyAdvertisementBase advertisement).isOk &&
    (gate.verifyAdmissionForAdvertisement advertisement).isOk &&
    (gate.registerConfigSignerCertificate advertisement).isOk

/-- `mergeAdvertisementWithOptions`, as one step: the table afterwards. -/
def mergeAdvertisementWithOptions (localIX : String) (gate : Gate C) (now : ℤ) (source : String)
    (options : MergeOptions) (advertisement : Advertisement C) (members : Members C) :
    Members C :=
  if gate.passes advertisement ∧ advertisement.ixID ≠ localIX then
    members.put
      (mergeRecord localIX now source options advertisement (members.lookup advertisement.ixID))
  else members

/-- A merge keeps the record under the id it was stored under. -/
theorem ixID_mergeRecord (localIX : String) (now : ℤ) (source : String)
    (options : MergeOptions) (advertisement : Advertisement C) (members : Members C) :
    (mergeRecord localIX now source options advertisement
      (members.lookup advertisement.ixID)).advertisement.ixID = advertisement.ixID := by
  cases hrecord : members.lookup advertisement.ixID with
  | none => rfl
  | some existing =>
    show (if _ then advertisement else existing.advertisement).ixID = _
    split_ifs
    · rfl
    · exact members.keyed _ _ hrecord

variable {advertisement : Advertisement C} {localIX : String} {gate : Gate C}

/-- The table after a merge that goes through. -/
theorem lookup_merge (hpass : gate.passes advertisement = true)
    (hlocal : advertisement.ixID ≠ localIX) (now : ℤ) (source : String) (options : MergeOptions)
    (members : Members C) (ixID : String) :
    (mergeAdvertisementWithOptions localIX gate now source options advertisement
      members).lookup ixID =
      if ixID = advertisement.ixID then
        some (mergeRecord localIX now source options advertisement (members.lookup ixID))
      else members.lookup ixID := by
  unfold mergeAdvertisementWithOptions
  rw [if_pos ⟨hpass, hlocal⟩, Members.lookup_put, ixID_mergeRecord]
  by_cases hid : ixID = advertisement.ixID
  · rw [if_pos hid, if_pos hid, hid]
  · rw [if_neg hid, if_neg hid]

/-- A merge leaves a record as it is, or replaces it by the merged one. -/
theorem lookup_merge_cases (localIX : String) (gate : Gate C) (now : ℤ) (source : String)
    (options : MergeOptions) (advertisement : Advertisement C) (members : Members C)
    (ixID : String) :
    (mergeAdvertisementWithOptions localIX gate now source options advertisement
        members).lookup ixID = members.lookup ixID ∨
      (ixID = advertisement.ixID ∧ ixID ≠ localIX ∧
        (mergeAdvertisementWithOptions localIX gate now source options advertisement
          members).lookup ixID =
          some (mergeRecord localIX now source options advertisement (members.lookup ixID))) := by
  by_cases hgate : gate.passes advertisement = true ∧ advertisement.ixID ≠ localIX
  · have hlookup := lookup_merge hgate.1 hgate.2 now source options members ixID
    by_cases hid : ixID = advertisement.ixID
    · rw [if_pos hid] at hlookup
      exact .inr ⟨hid, hid ▸ hgate.2, hlookup⟩
    · rw [if_neg hid] at hlookup
      exact .inl hlookup
  · left
    unfold mergeAdvertisementWithOptions
    rw [if_neg hgate]

/-- The table holds a record of the IX that was seen directly. -/
def Members.Direct (members : Members C) (ixID : String) : Prop :=
  ∃ record, members.lookup ixID = some record ∧ record.direct = true

/-- The table holds a record of the IX that was learnt from `hop`. -/
def Members.Via (members : Members C) (ixID hop : String) : Prop :=
  ∃ record, members.lookup ixID = some record ∧ record.via = hop

variable {members : Members C} {options : MergeOptions} {now : ℤ} {source : String}

/-- A merge never takes back that an IX was seen directly. -/
theorem direct_merge (h : members.Direct ixID) :
    (mergeAdvertisementWithOptions localIX gate now source options advertisement
      members).Direct ixID := by
  obtain ⟨record, hrecord, hdirect⟩ := h
  rcases lookup_merge_cases localIX gate now source options advertisement members ixID with
    hsame | ⟨-, -, hnew⟩
  · exact ⟨record, hsame.trans hrecord, hdirect⟩
  · refine ⟨_, hnew, ?_⟩
    rw [hrecord]
    show (record.direct || options.direct) = true
    rw [hdirect, Bool.true_or]

/-- A merge with direct options makes the record direct. -/
theorem direct_mergeRecord {existing : Option (MemberRecord C)} (h : options.direct = true) :
    (mergeRecord localIX now source options advertisement existing).direct = true := by
  cases existing with
  | none => exact h
  | some record =>
    show (record.direct || options.direct) = true
    rw [h, Bool.or_true]

/-- Where the `via` of a record that is not direct comes from. -/
theorem via_mergeRecord {hop : String} {existing : Option (MemberRecord C)}
    (hdirect : (mergeRecord localIX now source options advertisement existing).direct ≠ true)
    (hvia : (mergeRecord localIX now source options advertisement existing).via = hop)
    (hhop : hop ≠ "") : (∃ record ∈ existing, record.via = hop) ∨ options.via = hop := by
  have hoffered : offeredVia localIX options advertisement.ixID = hop → options.via = hop := by
    intro h
    unfold offeredVia at h
    split_ifs at h
    · exact absurd h.symm hhop
    · exact h
  cases existing with
  | none => exact .inr (hoffered hvia)
  | some record =>
    have hnot : (record.direct || options.direct) ≠ true := hdirect
    change (if (record.direct || options.direct) = true then ""
      else if offeredVia localIX options advertisement.ixID = "" then record.via
      else offeredVia localIX options advertisement.ixID) = hop at hvia
    rw [if_neg hnot] at hvia
    split_ifs at hvia
    · exact .inl ⟨record, rfl, hvia⟩
    · exact .inr (hoffered hvia)

/-- Where the `via` of an IX that a merge leaves undirected comes from. -/
theorem via_merge {hop : String} (hhop : hop ≠ "")
    (hdirect : ¬ (mergeAdvertisementWithOptions localIX gate now source options advertisement
      members).Direct ixID)
    (hvia : (mergeAdvertisementWithOptions localIX gate now source options advertisement
      members).Via ixID hop) :
    members.Via ixID hop ∨
      (ixID = advertisement.ixID ∧ options.direct = false ∧ options.via = hop) := by
  rcases lookup_merge_cases localIX gate now source options advertisement members ixID with
    hsame | ⟨hid, -, hnew⟩
  · obtain ⟨record, hrecord, hhop⟩ := hvia
    exact .inl ⟨record, hsame.symm.trans hrecord, hhop⟩
  · obtain ⟨record, hrecord, hrecordVia⟩ := hvia
    obtain rfl := Option.some.inj (hnew.symm.trans hrecord)
    have hrecordDirect : (mergeRecord localIX now source options advertisement
        (members.lookup ixID)).direct ≠ true := fun h => hdirect ⟨_, hnew, h⟩
    rcases via_mergeRecord hrecordDirect hrecordVia hhop with ⟨old, hold, holdVia⟩ | hoption
    · exact .inl ⟨old, hold, holdVia⟩
    · refine .inr ⟨hid, ?_, hoption⟩
      cases hoptions : options.direct with
      | false => rfl
      | true => exact absurd (direct_mergeRecord hoptions) hrecordDirect

/-! ## Pages -/

/-- The remote records that a page may list, in the order of their ids. -/
def listedIDs (localID target : String) (now : ℤ) (members : Members C) : List String :=
  (members.records.keys.filter fun ixID =>
      !(localID != "" && ixID == localID) && !(target != "" && ixID == target) &&
        (members.lookup ixID).any fun record => record.direct && record.fresh now).insertionSort
    (· ≤ ·)

/-- `controlMembersResponse`: the advertisements of a page. `targetedLocal` is the own
advertisement as built for the node that asks, where its identity is known. -/
def controlMembersResponse (localAd : Advertisement C) (targetedLocal : Option (Advertisement C))
    (target cursor : String) (limit : ℕ) (now : ℤ) (members : Members C) :
    List (Advertisement C) :=
  let own := if localAd.ixID ≠ "" then [targetedLocal.getD localAd] else []
  let targeted :=
    if target ≠ "" ∧ target ≠ localAd.ixID then
      (((members.lookup target).filter fun record => record.direct && record.fresh now).map
        MemberRecord.advertisement).toList
    else []
  let ids := listedIDs localAd.ixID target now members
  let start := GoText.trimSpace cursor
  let rest := if start = "" then ids else ids.dropWhile fun id => !decide (start < id)
  let page := if 0 < limit then rest.take limit else rest
  own ++ targeted ++ page.filterMap fun id =>
    (members.lookup id).map MemberRecord.advertisement

/-- The advertisement is that of a direct, fresh record. -/
def Listed (now : ℤ) (members : Members C) (advertisement : Advertisement C) : Prop :=
  ∃ record, members.lookup advertisement.ixID = some record ∧ record.direct = true ∧
    record.fresh now = true ∧ record.advertisement = advertisement

theorem listed_of_lookup {id : String} {record : MemberRecord C}
    (hrecord : members.lookup id = some record)
    (hboth : (record.direct && record.fresh now) = true) :
    Listed now members record.advertisement := by
  rw [Bool.and_eq_true] at hboth
  refine ⟨record, ?_, hboth.1, hboth.2, rfl⟩
  rw [members.keyed id record hrecord]
  exact hrecord

theorem listed_of_mem_listedIDs {localID target : String} {id : String}
    (h : id ∈ listedIDs localID target now members) :
    ∃ record, members.lookup id = some record ∧ (record.direct && record.fresh now) = true := by
  unfold listedIDs at h
  rw [List.mem_insertionSort, List.mem_filter, Bool.and_eq_true, Option.any_eq_true] at h
  obtain ⟨-, -, record, hrecord, hboth⟩ := h
  exact ⟨record, hrecord, hboth⟩

/-- **A page holds the own advertisement and those of direct, fresh records.** -/
theorem mem_controlMembersResponse {localAd : Advertisement C}
    {targetedLocal : Option (Advertisement C)} {target cursor : String} {limit : ℕ}
    (h : advertisement ∈
      controlMembersResponse localAd targetedLocal target cursor limit now members) :
    (localAd.ixID ≠ "" ∧ advertisement = targetedLocal.getD localAd) ∨
      Listed now members advertisement := by
  unfold controlMembersResponse at h
  rw [List.mem_append, List.mem_append] at h
  rcases h with (hown | htargeted) | hpage
  · left
    split_ifs at hown with hlocal
    · exact ⟨hlocal, List.mem_singleton.mp hown⟩
    · simp at hown
  · right
    split_ifs at htargeted with htarget
    · rw [Option.mem_toList, Option.map_eq_some_iff] at htargeted
      obtain ⟨record, hrecord, rfl⟩ := htargeted
      rw [Option.filter_eq_some_iff] at hrecord
      exact listed_of_lookup hrecord.1 hrecord.2
    · simp at htargeted
  · right
    rw [List.mem_filterMap] at hpage
    obtain ⟨id, hid, hmap⟩ := hpage
    -- cursor and limit only cut the list of ids
    have hlisted : id ∈ listedIDs localAd.ixID target now members := by
      by_cases hlimit : 0 < limit <;> by_cases hstart : GoText.trimSpace cursor = "" <;>
        simp only [hlimit, hstart, if_true, if_false] at hid
      · exact List.mem_of_mem_take hid
      · exact (List.dropWhile_sublist _).subset (List.mem_of_mem_take hid)
      · exact hid
      · exact (List.dropWhile_sublist _).subset hid
    obtain ⟨record, hrecord, hboth⟩ := listed_of_mem_listedIDs hlisted
    rw [hrecord] at hmap
    injection hmap with hmap
    rw [← hmap]
    exact listed_of_lookup hrecord hboth

/-! ## Arrivals in different orders -/

/-- A node as the receiver of advertisements. -/
structure Receiver (C : Type) where
  localIX : String
  gate : Gate C

/-- An advertisement as it reaches a node: posted, or taken from a page. -/
structure Arrival (C : Type) where
  now : ℤ
  source : String
  options : MergeOptions
  advertisement : Advertisement C

def Receiver.mergeAll (receiver : Receiver C) (members : Members C)
    (arrivals : List (Arrival C)) : Members C :=
  arrivals.foldl (fun table arrival =>
    mergeAdvertisementWithOptions receiver.localIX receiver.gate arrival.now arrival.source
      arrival.options arrival.advertisement table) members

/-- The advertisement that the table holds for an IX. -/
def Members.stored (members : Members C) (ixID : String) : Option (Advertisement C) :=
  (members.lookup ixID).map MemberRecord.advertisement

/-- The advertisements are valid and admitted at the receiver, and of another IX. -/
def Receiver.Admits (receiver : Receiver C) (ixID : String) (ads : Finset (Advertisement C)) :
    Prop :=
  ixID ≠ receiver.localIX ∧
    ∀ advertisement ∈ ads, advertisement.ixID = ixID ∧ receiver.gate.passes advertisement = true

/-- The arrivals bring exactly these advertisements, in some order, each at least once. -/
def Delivers (arrivals : List (Arrival C)) (ads : Finset (Advertisement C)) : Prop :=
  ∀ advertisement, advertisement ∈ arrivals.map Arrival.advertisement ↔ advertisement ∈ ads

/-- What a merge does to the stored advertisement. -/
def keepNewer (kept : Option (Advertisement C)) (candidate : Advertisement C) :
    Option (Advertisement C) :=
  match kept with
  | none => some candidate
  | some existing => if advertisementNewer existing candidate then some candidate else some existing

theorem stored_merge (hpass : gate.passes advertisement = true)
    (hlocal : advertisement.ixID ≠ localIX) (now : ℤ) (source : String) (options : MergeOptions)
    (members : Members C) :
    (mergeAdvertisementWithOptions localIX gate now source options advertisement
      members).stored advertisement.ixID =
      keepNewer (members.stored advertisement.ixID) advertisement := by
  unfold Members.stored
  rw [lookup_merge hpass hlocal, if_pos rfl]
  cases members.lookup advertisement.ixID with
  | none => rfl
  | some existing =>
    show some (if _ then advertisement else existing.advertisement) =
      if _ then some advertisement else some existing.advertisement
    split_ifs <;> rfl

/-- The stored advertisement after a run of merges is a fold over the advertisements. -/
theorem stored_mergeAll {receiver : Receiver C} {ads : Finset (Advertisement C)}
    (hadmits : receiver.Admits ixID ads) (arrivals : List (Arrival C))
    (harrivals : ∀ arrival ∈ arrivals, arrival.advertisement ∈ ads) (members : Members C) :
    (receiver.mergeAll members arrivals).stored ixID =
      (arrivals.map Arrival.advertisement).foldl keepNewer (members.stored ixID) := by
  induction arrivals generalizing members with
  | nil => rfl
  | cons arrival rest ih =>
    obtain ⟨hid, hpass⟩ := hadmits.2 _ (harrivals arrival (by simp))
    have hstored := stored_merge hpass (hid ▸ hadmits.1) arrival.now arrival.source
      arrival.options members
    rw [hid] at hstored
    show (receiver.mergeAll _ rest).stored ixID = List.foldl keepNewer _ _
    rw [ih (fun other hother => harrivals other (by simp [hother])), hstored]
    rfl

/-- The first advertisement beats the second in every order: a later sequence number, or
the same head issued later. -/
def Outranks (top other : Advertisement C) : Prop :=
  other.configHead.seq < top.configHead.seq ∨
    (other.configHead = top.configHead ∧ other.issuedAt < top.issuedAt)

theorem advertisementNewer_iff (existing candidate : Advertisement C) :
    advertisementNewer existing candidate = true ↔
      Outranks candidate existing ∨
        (candidate.configHead.seq = existing.configHead.seq ∧
          candidate.configHead.hash ≠ existing.configHead.hash) := by
  unfold advertisementNewer Outranks
  obtain ⟨_, ⟨seq₁, hash₁⟩, _, issued₁, _⟩ := existing
  obtain ⟨_, ⟨seq₂, hash₂⟩, _, issued₂, _⟩ := candidate
  by_cases hseq : seq₂ = seq₁
  · by_cases hhash : hash₂ = hash₁ <;> simp [hseq, hhash, eq_comm]
  · have hback : seq₁ ≠ seq₂ := fun h => hseq h.symm
    simp [hseq, hback]

variable {top : Advertisement C}

theorem not_newer_of_outranks {other : Advertisement C} (h : Outranks top other) :
    advertisementNewer top other = false := by
  rw [← Bool.not_eq_true, advertisementNewer_iff]
  rintro (hback | ⟨hseq, hhash⟩)
  · rcases h with hlt | ⟨hhead, hissued⟩ <;> rcases hback with hlt' | ⟨hhead', hissued'⟩
    · omega
    · rw [hhead'] at hlt
      omega
    · rw [hhead] at hlt'
      omega
    · omega
  · rcases h with hlt | ⟨hhead, -⟩
    · omega
    · exact hhash (by rw [hhead])

/-- A merge takes the candidate or leaves what was kept. -/
theorem keepNewer_cases (kept : Option (Advertisement C)) (candidate : Advertisement C) :
    keepNewer kept candidate = some candidate ∨
      ∃ existing, kept = some existing ∧ keepNewer kept candidate = some existing := by
  cases kept with
  | none => exact .inl rfl
  | some existing =>
    unfold keepNewer
    dsimp only
    split_ifs
    · exact .inl rfl
    · exact .inr ⟨existing, rfl, rfl⟩

theorem keepNewer_of_outranks {other : Advertisement C} (h : other = top ∨ Outranks top other) :
    keepNewer (some top) other = some top ∧ keepNewer (some other) top = some top := by
  rcases h with rfl | hout
  · simp [keepNewer]
  · simp [keepNewer, not_newer_of_outranks hout, (advertisementNewer_iff _ _).mpr (.inl hout)]

/-- An advertisement that outranks all others is kept from its arrival on. -/
theorem foldl_keepNewer_of_outranks (ads : List (Advertisement C))
    (hads : ∀ other ∈ ads, other = top ∨ Outranks top other) (kept : Option (Advertisement C))
    (hkept : ∀ other ∈ kept, other = top ∨ Outranks top other) (htop : kept = some top ∨ top ∈ ads) :
    ads.foldl keepNewer kept = some top := by
  induction ads generalizing kept with
  | nil =>
    rcases htop with rfl | h
    · rfl
    · simp at h
  | cons candidate rest ih =>
    have hcandidate := hads candidate (by simp)
    refine ih (fun other hother => hads other (by simp [hother])) _ ?_ ?_
    · intro other hother
      rcases keepNewer_cases kept candidate with h | ⟨existing, rfl, h⟩ <;>
        rw [h] at hother <;> cases hother
      · exact hcandidate
      · exact hkept _ rfl
    · rcases htop with rfl | hmem
      · exact .inl (keepNewer_of_outranks hcandidate).1
      · rcases List.mem_cons.mp hmem with rfl | hrest
        · left
          cases kept with
          | none => rfl
          | some existing => exact (keepNewer_of_outranks (hkept existing rfl)).2
        · exact .inr hrest

/-- What no later advertisement is newer than stays. -/
theorem foldl_keepNewer_of_not_newer {kept : Advertisement C} (ads : List (Advertisement C))
    (h : ∀ other ∈ ads, advertisementNewer kept other = false) :
    ads.foldl keepNewer (some kept) = some kept := by
  induction ads with
  | nil => rfl
  | cons candidate rest ih =>
    have hkeep : keepNewer (some kept) candidate = some kept := by
      simp [keepNewer, h candidate (by simp)]
    rw [List.foldl_cons, hkeep]
    exact ih fun other hother => h other (by simp [hother])

theorem mem_foldl_keepNewer (ads : List (Advertisement C)) (kept : Option (Advertisement C))
    {result : Advertisement C} (h : ads.foldl keepNewer kept = some result) :
    result ∈ kept ∨ result ∈ ads := by
  induction ads generalizing kept with
  | nil => exact .inl h
  | cons candidate rest ih =>
    rcases ih _ h with hkept | hrest
    · rcases keepNewer_cases kept candidate with hcase | ⟨existing, rfl, hcase⟩ <;>
        rw [hcase] at hkept
      · cases hkept
        exact .inr (by simp)
      · exact .inl hkept
    · exact .inr (by simp [hrest])

/-- If every order keeps the same advertisement, it outranks all others. -/
theorem outranks_of_foldl_eq {ads : List (Advertisement C)}
    (h : ∀ order : List (Advertisement C), (∀ other, other ∈ order ↔ other ∈ ads) →
      order.foldl keepNewer none = some top) : ∀ other ∈ ads, other ≠ top → Outranks top other := by
  -- deliver one advertisement once more, last
  have hlast : ∀ other ∈ ads, other ≠ top → advertisementNewer top other = false := by
    intro other hother hne
    have hagain := h (ads ++ [other]) (by
      intro ad
      rw [List.mem_append, List.mem_singleton]
      exact or_iff_left_of_imp fun had => had ▸ hother)
    rw [List.foldl_append, h ads fun _ => Iff.rfl] at hagain
    by_contra hnewer
    rw [Bool.not_eq_false] at hnewer
    have : keepNewer (some top) other = some top := hagain
    simp only [keepNewer, hnewer, if_true] at this
    exact hne (Option.some.inj this)
  intro other hother hne
  have hnot := hlast other hother hne
  by_contra hout
  -- the two tie, so whichever comes first stays
  obtain ⟨hhead, hissued⟩ : other.configHead = top.configHead ∧ other.issuedAt = top.issuedAt := by
    rw [← Bool.not_eq_true, advertisementNewer_iff] at hnot
    unfold Outranks at hnot hout
    obtain ⟨_, ⟨seq₁, hash₁⟩, _, issued₁, _⟩ := top
    obtain ⟨_, ⟨seq₂, hash₂⟩, _, issued₂, _⟩ := other
    simp only [not_or, not_and, not_lt, Head.mk.injEq, ne_eq, not_not] at hnot hout ⊢
    obtain ⟨⟨hle, hlater⟩, hhash⟩ := hnot
    have hseq : seq₂ = seq₁ := le_antisymm hle hout.1
    have hsame := hhash hseq
    exact ⟨⟨hseq, hsame⟩, le_antisymm (hlater ⟨hseq.symm, hsame.symm⟩) (hout.2 ⟨hseq, hsame⟩)⟩
  have hfirst := h (other :: ads) (by
    intro ad
    rw [List.mem_cons]
    exact or_iff_right_of_imp fun had => had ▸ hother)
  have hstays : (other :: ads).foldl keepNewer none = some other := by
    refine foldl_keepNewer_of_not_newer ads fun ad had => ?_
    have hsame : advertisementNewer other ad = advertisementNewer top ad := by
      unfold advertisementNewer
      rw [hhead, hissued]
    rw [hsame]
    by_cases hadtop : ad = top
    · rw [hadtop]
      simp [advertisementNewer]
    · exact hlast ad had hadtop
  rw [hstays] at hfirst
  exact hne (Option.some.inj hfirst)

/-- The arrivals of advertisements that are posted one after the other. -/
def postedInOrder (ads : List (Advertisement C)) : List (Arrival C) :=
  ads.map fun advertisement => ⟨0, "", postOptions, advertisement⟩

theorem map_postedInOrder (ads : List (Advertisement C)) :
    (postedInOrder ads).map Arrival.advertisement = ads := by
  unfold postedInOrder
  rw [List.map_map]
  exact List.map_id ads

/-- **When two receivers of the same advertisements keep the same one.** They do so for
every two orders of arrival exactly if one advertisement has a later sequence number than
each other, or the same head and a later time of issue. -/
theorem mergeAll_agree_iff (left right : Receiver C) (ixID : String)
    (ads : Finset (Advertisement C)) (hleft : left.Admits ixID ads)
    (hright : right.Admits ixID ads) :
    (∀ arrivals arrivals' : List (Arrival C), Delivers arrivals ads → Delivers arrivals' ads →
        (left.mergeAll Members.empty arrivals).stored ixID =
          (right.mergeAll Members.empty arrivals').stored ixID) ↔
      ads = ∅ ∨ ∃ top ∈ ads, ∀ other ∈ ads, other ≠ top → Outranks top other := by
  -- each side is the fold over the advertisements in their order
  have hfold : ∀ (receiver : Receiver C), receiver.Admits ixID ads →
      ∀ arrivals : List (Arrival C), Delivers arrivals ads →
        (receiver.mergeAll Members.empty arrivals).stored ixID =
          (arrivals.map Arrival.advertisement).foldl keepNewer none := by
    intro receiver hadmits arrivals hdelivers
    refine stored_mergeAll hadmits arrivals (fun arrival harrival => ?_) Members.empty
    exact (hdelivers _).mp (List.mem_map_of_mem harrival)
  constructor
  · intro hagree
    rcases Finset.eq_empty_or_nonempty ads with hempty | ⟨some₀, hsome⟩
    · exact .inl hempty
    right
    have hposted : ∀ order : List (Advertisement C), (∀ other, other ∈ order ↔ other ∈ ads) →
        order.foldl keepNewer none = ads.toList.foldl keepNewer none := by
      intro order horder
      have hdelivers : Delivers (postedInOrder order) ads := by
        intro other
        rw [map_postedInOrder]
        exact horder other
      have hall : Delivers (postedInOrder ads.toList) ads := by
        intro other
        rw [map_postedInOrder]
        exact Finset.mem_toList
      have h := hagree _ _ hdelivers hall
      rwa [hfold left hleft _ hdelivers, hfold right hright _ hall, map_postedInOrder,
        map_postedInOrder] at h
    cases hresult : ads.toList.foldl keepNewer none with
    | none =>
      -- something was delivered, so something is kept
      exfalso
      have hrepeat := hposted (ads.toList ++ [some₀]) (by
        intro other
        rw [List.mem_append, Finset.mem_toList, List.mem_singleton]
        exact or_iff_left_of_imp fun hlast => hlast ▸ hsome)
      rw [List.foldl_append, hresult] at hrepeat
      exact absurd hrepeat (by simp [keepNewer])
    | some top =>
      have hout : ∀ other ∈ ads.toList, other ≠ top → Outranks top other := by
        apply outranks_of_foldl_eq
        intro order horder
        rw [hposted order fun other => (horder other).trans Finset.mem_toList, hresult]
      refine ⟨top, ?_, fun other hother => hout other (Finset.mem_toList.mpr hother)⟩
      rcases mem_foldl_keepNewer _ none hresult with h | h
      · simp at h
      · exact Finset.mem_toList.mp h
  · intro hcondition arrivals arrivals' hdelivers hdelivers'
    rw [hfold left hleft arrivals hdelivers, hfold right hright arrivals' hdelivers']
    rcases hcondition with rfl | ⟨top, htop, hout⟩
    · have hnil : ∀ order : List (Arrival C), Delivers order ∅ → order = [] := by
        intro order horder
        cases order with
        | nil => rfl
        | cons arrival rest => exact absurd ((horder arrival.advertisement).mp (by simp)) (by simp)
      rw [hnil arrivals hdelivers, hnil arrivals' hdelivers']
    · have hkeeps : ∀ order : List (Arrival C), Delivers order ads →
          (order.map Arrival.advertisement).foldl keepNewer none = some top := by
        intro order horder
        refine foldl_keepNewer_of_outranks _ (fun other hother => ?_) none (by simp)
          (.inr ((horder top).mpr htop))
        by_cases hsame : other = top
        · exact .inl hsame
        · exact .inr (hout other ((horder other).mp hother) hsame)
      rw [hkeeps arrivals hdelivers, hkeeps arrivals' hdelivers']

/-- A node that accepts every advertisement. -/
def openGate : Gate C := ⟨fun _ => .ok (), fun _ => .ok (), fun _ => .ok ()⟩

/-- The advertisement of `ix-x` at a head. -/
def sampleAd (seq : ℕ) (hash : String) (issuedAt : ℤ) : Advertisement Unit :=
  ⟨"ix-x", ⟨seq, hash⟩, "", issuedAt, ()⟩

/-- Two advertisements issued around a fork: each of the two orders keeps the later arrival. -/
theorem mergeAll_depends_on_order :
    let node : Receiver Unit := ⟨"ix-a", openGate⟩
    let old := sampleAd 4 "left" 10
    let new := sampleAd 4 "right" 20
    node.Admits "ix-x" {old, new} ∧
      Delivers (postedInOrder [old, new]) {old, new} ∧
      Delivers (postedInOrder [new, old]) {old, new} ∧
      (node.mergeAll Members.empty (postedInOrder [old, new])).stored "ix-x" = some new ∧
      (node.mergeAll Members.empty (postedInOrder [new, old])).stored "ix-x" = some old ∧
      old ≠ new := by
  refine ⟨⟨by decide, ?_⟩, ?_, ?_, by decide +kernel, by decide +kernel, by decide⟩
  · decide +kernel
  · intro ad
    simp [map_postedInOrder]
  · intro ad
    simp [map_postedInOrder, or_comm]

/-- Advertisements of growing heads are kept alike in every order. -/
theorem mergeAll_agree_growing :
    let left : Receiver Unit := ⟨"ix-a", openGate⟩
    let right : Receiver Unit := ⟨"ix-b", openGate⟩
    let ads : Finset (Advertisement Unit) := {sampleAd 4 "left" 10, sampleAd 5 "next" 5}
    ∀ arrivals arrivals', Delivers arrivals ads → Delivers arrivals' ads →
      (left.mergeAll Members.empty arrivals).stored "ix-x" =
        (right.mergeAll Members.empty arrivals').stored "ix-x" := by
  refine (mergeAll_agree_iff ⟨"ix-a", openGate⟩ ⟨"ix-b", openGate⟩ "ix-x"
    {sampleAd 4 "left" 10, sampleAd 5 "next" 5} ⟨by decide, by decide +kernel⟩
    ⟨by decide, by decide +kernel⟩).mpr (.inr ⟨sampleAd 5 "next" 5, by simp, ?_⟩)
  intro other hother hne
  rcases Finset.mem_insert.mp hother with rfl | h
  · exact .inl (by decide)
  · exact absurd (Finset.mem_singleton.mp h) hne

end Membership
