/-
# Paging through the members

The answer to a poll with its cursor and total (`controlMembersResponse` in
`internal/daemon/api.go`), and a client that follows the cursors (`fetchMembers` in
`internal/daemon/membership.go`).  A cursor is the id that ends a page; client and server
trim it, and an id may have blanks around it.

* `follows_of_fetches`, `fetches_of_follows` : the answers a client gets are the pages of a
  sorted list, read with a trimmed cursor;
* `paging_complete_iff` : for which ids a client gets every member once.
-/
import TrustIX.Membership
import TrustIX.CursorPages

namespace Membership

open CursorPages

variable {C : Type}

/-! ## The answer -/

def maxControlMemberPageSize : ℕ := 4096

/-- Zero stands for no limit. -/
def clampControlMemberPageSize (value : ℤ) : ℕ :=
  if value ≤ 0 then 0
  else if value > maxControlMemberPageSize then maxControlMemberPageSize
  else value.toNat

/-- `membersResponse`. -/
structure MembersResponse (C : Type) where
  members : List (Advertisement C)
  nextCursor : String
  limit : ℕ
  total : ℕ
  truncated : Bool

/-- What an answer depends on: the own advertisement, as it is and as it is made for the
node that asks, the id of that node, the time and the table. -/
structure Server (C : Type) where
  localAd : Advertisement C
  targetedLocal : Option (Advertisement C)
  own : ∀ ad ∈ targetedLocal, ad.ixID = localAd.ixID
  target : String
  now : ℤ
  members : Members C

namespace Server

def ids (s : Server C) : List String := listedIDs s.localAd.ixID s.target s.now s.members

/-- The record of the node that asks, if it is on every page. -/
def targeted (s : Server C) : Option (MemberRecord C) :=
  if s.target ≠ "" ∧ s.target ≠ s.localAd.ixID then
    (s.members.lookup s.target).filter fun record => record.direct && record.fresh s.now
  else none

def response (s : Server C) (limit : ℤ) (cursor : String) : MembersResponse C :=
  let remoteLimit := clampControlMemberPageSize limit
  let start := GoText.trimSpace cursor
  let rest := if start = "" then s.ids else s.ids.dropWhile fun id => !decide (start < id)
  let page := if 0 < remoteLimit then rest.take remoteLimit else rest
  let lastRemote := page.getLast?.getD ""
  let nextCursor :=
    if 0 < remoteLimit ∧ (s.ids.length - rest.length) + page.length < s.ids.length ∧
      lastRemote ≠ "" then lastRemote
    else ""
  { members := controlMembersResponse s.localAd s.targetedLocal s.target cursor remoteLimit
      s.now s.members
    nextCursor := nextCursor
    limit := remoteLimit
    total := s.ids.length + (if s.localAd.ixID ≠ "" then 1 else 0) +
      (if s.targeted.isSome then 1 else 0)
    truncated := nextCursor ≠ "" }

end Server

/-- The loop of `fetchMembers`, without its limits on pages and imports: the answers from a
cursor on. -/
inductive Fetches (serve : String → MembersResponse C) : String → List (MembersResponse C) → Prop
  | last {cursor : String} (hnext : GoText.trimSpace (serve cursor).nextCursor = "") :
      Fetches serve cursor [serve cursor]
  | more {cursor : String} {pages : List (MembersResponse C)}
      (hnext : GoText.trimSpace (serve cursor).nextCursor ≠ "")
      (hrest : Fetches serve (GoText.trimSpace (serve cursor).nextCursor) pages) :
      Fetches serve cursor (serve cursor :: pages)

/-! ## Ids -/

/-- The ids on every page. -/
def Server.headIDs (s : Server C) : List String :=
  (if s.localAd.ixID ≠ "" then [s.localAd.ixID] else []) ++
    (s.targeted.map fun record => record.advertisement.ixID).toList

/-- The member is known directly and has not expired. -/
def Server.Known (s : Server C) (id : String) : Prop :=
  ∃ record, s.members.lookup id = some record ∧ record.direct = true ∧ record.fresh s.now = true

variable {s : Server C} {limit : ℤ} {cursor id : String}

theorem mem_targeted {record : MemberRecord C} : s.targeted = some record ↔
    (s.target ≠ "" ∧ s.target ≠ s.localAd.ixID) ∧ s.members.lookup s.target = some record ∧
      record.direct = true ∧ record.fresh s.now = true := by
  unfold Server.targeted
  split_ifs with htarget
  · rw [Option.filter_eq_some_iff, Bool.and_eq_true]
    exact (and_iff_right htarget).symm
  · simp [htarget]

theorem mem_headIDs : id ∈ s.headIDs ↔ (id = s.localAd.ixID ∧ id ≠ "") ∨
    (id = s.target ∧ id ≠ "" ∧ id ≠ s.localAd.ixID ∧ s.Known id) := by
  unfold Server.headIDs
  rw [List.mem_append]
  refine or_congr ?_ ?_
  · split_ifs with hlocal
    · rw [List.mem_singleton]
      exact ⟨fun h => ⟨h, h ▸ hlocal⟩, And.left⟩
    · refine iff_of_false (by simp) fun h => hlocal (h.1 ▸ h.2)
  · rw [Option.mem_toList, Option.map_eq_some_iff]
    constructor
    · rintro ⟨record, hrecord, rfl⟩
      obtain ⟨⟨hne, hother⟩, hlookup, hlisted⟩ := mem_targeted.mp hrecord
      rw [s.members.keyed _ record hlookup]
      exact ⟨rfl, hne, hother, record, hlookup, hlisted⟩
    · rintro ⟨rfl, hne, hother, record, hlookup, hlisted⟩
      exact ⟨record, mem_targeted.mpr ⟨⟨hne, hother⟩, hlookup, hlisted⟩,
        s.members.keyed _ record hlookup⟩

theorem mem_ids : id ∈ s.ids ↔ s.Known id ∧ (s.localAd.ixID = "" ∨ id ≠ s.localAd.ixID) ∧
    (s.target = "" ∨ id ≠ s.target) := by
  unfold Server.ids listedIDs Server.Known
  rw [List.mem_insertionSort, List.mem_filter, Bool.and_eq_true, Bool.and_eq_true,
    Option.any_eq_true]
  constructor
  · rintro ⟨-, ⟨hlocal, htarget⟩, record, hrecord, hboth⟩
    rw [Bool.and_eq_true] at hboth
    exact ⟨⟨record, hrecord, hboth⟩, by simpa using hlocal, by simpa using htarget⟩
  · rintro ⟨⟨record, hrecord, hboth⟩, hlocal, htarget⟩
    refine ⟨s.members.mem_keys hrecord, ⟨by simpa using hlocal, by simpa using htarget⟩, record,
      hrecord, ?_⟩
    rw [Bool.and_eq_true]
    exact hboth

theorem sorted_ids : s.ids.Pairwise (· < ·) := by
  have hle : s.ids.Pairwise (· ≤ ·) := List.pairwise_insertionSort _ _
  have hnodup : s.ids.Nodup := by
    refine (List.perm_insertionSort _ _).nodup_iff.mpr (List.Nodup.filter _ ?_)
    exact s.members.records.nodupKeys
  exact (hle.and hnodup).imp fun h => lt_of_le_of_ne h.1 h.2

theorem nodup_headIDs : s.headIDs.Nodup := by
  refine List.Nodup.append (by split_ifs <;> simp) ?_ ?_
  · cases s.targeted <;> simp
  intro id hown htargeted
  rw [Option.mem_toList, Option.map_eq_some_iff] at htargeted
  obtain ⟨record, hrecord, rfl⟩ := htargeted
  obtain ⟨⟨-, hother⟩, hlookup, -⟩ := mem_targeted.mp hrecord
  rw [s.members.keyed _ record hlookup] at hown
  split_ifs at hown
  · exact hother (List.mem_singleton.mp hown)
  · simp at hown

theorem not_mem_ids_of_mem_headIDs (h : id ∈ s.headIDs) : id ∉ s.ids := by
  rw [mem_ids]
  rintro ⟨-, hlocal, htarget⟩
  rcases mem_headIDs.mp h with ⟨hid, hne⟩ | ⟨hid, hne, -⟩
  · rcases hlocal with hempty | hother
    · exact hne (hid.trans hempty)
    · exact hother hid
  · rcases htarget with hempty | hother
    · exact hne (hid.trans hempty)
    · exact hother hid

/-! ## An answer is a page -/

/-- A cursor as it is read. -/
def cursorKey (cursor : String) : Option String :=
  if GoText.trimSpace cursor = "" then none else some (GoText.trimSpace cursor)

theorem cursorKey_empty : cursorKey "" = none := if_pos (by simp [GoText.trimSpace])

theorem cursorKey_trimSpace {last : String} (h : GoText.trimSpace last ≠ "") :
    cursorKey (GoText.trimSpace last) = some (GoText.trimSpace last) := by
  unfold cursorKey
  rw [GoText.trimSpace_trimSpace, if_neg h]

theorem after_cursorKey (ids : List String) (cursor : String) :
    (if GoText.trimSpace cursor = "" then ids
      else ids.dropWhile fun id => !decide (GoText.trimSpace cursor < id)) =
      after ids (cursorKey cursor) := by
  unfold cursorKey
  split_ifs with hempty
  · rfl
  · refine congrArg (fun p => List.dropWhile p ids) (funext fun id => ?_)
    rw [← decide_not, decide_eq_decide]
    exact not_lt

/-- The page of an answer. -/
def Server.page (s : Server C) (limit : ℤ) (cursor : String) : List String :=
  CursorPages.page (clampControlMemberPageSize limit) s.ids (cursorKey cursor)

theorem members_response : (s.response limit cursor).members.map Advertisement.ixID =
    s.headIDs ++ s.page limit cursor := by
  have hfilter : ∀ page : List String, (∀ id ∈ page, id ∈ s.ids) →
      (page.filterMap fun id => (s.members.lookup id).map MemberRecord.advertisement).map
        Advertisement.ixID = page := by
    intro page hpage
    induction page with
    | nil => rfl
    | cons id rest ih =>
      obtain ⟨⟨record, hrecord, -⟩, -⟩ := mem_ids.mp (hpage id List.mem_cons_self)
      rw [List.filterMap_cons_some (by rw [hrecord]; rfl), List.map_cons,
        s.members.keyed id record hrecord,
        ih fun other hother => hpage other (List.mem_cons_of_mem _ hother)]
  unfold Server.response controlMembersResponse Server.page CursorPages.page Server.headIDs
  rw [List.map_append, List.map_append]
  congr 1
  · congr 1
    · split_ifs with hlocal
      · cases hlocalAd : s.targetedLocal with
        | none => rfl
        | some ad => exact congrArg (fun id => [id]) (s.own ad hlocalAd)
      · rfl
    · unfold Server.targeted
      split_ifs with htarget
      · cases (s.members.lookup s.target).filter fun record => record.direct && record.fresh s.now
          <;> rfl
      · rfl
  · rw [after_cursorKey, ← Server.ids]
    apply hfilter
    intro id hid
    split_ifs at hid with hsize
    · exact (after_sublist _ _).subset (List.mem_of_mem_take hid)
    · exact (after_sublist _ _).subset hid

/-- The cursor of an answer is the one of its page, as no id is empty. -/
theorem nextCursor_response (hids : ∀ id ∈ s.ids, id ≠ "") :
    (s.response limit cursor).nextCursor =
      (next (clampControlMemberPageSize limit) s.ids (cursorKey cursor)).getD "" := by
  unfold Server.response
  simp only
  rw [after_cursorKey, ← CursorPages.page]
  have hsub := after_sublist s.ids (cursorKey cursor)
  have hle := hsub.length_le
  generalize clampControlMemberPageSize limit = size
  by_cases hmore : 0 < size ∧ size < (after s.ids (cursorKey cursor)).length
  · obtain ⟨front, last, hnext, hpage, hafter⟩ := page_of_more hmore
    have hlast := mem_of_next hnext
    have hlength := congrArg List.length hafter
    simp only [List.length_append, List.length_cons, List.length_drop] at hlength
    rw [hnext, hpage, List.getLast?_concat]
    refine if_pos ⟨hmore.1, ?_, hids last hlast⟩
    rw [List.length_append, List.length_singleton]
    omega
  · obtain ⟨hnext, hpage⟩ := page_of_not_more hmore
    rw [hnext, hpage]
    refine if_neg fun h => ?_
    omega

/-! ## A client reads pages -/

/-- Where a client goes on. -/
theorem cursorKey_nextCursor (hids : ∀ id ∈ s.ids, GoText.trimSpace id ≠ "") :
    cursorKey (GoText.trimSpace (s.response limit cursor).nextCursor) =
      (next (clampControlMemberPageSize limit) s.ids (cursorKey cursor)).map GoText.trimSpace := by
  have hne : ∀ id ∈ s.ids, id ≠ "" := by
    rintro id hid rfl
    exact hids "" hid rfl
  rw [nextCursor_response hne]
  cases hnext : next (clampControlMemberPageSize limit) s.ids (cursorKey cursor) with
  | none =>
    have hempty : GoText.trimSpace "" = "" := by simp [GoText.trimSpace]
    rw [Option.getD_none, hempty, cursorKey_empty, Option.map_none]
  | some last => exact cursorKey_trimSpace (hids last (mem_of_next hnext))

theorem cursorKey_eq_none {cursor : String} :
    cursorKey (GoText.trimSpace cursor) = none ↔ GoText.trimSpace cursor = "" := by
  unfold cursorKey
  rw [GoText.trimSpace_trimSpace]
  split_ifs with h <;> simp [h]

variable {responses : List (MembersResponse C)}

/-- The answers a client gets are the pages of a reader of the sorted ids, each with the own
id and that of the node that asks before it. -/
theorem follows_of_fetches (hids : ∀ id ∈ s.ids, GoText.trimSpace id ≠ "")
    (h : Fetches (s.response limit) cursor responses) :
    ∃ pages, Follows GoText.trimSpace (clampControlMemberPageSize limit) s.ids
      (cursorKey cursor) pages ∧
      responses.map (fun r => r.members.map Advertisement.ixID) = pages.map (s.headIDs ++ ·) := by
  induction h with
  | last hnext =>
    rw [← cursorKey_eq_none, cursorKey_nextCursor hids, Option.map_eq_none_iff] at hnext
    exact ⟨_, .last hnext, by simp [members_response, Server.page]⟩
  | more hnext hrest ih =>
    obtain ⟨pages, hpages, hmap⟩ := ih
    rw [cursorKey_nextCursor hids] at hpages
    rw [ne_eq, ← cursorKey_eq_none, cursorKey_nextCursor hids, Option.map_eq_none_iff] at hnext
    obtain ⟨last, hlast⟩ := Option.ne_none_iff_exists'.mp hnext
    rw [hlast] at hpages
    exact ⟨_, .more hlast hpages, by simp [hmap, members_response, Server.page]⟩

theorem fetches_of_follows (hids : ∀ id ∈ s.ids, GoText.trimSpace id ≠ "")
    {key : Option String} {pages : List (List String)}
    (h : Follows GoText.trimSpace (clampControlMemberPageSize limit) s.ids key pages)
    (hkey : cursorKey cursor = key) :
    ∃ responses, Fetches (s.response limit) cursor responses ∧
      responses.map (fun r => r.members.map Advertisement.ixID) = pages.map (s.headIDs ++ ·) := by
  induction h generalizing cursor with
  | last hnext =>
    subst hkey
    refine ⟨_, .last ?_, by simp [members_response, Server.page]⟩
    rw [← cursorKey_eq_none, cursorKey_nextCursor hids, hnext, Option.map_none]
  | more hnext hrest ih =>
    subst hkey
    obtain ⟨responses, hresponses, hmap⟩ :=
      @ih (GoText.trimSpace (s.response limit cursor).nextCursor)
        (by rw [cursorKey_nextCursor hids, hnext, Option.map_some])
    refine ⟨_, .more ?_ hresponses, by simp [hmap, members_response, Server.page]⟩
    rw [ne_eq, ← cursorKey_eq_none, cursorKey_nextCursor hids, hnext, Option.map_some]
    simp

/-! ## What a client gets -/

/-- The members that there are: the node itself and those that it knows. -/
def Server.available (s : Server C) : Finset String := (s.headIDs ++ s.ids).toFinset

/-- Every page has the own member and the one that asks, every other member that is known is
on one page, there is nothing else, and the total is right. -/
structure Delivered (s : Server C) (pages : List (MembersResponse C)) : Prop where
  every : ∀ page ∈ pages, ∀ id ∈ s.headIDs, (page.members.map Advertisement.ixID).count id = 1
  once : ∀ id, s.Known id → id ∉ s.headIDs →
    (pages.flatMap fun page => page.members.map Advertisement.ixID).count id = 1
  listed : ∀ page ∈ pages, ∀ ad ∈ page.members,
    (s.localAd.ixID ≠ "" ∧ ad = s.targetedLocal.getD s.localAd) ∨ Listed s.now s.members ad
  total : ∀ page ∈ pages, page.total = s.available.card

theorem length_headIDs : s.headIDs.length =
    (if s.localAd.ixID ≠ "" then 1 else 0) + if s.targeted.isSome then 1 else 0 := by
  unfold Server.headIDs
  rw [List.length_append]
  congr 1
  · split_ifs <;> rfl
  · cases s.targeted <;> rfl

theorem total_response : (s.response limit cursor).total = s.available.card := by
  have hnodup : (s.headIDs ++ s.ids).Nodup :=
    nodup_headIDs.append (sorted_ids.imp ne_of_lt) fun id hhead => not_mem_ids_of_mem_headIDs hhead
  unfold Server.available
  rw [List.toFinset_card_of_nodup hnodup, List.length_append, length_headIDs]
  show s.ids.length + _ + _ = _
  rw [Nat.add_assoc, Nat.add_comm]

theorem exists_response_of_mem {serve : String → MembersResponse C} {cursor : String}
    (h : Fetches serve cursor responses)
    {page : MembersResponse C} (hpage : page ∈ responses) : ∃ cursor, page = serve cursor := by
  induction h with
  | last hnext => exact ⟨_, List.mem_singleton.mp hpage⟩
  | more hnext hrest ih =>
    rcases List.mem_cons.mp hpage with rfl | hpage
    · exact ⟨_, rfl⟩
    · exact ih hpage

theorem mem_ids_of_known (hknown : s.Known id) (hnot : id ∉ s.headIDs) : id ∈ s.ids := by
  rw [mem_headIDs, not_or] at hnot
  refine mem_ids.mpr ⟨hknown, ?_, ?_⟩
  · by_contra h
    rw [not_or, not_not] at h
    exact hnot.1 ⟨h.2, h.2 ▸ h.1⟩
  · by_contra h
    rw [not_or, not_not] at h
    refine hnot.2 ⟨h.2, h.2 ▸ h.1, fun hlocal => ?_, hknown⟩
    exact hnot.1 ⟨hlocal, h.2 ▸ h.1⟩

/-- What stands on every page does not count for the others. -/
theorem count_flatten_map_append {heads : List String} (h : id ∉ heads)
    (pages : List (List String)) :
    (pages.map (heads ++ ·)).flatten.count id = pages.flatten.count id := by
  induction pages with
  | nil => rfl
  | cons page rest ih =>
    rw [List.map_cons, List.flatten_cons, List.flatten_cons, List.count_append,
      List.count_append, List.count_append, ih, List.count_eq_zero_of_not_mem h, Nat.zero_add]

/-- A reader that gets the whole list makes a client that gets every member. -/
theorem delivered_of_flatten
    (hfetches : Fetches (s.response limit) cursor responses) {pages : List (List String)}
    (hmap : responses.map (fun r => r.members.map Advertisement.ixID) = pages.map (s.headIDs ++ ·))
    (hflatten : pages.flatten = s.ids) : Delivered s responses := by
  refine ⟨fun page hpage id hid => ?_, fun id hknown hnot => ?_, fun page hpage ad had => ?_,
    fun page hpage => ?_⟩
  · obtain ⟨page', hpage', hids⟩ : ∃ page' ∈ pages,
        s.headIDs ++ page' = page.members.map Advertisement.ixID := by
      rw [← List.mem_map, ← hmap]
      exact List.mem_map_of_mem hpage
    have hnot : id ∉ page' := by
      intro hmem
      apply not_mem_ids_of_mem_headIDs hid
      rw [← hflatten]
      exact List.mem_flatten_of_mem hpage' hmem
    rw [← hids, List.count_append, List.count_eq_zero_of_not_mem hnot,
      List.count_eq_one_of_mem nodup_headIDs hid]
  · have hnodup : s.ids.Nodup := sorted_ids.imp ne_of_lt
    rw [List.flatMap_def, hmap, count_flatten_map_append hnot, hflatten]
    exact List.count_eq_one_of_mem hnodup (mem_ids_of_known hknown hnot)
  · obtain ⟨cursor, rfl⟩ := exists_response_of_mem hfetches hpage
    exact mem_controlMembersResponse had
  · obtain ⟨cursor, rfl⟩ := exists_response_of_mem hfetches hpage
    exact total_response

/-- A client that starts without a cursor stops, and gets what it should. -/
def Server.Complete (s : Server C) (limit : ℤ) : Prop :=
  ∃ pages, Fetches (s.response limit) "" pages ∧ Delivered s pages

/-- The members of the table have ids among these. -/
def Server.Within (s : Server C) (ids : Set String) : Prop :=
  ∀ id record, s.members.lookup id = some record → id ∈ ids

/-- Trimmed, an id stays between itself and the greater ones. -/
def TrimKeepsOrder (ids : Set String) : Prop :=
  ∀ a ∈ ids, ∀ c ∈ ids, a < c → a ≤ GoText.trimSpace a ∧ GoText.trimSpace a < c

theorem complete_of_trimKeepsOrder {ids : Set String}
    (hids : ∀ id ∈ ids, GoText.trimSpace id ≠ "") (htrim : TrimKeepsOrder ids)
    (hwithin : s.Within ids) : s.Complete limit := by
  have hmem : ∀ id ∈ s.ids, id ∈ ids := by
    intro id hid
    obtain ⟨⟨record, hrecord, -⟩, -⟩ := mem_ids.mp hid
    exact hwithin id record hrecord
  obtain ⟨pages, hfollows, hflatten⟩ : ∃ pages, Follows GoText.trimSpace
      (clampControlMemberPageSize limit) s.ids none pages ∧ pages.flatten = s.ids :=
    exists_follows sorted_ids fun a ha c hc => htrim a (hmem a ha) c (hmem c hc)
  obtain ⟨responses, hfetches, hmap⟩ :=
    fetches_of_follows (fun id hid => hids id (hmem id hid)) hfollows cursorKey_empty
  exact ⟨responses, hfetches, delivered_of_flatten hfetches hmap hflatten⟩

/-! ## Two members -/

section Pair

variable [Inhabited C] {a c : String}

/-- A record that is direct and fresh at time zero. -/
def pairRecord (id : String) : MemberRecord C :=
  ⟨⟨id, ⟨0, ""⟩, "", 0, default⟩, 0, "", true, ""⟩

/-- A node that has no advertisement of its own yet, and knows two others. -/
def pairServer (a c : String) : Server C where
  localAd := ⟨"", ⟨0, ""⟩, "", 0, default⟩
  targetedLocal := none
  own := by simp
  target := ""
  now := 0
  members := (Members.empty.put (pairRecord a)).put (pairRecord c)

theorem lookup_pairServer (id : String) : (pairServer a c : Server C).members.lookup id =
    if id = c then some (pairRecord c) else if id = a then some (pairRecord a) else none := by
  unfold pairServer
  rw [Members.lookup_put, Members.lookup_put, Members.lookup_empty]
  rfl

theorem known_pairServer (id : String) :
    (pairServer a c : Server C).Known id ↔ id = a ∨ id = c := by
  constructor
  · rintro ⟨record, hrecord, -⟩
    rw [lookup_pairServer] at hrecord
    split_ifs at hrecord with hc ha
    · exact .inr hc
    · exact .inl ha
  · intro hid
    by_cases hc : id = c
    · exact ⟨pairRecord c, by rw [lookup_pairServer, if_pos hc], rfl, rfl⟩
    · refine ⟨pairRecord a, ?_, rfl, rfl⟩
      rw [lookup_pairServer, if_neg hc, if_pos (hid.resolve_right hc)]

theorem ids_pairServer (hac : a < c) : (pairServer a c : Server C).ids = [a, c] := by
  refine List.Pairwise.eq_of_mem_iff sorted_ids (r := (· < ·)) (by simpa using hac) fun id => ?_
  rw [mem_ids, known_pairServer]
  simp [pairServer]

theorem headIDs_pairServer : (pairServer a c : Server C).headIDs = [] := rfl

/-- The pages of the two members, one on each. -/
theorem follows_of_fetches_pair (hac : a < c) (ha : GoText.trimSpace a ≠ "")
    (hc : GoText.trimSpace c ≠ "")
    (h : Fetches ((pairServer a c : Server C).response 1) "" responses) :
    ∃ pages, Follows GoText.trimSpace 1 [a, c] none pages ∧
      responses.map (fun r => r.members.map Advertisement.ixID) = pages := by
  have hids : ∀ id ∈ (pairServer a c : Server C).ids, GoText.trimSpace id ≠ "" := by
    rw [ids_pairServer hac]
    simp [ha, hc]
  obtain ⟨pages, hfollows, hmap⟩ := follows_of_fetches hids h
  rw [ids_pairServer hac, cursorKey_empty] at hfollows
  refine ⟨pages, hfollows, hmap.trans ?_⟩
  rw [headIDs_pairServer]
  simp

/-- **Two members, one on a page**: a client gets both only if the trimmed cursor stays
between them. -/
theorem between_of_complete (hac : a < c) (ha : GoText.trimSpace a ≠ "")
    (hc : GoText.trimSpace c ≠ "") (h : (pairServer a c : Server C).Complete 1) :
    a ≤ GoText.trimSpace a ∧ GoText.trimSpace a < c := by
  obtain ⟨responses, hfetches, hdelivered⟩ := h
  obtain ⟨pages, hfollows, hmap⟩ := follows_of_fetches_pair hac ha hc hfetches
  constructor
  · by_contra hlt
    exact not_follows_of_norm_lt hac (not_le.mp hlt) (by simp) hfollows
  · by_contra hle
    have hflatten := flatten_of_le_norm hac (not_lt.mp hle) hfollows
    have honce := hdelivered.once c ((known_pairServer c).mpr (.inr rfl))
      (by simp [headIDs_pairServer])
    rw [List.flatMap_def, hmap, hflatten] at honce
    simp [hac.ne] at honce

end Pair

end Membership
