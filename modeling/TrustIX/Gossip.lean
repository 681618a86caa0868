/-
# Polling, gossip and expiry

Any number of nodes poll each other for member pages, merge what they fetch, take posted
advertisements and prune (`pollPeers`, `fetchMembers`, `handleControlMembers`,
`handleControlAdvertisementPost`). One goroutine of a node polls: it fetches the pages
of one target, merges them, goes on to the next target, and prunes at the end of a
round. Everything else runs beside it.

* `next_hops_acyclic` : the next hops towards an IX never form a loop;
* `dead_member_disappears` : when the records of an IX that is gone disappear.
-/
import TrustIX.Membership
import TrustIX.Runs

namespace Gossip

open Membership Runs

variable {C : Type}

/-! ## Nodes -/

/-- A target being polled: what was fetched from it and is not merged yet. A target with
an id is answered by the node of that id: the TLS handshake checks the certificate of the
server against it. -/
structure Poll (C : Type) where
  target : ControlTarget
  sender : String
  answered : target.id = "" ∨ target.id = sender
  fetched : List (Advertisement C)
  merging : Bool

/-- The state of the node with this id. `poll` is `none` between two targets. -/
structure Node (C : Type) (id : String) where
  members : Members C
  localAd : Advertisement C
  own : localAd.ixID = "" ∨ localAd.ixID = id
  poll : Option (Poll C)

abbrev Net (C : Type) := ∀ id : String, Node C id

/-- What `fetchMembers` adds to its list from one page: no blank ids, and no id twice. -/
def importPage (fetched page : List (Advertisement C)) : List (Advertisement C) :=
  page.foldl (fun list advertisement =>
    if GoText.trimSpace advertisement.ixID = "" ∨
        (list.any fun seen =>
          GoText.trimSpace seen.ixID == GoText.trimSpace advertisement.ixID) = true then list
    else list ++ [advertisement]) fetched

variable {advertisement : Advertisement C}

theorem mem_importPage {fetched page : List (Advertisement C)}
    (h : advertisement ∈ importPage fetched page) :
    advertisement ∈ fetched ∨ advertisement ∈ page := by
  induction page generalizing fetched with
  | nil => exact .inl h
  | cons entry rest ih =>
    rcases ih h with hlist | hrest
    · dsimp only at hlist
      split_ifs at hlist
      · exact .inl hlist
      · rcases List.mem_append.mp hlist with hold | hnew
        · exact .inl hold
        · right
          rw [List.mem_singleton.mp hnew]
          exact List.mem_cons_self
    · exact .inr (List.mem_cons_of_mem _ hrest)

/-! ## Steps -/

/-- What can happen in the network. -/
inductive Event (C : Type)
  /-- The poller of a node turns to a target, which `sender` will answer for. -/
  | startTarget (node : String) (target : ControlTarget) (sender : String)
  /-- The sender builds a page for the poller; `asker` is the identity it sees. -/
  | answerPage (node : String) (targetedLocal : Option (Advertisement C)) (asker cursor : String)
      (limit : ℕ)
  /-- The sender answers with its own advertisement only (`fetchSingleAdvertisement`). -/
  | answerSingle (node : String) (targetedLocal : Option (Advertisement C))
  /-- The last page has arrived. -/
  | startMerge (node : String)
  | mergeNext (node : String) (gate : Gate C)
  /-- The target is done, or its answer never arrives. -/
  | endTarget (node : String)
  | prune (node : String)
  /-- An advertisement is posted to a node, or one that waited for its admission is merged. -/
  | post (node : String) (gate : Gate C) (source : String) (advertisement : Advertisement C)
  | refreshLocalAdvertisement (node : String) (advertisement : Advertisement C)
  | tick

def Node.setPoll {id : String} (node : Node C id) (poll : Option (Poll C)) : Node C id :=
  { node with poll := poll }

def Node.setMembers {id : String} (node : Node C id) (members : Members C) : Node C id :=
  { node with members := members }

/-- The merge of the first advertisement fetched from the target. -/
def Node.mergeFirst {id : String} (node : Node C id) (now : ℤ) (gate : Gate C)
    (poll : Poll C) (advertisement : Advertisement C) (rest : List (Advertisement C)) :
    Node C id :=
  (node.setMembers (mergeAdvertisementWithOptions id gate now poll.target.controlAPI
    (pollOptions advertisement poll.target) advertisement node.members)).setPoll
      (some { poll with fetched := rest })

/-- The new own advertisement and its record. -/
def Node.refresh {id : String} (node : Node C id) (now : ℤ) (advertisement : Advertisement C)
    (own : advertisement.ixID = id) : Node C id :=
  { node with
    members := node.members.put ⟨advertisement, now, "local", true, ""⟩
    localAd := advertisement
    own := .inr own }

/-- One step at time `now`, where it is possible. -/
def step (net : Net C) (now : ℤ) : Event C → Option (Net C)
  | .startTarget node target sender =>
    if answered : target.id = "" ∨ target.id = sender then
      if (net node).poll.isNone then
        some (Function.update net node
          ((net node).setPoll (some ⟨target, sender, answered, [], false⟩)))
      else none
    else none
  | .answerPage node targetedLocal asker cursor limit =>
    match (net node).poll with
    | some poll =>
      if poll.merging = false ∧ ∀ ad ∈ targetedLocal, ad.ixID = poll.sender then
        some (Function.update net node ((net node).setPoll (some { poll with
          fetched := importPage poll.fetched (controlMembersResponse
            (net poll.sender).localAd targetedLocal asker cursor limit now
            (net poll.sender).members) })))
      else none
    | none => none
  | .answerSingle node targetedLocal =>
    match (net node).poll with
    | some poll =>
      let answer := targetedLocal.getD (net poll.sender).localAd
      -- an advertisement that names no IX is rejected by its receiver
      if poll.merging = false ∧ poll.fetched = [] ∧ answer.ixID = poll.sender then
        some (Function.update net node ((net node).setPoll (some { poll with
          fetched := [answer], merging := true })))
      else none
    | none => none
  | .startMerge node =>
    (net node).poll.map fun poll =>
      Function.update net node ((net node).setPoll (some { poll with merging := true }))
  | .mergeNext node gate =>
    match (net node).poll with
    | some poll =>
      match poll.merging, poll.fetched with
      | true, advertisement :: rest =>
        some (Function.update net node
          ((net node).mergeFirst now gate poll advertisement rest))
      | _, _ => none
    | none => none
  | .endTarget node => some (Function.update net node ((net node).setPoll none))
  | .prune node =>
    if (net node).poll.isNone then
      some (Function.update net node
        ((net node).setMembers (pruneExpiredMembers node now (net node).members)))
    else none
  | .post node gate source advertisement =>
    some (Function.update net node ((net node).setMembers
      (mergeAdvertisementWithOptions node gate now source postOptions advertisement
        (net node).members)))
  | .refreshLocalAdvertisement node advertisement =>
    if own : advertisement.ixID = node then
      some (Function.update net node ((net node).refresh now advertisement own))
    else none
  | .tick => some net

/-- The own advertisement that a node gives out names the node. -/
theorem ixID_getD {id : String} (node : Node C id) {targetedLocal : Option (Advertisement C)}
    (hlocal : node.localAd.ixID ≠ "") (htargeted : ∀ ad ∈ targetedLocal, ad.ixID = id) :
    (targetedLocal.getD node.localAd).ixID = id := by
  cases targetedLocal with
  | none => exact node.own.resolve_left hlocal
  | some ad => exact htargeted ad rfl

/-- Where an advertisement that a poll holds comes from: it was held before, or it is the
sender's own, or the sender lists it at this moment. -/
def Held (net : Net C) (now : ℤ) (node : String) (poll : Poll C) (ad : Advertisement C) : Prop :=
  (∃ before ∈ (net node).poll, before.target = poll.target ∧ ad ∈ before.fetched) ∨
    ad.ixID = poll.sender ∨ Listed now (net poll.sender).members ad

/-- What one step can do. -/
inductive Effect (net : Net C) (now : ℤ) : Event C → Net C → Prop
  /-- The poller of one node moves on. -/
  | poller {event : Event C} (node : String) (poll : Option (Poll C))
      (keeps : ∀ pruned, event ≠ .prune pruned)
      (held : ∀ p ∈ poll, ∀ ad ∈ p.fetched, Held net now node p ad) :
      Effect net now event (Function.update net node ((net node).setPoll poll))
  | merge (node : String) (gate : Gate C) (poll : Poll C) (ad : Advertisement C)
      (rest : List (Advertisement C)) (polling : (net node).poll = some poll)
      (fetched : poll.fetched = ad :: rest) :
      Effect net now (.mergeNext node gate)
        (Function.update net node ((net node).mergeFirst now gate poll ad rest))
  | prune (node : String) (idle : (net node).poll = none) :
      Effect net now (.prune node) (Function.update net node
        ((net node).setMembers (pruneExpiredMembers node now (net node).members)))
  | post (node : String) (gate : Gate C) (source : String) (ad : Advertisement C) :
      Effect net now (.post node gate source ad) (Function.update net node
        ((net node).setMembers (mergeAdvertisementWithOptions node gate now source postOptions ad
          (net node).members)))
  | refresh (node : String) (ad : Advertisement C) (own : ad.ixID = node) :
      Effect net now (.refreshLocalAdvertisement node ad)
        (Function.update net node ((net node).refresh now ad own))
  | tick : Effect net now .tick net

variable {net : Net C}

/-- Every step has one of these effects. -/
theorem effect_of_step {next : Net C} {now : ℤ} {event : Event C}
    (hstep : step net now event = some next) : Effect net now event next := by
  cases event with
  | startTarget node target sender =>
    simp only [step] at hstep
    split_ifs at hstep
    cases hstep
    refine .poller node _ (fun _ => nofun) fun p hp ad had => ?_
    cases hp
    exact absurd had (by simp)
  | answerPage node targetedLocal asker cursor limit =>
    cases hpoll : (net node).poll with
    | none => simp [step, hpoll] at hstep
    | some poll =>
      simp only [step, hpoll] at hstep
      split_ifs at hstep with hguard
      cases hstep
      refine .poller node _ (fun _ => nofun) fun p hp ad had => ?_
      cases hp
      rcases mem_importPage had with hbefore | hpage
      · exact .inl ⟨poll, hpoll, rfl, hbefore⟩
      · rcases mem_controlMembersResponse hpage with ⟨hlocal, rfl⟩ | hlisted
        · exact .inr (.inl (ixID_getD _ hlocal hguard.2))
        · exact .inr (.inr hlisted)
  | answerSingle node targetedLocal =>
    cases hpoll : (net node).poll with
    | none => simp [step, hpoll] at hstep
    | some poll =>
      simp only [step, hpoll] at hstep
      split_ifs at hstep with hguard
      cases hstep
      refine .poller node _ (fun _ => nofun) fun p hp ad had => ?_
      cases hp
      obtain rfl := List.mem_singleton.mp had
      exact .inr (.inl hguard.2.2)
  | startMerge node =>
    obtain ⟨poll, hpoll, rfl⟩ := Option.map_eq_some_iff.mp hstep
    refine .poller node _ (fun _ => nofun) fun p hp ad had => ?_
    cases hp
    exact .inl ⟨poll, hpoll, rfl, had⟩
  | mergeNext node gate =>
    cases hpoll : (net node).poll with
    | none => simp [step, hpoll] at hstep
    | some poll =>
      simp only [step, hpoll] at hstep
      split at hstep
      · rename_i ad rest _ hfetched
        cases hstep
        exact .merge node gate poll ad rest hpoll hfetched
      · exact absurd hstep (by simp)
  | endTarget node =>
    cases hstep
    exact .poller node none (fun _ => nofun) fun p hp => absurd hp (by simp)
  | prune node =>
    simp only [step] at hstep
    split_ifs at hstep with hidle
    cases hstep
    exact .prune node (Option.isNone_iff_eq_none.mp hidle)
  | post node gate source ad =>
    cases hstep
    exact .post node gate source ad
  | refreshLocalAdvertisement node ad =>
    simp only [step] at hstep
    split_ifs at hstep with own
    cases hstep
    exact .refresh node ad own
  | tick =>
    cases hstep
    exact .tick

/-- No records yet and no poll under way. -/
def Initial (net : Net C) : Prop := ∀ id, (net id).members = Members.empty ∧ (net id).poll = none

/-! ## Next hops -/

/-- `routeNextHopForMemberRecord`. -/
def routeNextHopForMemberRecord (ixID : String) (record : MemberRecord C)
    (staticPeerUsable : String → Option Bool) : String :=
  if record.direct then ixID
  else if staticPeerUsable ixID = some true then ixID
  else if record.via = "" then ixID
  else record.via

/-- The node forwards what is for `x` to `hop`. The destination itself forwards nothing:
`runtimeProjectionMembers` leaves out the record of the node itself. -/
def Forwards (net : Net C) (x node hop : String) : Prop :=
  node ≠ x ∧ ∃ record, (net node).members.lookup x = some record ∧
    routeNextHopForMemberRecord x record (fun _ => none) = hop

/-- A merge of what the poll has fetched may set `via` for `x` to `hop`. -/
def Poll.Offers (poll : Poll C) (x hop : String) : Prop :=
  poll.target.id = hop ∧ ∃ advertisement ∈ poll.fetched, advertisement.ixID = x ∧
    advertisementMatchesControlTarget advertisement poll.target = false

/-- The node sends what is for `x` over `hop`, or will after a merge under way. -/
def Node.Leans {id : String} (node : Node C id) (x hop : String) : Prop :=
  ¬ node.members.Direct x ∧ hop ≠ "" ∧
    (node.members.Via x hop ∨ ∃ poll ∈ node.poll, poll.Offers x hop)

/-- A node that has seen `x` leans on nobody. -/
theorem not_leans_of_direct {id : String} {node : Node C id} {x : String}
    (h : node.members.Direct x) (hop : String) : ¬ node.Leans x hop := by
  rintro ⟨hnot, -⟩
  exact hnot h

/-- Forwarding goes to the destination or along a leaning. -/
theorem leans_of_forwards {x node hop : String} (h : Forwards net x node hop) :
    (net node).Leans x hop ∨ hop = x := by
  obtain ⟨-, record, hrecord, hhop⟩ := h
  unfold routeNextHopForMemberRecord at hhop
  by_cases hdirect : record.direct = true
  · rw [if_pos hdirect] at hhop
    exact .inr hhop.symm
  · rw [if_neg hdirect, if_neg (by simp)] at hhop
    split_ifs at hhop with hvia
    · exact .inr hhop.symm
    · subst hhop
      refine .inl ⟨?_, hvia, .inl ⟨record, hrecord, rfl⟩⟩
      rintro ⟨other, hother, hseen⟩
      obtain rfl := Option.some.inj (hrecord.symm.trans hother)
      exact hdirect hseen

/-! ### What a step does to one node -/

section Node

variable {id : String} {node : Node C id} {x hop : String} {now : ℤ} {gate : Gate C}

theorem leans_setPoll {poll : Option (Poll C)} (h : (node.setPoll poll).Leans x hop) :
    node.Leans x hop ∨ ∃ p ∈ poll, p.Offers x hop := by
  obtain ⟨hnot, hhop, hvia | hoffer⟩ := h
  · exact .inl ⟨hnot, hhop, .inl hvia⟩
  · exact .inr hoffer

/-- A merge from a poll sets `via` only to what the poll offers. -/
theorem leans_mergeFirst {poll : Poll C} {rest : List (Advertisement C)}
    (hpoll : node.poll = some poll) (hfetched : poll.fetched = advertisement :: rest)
    (h : (node.mergeFirst now gate poll advertisement rest).Leans x hop) : node.Leans x hop := by
  obtain ⟨hnot, hhop, hcause⟩ := h
  refine ⟨fun hdirect => hnot (direct_merge hdirect), hhop, ?_⟩
  rcases hcause with hvia | ⟨p, hp, htarget, other, hother, hid, hmatch⟩
  · rcases via_merge hhop hnot hvia with hold | ⟨hid, hoptions, hoption⟩
    · exact .inl hold
    · -- the record was set from the advertisement that the poll held first
      right
      unfold pollOptions at hoptions hoption
      cases hmatch : advertisementMatchesControlTarget advertisement poll.target with
      | true => simp [hmatch] at hoptions
      | false =>
        rw [hmatch] at hoption
        exact ⟨poll, hpoll, hoption, advertisement, by simp [hfetched], hid.symm, hmatch⟩
  · obtain rfl : { poll with fetched := rest } = p := Option.some.inj hp
    exact .inr ⟨poll, hpoll, htarget, other, by simp [hfetched, hother], hid, hmatch⟩

/-- A prune between two targets leaves only leanings that were there. -/
theorem leans_prune (hpoll : node.poll = none)
    (h : (node.setMembers (pruneExpiredMembers id now node.members)).Leans x hop) :
    node.Leans x hop := by
  obtain ⟨hnot, hhop, hvia | ⟨poll, hmem, -⟩⟩ := h
  · obtain ⟨record, hrecord, hrecordVia⟩ := hvia
    have hkept := hrecord
    change (pruneExpiredMembers id now node.members).lookup x = some record at hkept
    rw [lookup_pruneExpiredMembers, Option.filter_eq_some_iff] at hkept
    refine ⟨?_, hhop, .inl ⟨record, hkept.1, hrecordVia⟩⟩
    rintro ⟨other, hother, hdirect⟩
    obtain rfl := Option.some.inj (hkept.1.symm.trans hother)
    exact hnot ⟨_, hrecord, hdirect⟩
  · change poll ∈ node.poll at hmem
    rw [hpoll] at hmem
    exact absurd hmem (by simp)

theorem leans_post {source : String}
    (h : (node.setMembers (mergeAdvertisementWithOptions id gate now source postOptions
      advertisement node.members)).Leans x hop) : node.Leans x hop := by
  obtain ⟨hnot, hhop, hcause⟩ := h
  refine ⟨fun hdirect => hnot (direct_merge hdirect), hhop, ?_⟩
  rcases hcause with hvia | hoffer
  · rcases via_merge hhop hnot hvia with hold | ⟨-, hoptions, -⟩
    · exact .inl hold
    · exact absurd hoptions (by decide)
  · exact .inr hoffer

theorem leans_refresh (own : advertisement.ixID = id)
    (h : (node.refresh now advertisement own).Leans x hop) : node.Leans x hop := by
  obtain ⟨hnot, hhop, hcause⟩ := h
  have hlookup := Members.lookup_put node.members ⟨advertisement, now, "local", true, ""⟩ x
  by_cases hx : x = advertisement.ixID
  · rw [if_pos hx] at hlookup
    exact absurd ⟨_, hlookup, rfl⟩ hnot
  · rw [if_neg hx] at hlookup
    refine ⟨?_, hhop, ?_⟩
    · rintro ⟨record, hrecord, hdirect⟩
      exact hnot ⟨record, hlookup.trans hrecord, hdirect⟩
    · rcases hcause with ⟨record, hrecord, hvia⟩ | hoffer
      · exact .inl ⟨record, hlookup.symm.trans hrecord, hvia⟩
      · exact .inr hoffer

end Node

/-! ### No loops -/

/-- The own advertisement of the sender never offers a `via`. -/
theorem not_offers_of_own {poll : Poll C} {hop : String} (hown : advertisement.ixID = poll.sender)
    (htarget : poll.target.id = hop) (hhop : hop ≠ "")
    (hmatch : advertisementMatchesControlTarget advertisement poll.target = false) : False := by
  subst htarget
  have hsender := poll.answered.resolve_left hhop
  have hid : (advertisement.ixID == poll.target.id) = true := by
    rw [hown, hsender]
    exact beq_self_eq_true _
  have hne : (poll.target.id != "") = true := bne_iff_ne.mpr hhop
  unfold advertisementMatchesControlTarget at hmatch
  rw [hid, hne, Bool.and_self, Bool.true_or] at hmatch
  exact absurd hmatch (by decide)

theorem direct_of_listed {now : ℤ} {members : Members C}
    (h : Listed now members advertisement) : members.Direct advertisement.ixID := by
  obtain ⟨record, hrecord, hdirect, -, -⟩ := h
  exact ⟨record, hrecord, hdirect⟩

/-- A node changes; whoever it leans on afterwards it leant on before, or has seen `x`. -/
theorem leans_update {node : String} {next : Node C node} {x : String}
    (h : ∀ hop, next.Leans x hop →
      (net node).Leans x hop ∨ (Function.update net node next hop).members.Direct x)
    (other hop : String) (hleans : (Function.update net node next other).Leans x hop) :
    (net other).Leans x hop ∨ (Function.update net node next hop).members.Direct x := by
  by_cases hother : other = node
  · subst hother
    rw [Function.update_self] at hleans
    exact h hop hleans
  · rw [Function.update_of_ne hother] at hleans
    exact .inl hleans

theorem direct_update_setPoll {node : String} {poll : Option (Poll C)} {x hop : String}
    (h : (net hop).members.Direct x) :
    (Function.update net node ((net node).setPoll poll) hop).members.Direct x := by
  by_cases hhop : hop = node
  · subst hhop
    rw [Function.update_self]
    exact h
  · rw [Function.update_of_ne hhop]
    exact h

/-- **What a step does to the leanings.** A new one leads to a node that has seen `x`. -/
theorem leans_step {next : Net C} {now : ℤ} {event : Event C}
    (hstep : step net now event = some next) {x node hop : String}
    (hleans : (next node).Leans x hop) : (net node).Leans x hop ∨ (next hop).members.Direct x := by
  cases effect_of_step hstep with
  | poller changed poll keeps held =>
    refine leans_update (fun hop h => ?_) node hop hleans
    rcases leans_setPoll h with hold | ⟨p, hp, htarget, ad, had, hid, hmatch⟩
    · exact .inl hold
    rcases held p hp ad had with ⟨before, hpoll, hsame, hbefore⟩ | hown | hlisted
    · rw [← hsame] at htarget hmatch
      exact .inl ⟨h.1, h.2.1, .inr ⟨before, hpoll, htarget, ad, hbefore, hid, hmatch⟩⟩
    · exact (not_offers_of_own hown htarget h.2.1 hmatch).elim
    · -- the sender lists `x`, so it has seen `x` itself
      right
      have hsender : p.sender = hop :=
        (p.answered.resolve_left (htarget ▸ h.2.1)).symm.trans htarget
      rw [← hsender, ← hid]
      exact direct_update_setPoll (direct_of_listed hlisted)
  | merge changed gate poll ad rest polling fetched =>
    exact leans_update (fun hop h => .inl (leans_mergeFirst polling fetched h)) node hop hleans
  | prune changed idle =>
    exact leans_update (fun hop h => .inl (leans_prune idle h)) node hop hleans
  | post changed gate source ad =>
    exact leans_update (fun hop h => .inl (leans_post h)) node hop hleans
  | refresh changed ad own =>
    exact leans_update (fun hop h => .inl (leans_refresh own h)) node hop hleans
  | tick => exact .inl hleans

/-- In every state of every run the leanings towards `x` are acyclic. -/
theorem leans_acyclic {start : Net C} (hstart : Initial start)
    (hreaches : Reaches (fun net (timed : ℤ × Event C) => step net timed.1 timed.2)
      (fun _ _ => True) start net) (x : String) :
    Acyclic fun node hop => (net node).Leans x hop := by
  refine hreaches.invariant (fun net => Acyclic fun node hop => (net node).Leans x hop) ?_ ?_
  · refine acyclic_of_empty fun node hop h => ?_
    obtain ⟨-, -, ⟨record, hrecord, -⟩ | ⟨poll, hpoll, -⟩⟩ := h
    · rw [(hstart node).1] at hrecord
      exact absurd hrecord (by simp)
    · rw [(hstart node).2] at hpoll
      exact absurd hpoll (by simp)
  · intro net timed next hacyclic _ hstep
    refine hacyclic.of_sinks fun node hop hleans => ?_
    rcases leans_step hstep hleans with hold | hdirect
    · exact .inl hold
    · exact .inr (not_leans_of_direct hdirect)

/-- **No forwarding loop.** In every state that the nodes reach, the next hops towards an
IX form no cycle. -/
theorem next_hops_acyclic (start net : Net C) (hstart : Initial start)
    (hreaches : Reaches (fun net (timed : ℤ × Event C) => step net timed.1 timed.2)
      (fun _ _ => True) start net) (x : String) :
    Acyclic (Forwards net x) := by
  refine (leans_acyclic hstart hreaches x).of_sinks fun node hop hforwards => ?_
  rcases leans_of_forwards hforwards with hleans | hx
  · exact .inl hleans
  · -- the destination forwards nothing
    right
    rintro next ⟨hne, -⟩
    exact hne hx

/-- A network in which nothing has happened yet. -/
def quietNet (localAd : Advertisement C) (unnamed : localAd.ixID = "") : Net C :=
  fun _ => ⟨Members.empty, localAd, .inl unnamed, none⟩

/-- The advertisement of an IX, without a control API. -/
def plainAd (ixID : String) : Advertisement Unit := ⟨ixID, ⟨1, "head"⟩, "", 0, ()⟩

/-- `ix-x` posts its advertisement to `ix-a`, which `ix-b` then polls. -/
def relayEvents : List (ℤ × Event Unit) :=
  [(0, .refreshLocalAdvertisement "ix-a" (plainAd "ix-a")),
    (1, .post "ix-a" openGate "ix-x" (plainAd "ix-x")),
    (2, .startTarget "ix-b" ⟨"ix-a", "https://ix-a"⟩ "ix-a"),
    (3, .answerPage "ix-b" none "ix-b" "" 10),
    (4, .startMerge "ix-b"), (5, .mergeNext "ix-b" openGate), (6, .mergeNext "ix-b" openGate)]

/-- After the relay `ix-b` forwards over `ix-a`, and there is no loop. -/
theorem next_hops_acyclic_relay :
    ∃ net, Reaches (fun net (timed : ℤ × Event Unit) => step net timed.1 timed.2)
        (fun _ _ => True) (quietNet (plainAd "") rfl) net ∧
      Forwards net "ix-x" "ix-b" "ix-a" ∧ Acyclic (Forwards net "ix-x") := by
  have hrun : ((replay (fun net (timed : ℤ × Event Unit) => step net timed.1 timed.2)
      (fun _ _ => True) (quietNet (plainAd "") rfl) relayEvents).bind fun net =>
        (net "ix-b").members.lookup "ix-x").map (fun record => (record.direct, record.via)) =
      some (false, "ix-a") := by
    decide +kernel
  obtain ⟨record, hrecord, hfields⟩ := Option.map_eq_some_iff.mp hrun
  obtain ⟨net, hnet, hlookup⟩ := Option.bind_eq_some_iff.mp hrecord
  have hreaches := reaches_of_replay hnet
  refine ⟨net, hreaches, ⟨by decide, record, hlookup, ?_⟩,
    next_hops_acyclic _ net (fun id => ⟨rfl, rfl⟩) hreaches "ix-x"⟩
  obtain ⟨hdirect, hvia⟩ := Prod.mk.inj hfields
  simp [routeNextHopForMemberRecord, hdirect, hvia]

/-! ## Members that are gone -/

/-- The network with a clock and, for each node, the time of its last prune. -/
structure Clocked (C : Type) where
  net : Net C
  now : ℤ
  pruned : String → ℤ

def prunedAfter (pruned : String → ℤ) (now : ℤ) : Event C → String → ℤ
  | .prune node => Function.update pruned node now
  | _ => pruned

theorem prunedAfter_cases (pruned : String → ℤ) (now : ℤ) (event : Event C) (node : String) :
    prunedAfter pruned now event node = now ∨ prunedAfter pruned now event node = pruned node := by
  cases event with
  | prune other =>
    by_cases hnode : node = other
    · exact .inl (hnode ▸ Function.update_self _ _ _)
    · exact .inr (Function.update_of_ne hnode _ _)
  | _ => exact .inr rfl

def Clocked.step (state : Clocked C) (timed : ℤ × Event C) : Option (Clocked C) :=
  (Gossip.step state.net timed.1 timed.2).map fun net =>
    ⟨net, timed.1, prunedAfter state.pruned timed.1 timed.2⟩

/-- The IX `x` is gone after `time`; each of the `nodes` prunes once in every `period`. -/
structure Death where
  x : String
  time : ℤ
  period : ℤ
  nodes : Finset String

/-- An event that `x` takes part in: it answers, or issues an advertisement. -/
def Death.Acts (death : Death) (net : Net C) : Event C → Prop
  | .answerPage node _ _ _ _ => ∃ poll ∈ (net node).poll, poll.sender = death.x
  | .answerSingle node _ => ∃ poll ∈ (net node).poll, poll.sender = death.x
  | .post _ _ _ advertisement =>
    advertisement.ixID = death.x ∧ death.time < advertisement.issuedAt
  | .refreshLocalAdvertisement node _ => node = death.x
  | _ => False

instance (death : Death) (net : Net C) (event : Event C) : Decidable (death.Acts net event) := by
  cases event <;> unfold Death.Acts <;> infer_instance

/-- The clock goes on, no node misses its prune, and `x` does nothing after its death. -/
def Death.Premise (death : Death) (state : Clocked C) (timed : ℤ × Event C) : Prop :=
  state.now ≤ timed.1 ∧ (∀ node ∈ death.nodes, timed.1 ≤ state.pruned node + death.period) ∧
    (death.time < timed.1 → ¬ death.Acts state.net timed.2)

/-- An event that brings no old advertisement of `x` to life: none is posted, and one from
a page is merged as seen by another node only, while that node still lists it. -/
def Death.Harmless (death : Death) (net : Net C) (now : ℤ) : Event C → Prop
  | .post _ _ _ advertisement => advertisement.ixID ≠ death.x
  | .mergeNext node _ =>
    ∀ poll ∈ (net node).poll, ∀ advertisement ∈ poll.fetched.head?,
      advertisement.ixID = death.x →
        advertisementMatchesControlTarget advertisement poll.target = false ∧
          ∃ record ∈ (net poll.sender).members.lookup death.x,
            record.direct = true ∧ record.fresh now = true
  | _ => True

instance (death : Death) (net : Net C) (now : ℤ) (event : Event C) :
    Decidable (death.Harmless net now event) := by
  cases event <;> unfold Death.Harmless <;> infer_instance

def Death.Condition (death : Death) (state : Clocked C) (timed : ℤ × Event C) : Prop :=
  death.time < timed.1 → death.Harmless state.net timed.1 timed.2

instance (death : Death) (state : Clocked C) (timed : ℤ × Event C) :
    Decidable (death.Premise state timed) := by
  unfold Death.Premise
  infer_instance

instance (death : Death) (state : Clocked C) (timed : ℤ × Event C) :
    Decidable (death.Condition state timed) := by
  unfold Death.Condition
  infer_instance

/-- A network before its first event, at a time that is set. -/
def Clocked.Initial (state : Clocked C) : Prop :=
  Gossip.Initial state.net ∧ zeroTime < state.now ∧ ∀ node, state.pruned node = state.now

/-- What a record of `x` at a node keeps to. -/
structure Death.Fades (death : Death) (now : ℤ) (pruned : String → ℤ) (node : String)
    (record : MemberRecord C) : Prop where
  set : zeroTime < record.lastSeen
  past : record.lastSeen ≤ now
  bound : record.lastSeen ≤ death.time + memberRecordTTL
  direct : record.direct = true → record.lastSeen ≤ death.time
  survived : node ≠ death.x → pruned node ≤ record.lastSeen + memberRecordTTL

/-- The invariant of a run after which `x` disappears. -/
structure Death.Fading (death : Death) (state : Clocked C) : Prop where
  records : ∀ node record, (state.net node).members.lookup death.x = some record →
    death.Fades state.now state.pruned node record
  clock : zeroTime < state.now
  pruned : ∀ node, state.pruned node ≤ state.now
  due : ∀ node ∈ death.nodes, state.now ≤ state.pruned node + death.period

theorem memberRecordTTL_nonneg : 0 ≤ memberRecordTTL := by decide

section Death

variable {death : Death} {now later : ℤ} {pruned : String → ℤ} {node : String}

theorem Death.Fades.mono {record : MemberRecord C} (h : death.Fades now pruned node record)
    (hlater : now ≤ later) : death.Fades later pruned node record :=
  { h with past := h.past.trans hlater }

/-- A merge that comes before the death, or does not count as seeing `x` and comes at
most one TTL after it, keeps to the bounds. -/
theorem Death.Fades.mergeRecord {source : String} {options : MergeOptions}
    {existing : Option (MemberRecord C)}
    (hexisting : ∀ record ∈ existing, death.Fades now pruned node record) (hnow : zeroTime < now)
    (hlater : now ≤ later) (hpruned : pruned node ≤ now)
    (hoptions : later ≤ death.time ∨ (options.refreshSeen = false ∧ options.direct = false ∧
      later ≤ death.time + memberRecordTTL)) :
    death.Fades later pruned node
      (Membership.mergeRecord node later source options advertisement existing) := by
  have httl := memberRecordTTL_nonneg
  have hbound : later ≤ death.time + memberRecordTTL := by
    rcases hoptions with h | ⟨-, -, h⟩
    · omega
    · exact h
  cases existing with
  | none =>
    refine ⟨hnow.trans_le hlater, le_rfl, hbound, fun hdirect => ?_, fun _ => ?_⟩
    · rcases hoptions with h | ⟨-, hnot, -⟩
      · exact h
      · exact absurd (hnot.symm.trans hdirect) (by decide)
    · show pruned node ≤ later + memberRecordTTL
      omega
  | some record =>
    have hold := hexisting record rfl
    have hset : (record.lastSeen == zeroTime) = false := by
      rw [beq_eq_false_iff_ne]
      exact hold.set.ne'
    -- the time of the record is the old one, or that of the merge
    have hseen : (Membership.mergeRecord node later source options advertisement
        (some record)).lastSeen = if options.refreshSeen then later else record.lastSeen := by
      show (if (options.refreshSeen || record.lastSeen == zeroTime) = true then later
        else record.lastSeen) = _
      rw [hset, Bool.or_false]
    have hdirect : (Membership.mergeRecord node later source options advertisement
        (some record)).direct = (record.direct || options.direct) := rfl
    cases hrefresh : options.refreshSeen with
    | true =>
      rw [hrefresh, if_pos rfl] at hseen
      have hbefore : later ≤ death.time := by
        rcases hoptions with h | ⟨hnot, -, -⟩
        · exact h
        · exact absurd (hnot.symm.trans hrefresh) (by decide)
      refine ⟨?_, ?_, ?_, fun _ => ?_, fun _ => ?_⟩ <;> rw [hseen] <;> omega
    | false =>
      rw [hrefresh, if_neg (by decide)] at hseen
      refine ⟨?_, ?_, ?_, fun hd => ?_, fun hne => ?_⟩ <;> rw [hseen]
      · exact hold.set
      · exact hold.past.trans hlater
      · exact hold.bound
      · rcases hoptions with h | ⟨-, hnot, -⟩
        · exact hold.past.trans (hlater.trans h)
        · rw [hdirect, hnot, Bool.or_false] at hd
          exact hold.direct hd
      · exact hold.survived hne

/-- The record that a merge leaves keeps to the bounds. -/
theorem Death.Fading.merge {state : Clocked C} (h : death.Fading state) (hlater : state.now ≤ later)
    {gate : Gate C} {source : String} {options : MergeOptions}
    (hoptions : advertisement.ixID = death.x → later ≤ death.time ∨
      (options.refreshSeen = false ∧ options.direct = false ∧ later ≤ death.time + memberRecordTTL))
    {record : MemberRecord C}
    (hrecord : (mergeAdvertisementWithOptions node gate later source options advertisement
      (state.net node).members).lookup death.x = some record) :
    death.Fades later state.pruned node record := by
  rcases lookup_merge_cases node gate later source options advertisement (state.net node).members
    death.x with hsame | ⟨hid, -, hnew⟩
  · exact (h.records node record (hsame.symm.trans hrecord)).mono hlater
  · obtain rfl := Option.some.inj (hnew.symm.trans hrecord)
    exact Death.Fades.mergeRecord (h.records node) h.clock hlater (h.pruned node) (hoptions hid.symm)

/-- A node changes; its records of `x` keep to the bounds if the new ones do. -/
theorem fades_update {changed : String} {next : Node C changed} {pruned' : String → ℤ}
    (hothers : ∀ node record, node ≠ changed → (net node).members.lookup death.x = some record →
      death.Fades later pruned' node record)
    (hchanged : ∀ record, next.members.lookup death.x = some record →
      death.Fades later pruned' changed record) (node : String) (record : MemberRecord C)
    (h : (Function.update net changed next node).members.lookup death.x = some record) :
    death.Fades later pruned' node record := by
  by_cases hnode : node = changed
  · subst hnode
    rw [Function.update_self] at h
    exact hchanged record h
  · rw [Function.update_of_ne hnode] at h
    exact hothers node record hnode h

/-- **One step keeps the records of `x` fading.** -/
theorem fading_step {state next : Clocked C} {timed : ℤ × Event C} (hperiod : 0 ≤ death.period)
    (hfading : death.Fading state) (hpremise : death.Premise state timed)
    (hcondition : death.Condition state timed) (hstep : state.step timed = some next) :
    death.Fading next := by
  obtain ⟨later, event⟩ := timed
  obtain ⟨net, hnet, rfl⟩ := Option.map_eq_some_iff.mp hstep
  obtain ⟨hlater, hdue, hsilent⟩ := hpremise
  have httl := memberRecordTTL_nonneg
  have hold : ∀ node record, (state.net node).members.lookup death.x = some record →
      death.Fades later state.pruned node record :=
    fun node record h => (hfading.records node record h).mono hlater
  refine ⟨?_, hfading.clock.trans_le hlater, fun node => ?_, fun node hnode => ?_⟩
  rotate_left
  · have hpruned := hfading.pruned node
    rcases prunedAfter_cases state.pruned later event node with h | h <;> dsimp only <;> omega
  · have hnodeDue := hdue node hnode
    rcases prunedAfter_cases state.pruned later event node with h | h <;> dsimp only <;> omega
  cases effect_of_step hnet with
  | poller changed poll keeps held =>
    have hpruned : prunedAfter state.pruned later event = state.pruned := by
      cases event with
      | prune other => exact absurd rfl (keeps other)
      | _ => rfl
    rw [hpruned]
    exact fades_update (fun node record _ h => hold node record h)
      (fun record h => hold changed record h)
  | merge changed gate poll ad rest polling fetched =>
    refine fades_update (fun node record _ h => hold node record h) fun record h => ?_
    refine hfading.merge hlater (fun hid => ?_) h
    by_cases hbefore : later ≤ death.time
    · exact .inl hbefore
    · -- the sender has seen `x` at most one TTL ago, and not after the death
      right
      obtain ⟨hmatch, seen, hseen, hdirect, hfresh⟩ :=
        hcondition (not_le.mp hbefore) poll polling ad (by rw [fetched]; rfl) hid
      have hoptions : pollOptions ad poll.target = ⟨false, false, poll.target.id⟩ := by
        unfold pollOptions
        rw [hmatch, if_neg (by decide)]
      rw [hoptions]
      refine ⟨rfl, rfl, ?_⟩
      have hlast := (hfading.records poll.sender seen hseen).direct hdirect
      have hrecent : later - seen.lastSeen ≤ memberRecordTTL := of_decide_eq_true hfresh
      omega
  | prune changed idle =>
    refine fades_update (fun node record hnode h => ?_) fun record h => ?_
    · have hother := hold node record h
      refine { hother with survived := fun hne => ?_ }
      show Function.update state.pruned changed later node ≤ _
      rw [Function.update_of_ne hnode]
      exact hother.survived hne
    · change (pruneExpiredMembers changed later (state.net changed).members).lookup death.x =
        some record at h
      rw [lookup_pruneExpiredMembers, Option.filter_eq_some_iff] at h
      refine { hold changed record h.1 with survived := fun hne => ?_ }
      show Function.update state.pruned changed later changed ≤ _
      rw [Function.update_self]
      have hfresh : record.fresh later = true := by
        have hor := h.2
        rw [Bool.or_eq_true, beq_iff_eq] at hor
        exact hor.resolve_left fun h => hne h.symm
      have hrecent : later - record.lastSeen ≤ memberRecordTTL := of_decide_eq_true hfresh
      omega
  | post changed gate source ad =>
    refine fades_update (fun node record _ h => hold node record h) fun record h => ?_
    refine hfading.merge hlater (fun hid => .inl ?_) h
    by_contra hafter
    exact hcondition (not_le.mp hafter) hid
  | refresh changed ad own =>
    refine fades_update (fun node record _ h => hold node record h) fun record h => ?_
    have hlookup := Members.lookup_put (state.net changed).members
      ⟨ad, later, "local", true, ""⟩ death.x
    by_cases hx : death.x = ad.ixID
    · rw [if_pos hx] at hlookup
      obtain rfl := Option.some.inj (hlookup.symm.trans h)
      -- its own record, which it refreshes only while it is there
      have hself : changed = death.x := own.symm.trans hx.symm
      have hbefore : later ≤ death.time := by
        by_contra hafter
        exact hsilent (not_le.mp hafter) hself
      have hset := hfading.clock.trans_le hlater
      refine ⟨hset, le_rfl, ?_, fun _ => hbefore, fun hne => absurd hself hne⟩
      show later ≤ death.time + memberRecordTTL
      omega
    · rw [if_neg hx] at hlookup
      exact hold changed record (hlookup.symm.trans h)
  | tick => exact hold

/-- **A dead member disappears** in every run in which nobody brings its old advertisements
back to life: later than twice the TTL and a prune period after its death, no node has a
record of it. -/
theorem dead_member_disappears (death : Death) (hperiod : 0 ≤ death.period)
    (start state : Clocked C) (hstart : start.Initial)
    (hreaches : Reaches Clocked.step
      (fun s e => death.Premise s e ∧ death.Condition s e) start state)
    (hlate : death.time + 2 * memberRecordTTL + death.period < state.now)
    (node : String) (hnode : node ∈ death.nodes) (hother : node ≠ death.x) :
    (state.net node).members.lookup death.x = none := by
  have hfading : death.Fading state := by
    refine hreaches.invariant death.Fading ?_ ?_
    · obtain ⟨hnet, hclock, hpruned⟩ := hstart
      refine ⟨fun node record h => ?_, hclock, fun node => (hpruned node).le, fun node _ => ?_⟩
      · rw [(hnet node).1] at h
        exact absurd h (by simp)
      · rw [hpruned node]
        omega
    · intro s e t hs hok hst
      exact fading_step hperiod hs hok.1 hok.2 hst
  cases hrecord : (state.net node).members.lookup death.x with
  | none => rfl
  | some record =>
    exfalso
    have hfades := hfading.records node record hrecord
    have hdue := hfading.due node hnode
    have hsurvived := hfades.survived hother
    have hbound := hfades.bound
    omega

end Death

/-- Time zero, nothing has happened yet. -/
def quietStart : Clocked Unit := ⟨quietNet (plainAd "") rfl, 0, fun _ => 0⟩

theorem quietStart_initial : quietStart.Initial := ⟨fun _ => ⟨rfl, rfl⟩, by decide, fun _ => rfl⟩

def seconds (n : ℤ) : ℤ := n * 10 ^ 9

/-- `ix-x` is gone after time zero; nodes prune every hundred seconds. -/
def sampleDeath (nodes : Finset String) : Death := ⟨"ix-x", 0, seconds 100, nodes⟩

/-- The old advertisement is posted once more after it was pruned. -/
def repostEvents : List (ℤ × Event Unit) :=
  [(0, .post "ix-a" openGate "ix-x" (plainAd "ix-x")), (seconds 100, .prune "ix-a"),
    (seconds 200, .prune "ix-a"), (seconds 290, .post "ix-a" openGate "ix-b" (plainAd "ix-x")),
    (seconds 300, .prune "ix-a"), (seconds 341, .tick)]

/-- A posted old advertisement brings a dead member back: it is in the table later than
twice the TTL and a prune period after its death. -/
theorem dead_member_reposted :
    ∃ state, Reaches Clocked.step (sampleDeath {"ix-a"}).Premise quietStart state ∧
      (sampleDeath {"ix-a"}).time + 2 * memberRecordTTL + (sampleDeath {"ix-a"}).period <
        state.now ∧
      ((state.net "ix-a").members.lookup "ix-x").isSome := by
  have hrun : (replay Clocked.step (sampleDeath {"ix-a"}).Premise quietStart repostEvents).map
      (fun state => (state.now, ((state.net "ix-a").members.lookup "ix-x").isSome)) =
      some (seconds 341, true) := by
    decide +kernel
  obtain ⟨state, hstate, hfields⟩ := Option.map_eq_some_iff.mp hrun
  obtain ⟨hnow, hrecord⟩ := Prod.mk.inj hfields
  refine ⟨state, reaches_of_replay hstate, ?_, hrecord⟩
  rw [hnow]
  decide

/-- `ix-b` learns of the member from `ix-a` and then only time passes. -/
def fadeEvents : List (ℤ × Event Unit) :=
  [(0, .refreshLocalAdvertisement "ix-a" (plainAd "ix-a")),
    (0, .post "ix-a" openGate "ix-x" (plainAd "ix-x")),
    (seconds 50, .startTarget "ix-b" ⟨"ix-a", "https://ix-a"⟩ "ix-a"),
    (seconds 50, .answerPage "ix-b" none "ix-b" "" 10), (seconds 51, .startMerge "ix-b"),
    (seconds 51, .mergeNext "ix-b" openGate), (seconds 51, .mergeNext "ix-b" openGate),
    (seconds 52, .endTarget "ix-b"), (seconds 100, .prune "ix-a"), (seconds 100, .prune "ix-b"),
    (seconds 200, .prune "ix-a"), (seconds 200, .prune "ix-b"), (seconds 300, .prune "ix-a"),
    (seconds 300, .prune "ix-b"), (seconds 341, .tick)]

/-- Without such a post the member is gone from both tables. -/
theorem dead_member_disappears_relay :
    ∃ state, Reaches Clocked.step (fun s e => (sampleDeath {"ix-a", "ix-b"}).Premise s e ∧
        (sampleDeath {"ix-a", "ix-b"}).Condition s e) quietStart state ∧
      (state.net "ix-a").members.lookup "ix-x" = none ∧
      (state.net "ix-b").members.lookup "ix-x" = none := by
  have hrun : (replay Clocked.step (fun s e => (sampleDeath {"ix-a", "ix-b"}).Premise s e ∧
      (sampleDeath {"ix-a", "ix-b"}).Condition s e) quietStart fadeEvents).map Clocked.now =
      some (seconds 341) := by
    decide +kernel
  obtain ⟨state, hstate, hnow⟩ := Option.map_eq_some_iff.mp hrun
  have hreaches := reaches_of_replay hstate
  have hgone := dead_member_disappears (sampleDeath {"ix-a", "ix-b"}) (by decide) quietStart state
    quietStart_initial hreaches (by rw [hnow]; decide)
  exact ⟨state, hreaches, hgone "ix-a" (by simp [sampleDeath]) (by decide),
    hgone "ix-b" (by simp [sampleDeath]) (by decide)⟩

end Gossip
