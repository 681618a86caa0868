/-
# The TCP coalescer

Packets of one flow that follow each other are merged before they go on.  The coalescer keeps
one group open, or one for each of many flows
(`coalesceDataSessionTCPLocalPacketsConfiguredScratchOptions` in
`internal/daemon/gso_coalesce.go`).

* `represents_single`, `represents_multi` : after every packet, what was given out and what is
  open are groups of the packets so far, in the sense of `FlowGroups`;
* `coalesce_preserves_streams` : the packets that come out.
-/
import Mathlib.Data.List.AList
import Mathlib.Data.List.ReduceOption
import TrustIX.GsoPacket
import TrustIX.FlowGroups

namespace Datapath

open ByteEdit FlowGroups

/-! ## The two loops -/

def dataSessionGSOCoalesceMaxActiveFlows : ℕ := 64

/-- `tcpGSOCoalesceOptions`. -/
structure CoalesceOptions where
  skipTCPChecksumAbove : ℤ
  multiFlow : Bool

/-- `dataSessionGSOCoalesceStats`. -/
structure CoalesceStats where
  batches : ℕ
  inputPackets : ℕ
  outputPackets : ℕ
  outputBytes : ℕ
  deriving DecidableEq

def tcpGSOCoalesceSkipTCPChecksum (totalLen : ℕ) (options : CoalesceOptions) : Bool :=
  options.skipTCPChecksumAbove > 0 && (totalLen : ℤ) > options.skipTCPChecksumAbove

/-- What a flush gives for a coalescer. -/
def flushed (options : CoalesceOptions) (current : Coalescer) : Bytes :=
  if current.count ≤ 1 then current.packet.take current.info.totalLen
  else finishTCPGSOCoalescedPacket current.packet current.info
    (tcpGSOCoalesceSkipTCPChecksum current.info.totalLen options)

/-- What it counts. -/
def CoalesceStats.flush (options : CoalesceOptions) (stats : CoalesceStats) (current : Coalescer) :
    CoalesceStats :=
  if current.count ≤ 1 then stats
  else ⟨stats.batches + 1, stats.inputPackets + current.count, stats.outputPackets + 1,
    stats.outputBytes + (flushed options current).length⟩

/-- The variables of the loop for one flow. -/
structure SingleFlow where
  out : List Bytes
  current : Option Coalescer
  stats : CoalesceStats

namespace SingleFlow

def flush (options : CoalesceOptions) (s : SingleFlow) : SingleFlow :=
  match s.current with
  | none => s
  | some current => ⟨s.out ++ [flushed options current], none, s.stats.flush options current⟩

def step (options : CoalesceOptions) (maxBytes maxPackets : ℤ) (s : SingleFlow) (packet : Bytes) :
    SingleFlow :=
  match tcpGSOCoalescePacketMeta packet with
  | none =>
    let s := s.flush options
    { s with out := s.out ++ [packet] }
  | some info =>
    match s.current with
    | none => { s with current := some (startCoalescer packet info) }
    | some current =>
      if !tcpGSOCoalescerCanAppend current packet info maxBytes maxPackets then
        { s.flush options with current := some (startCoalescer packet info) }
      else { s with current := some (appendPacket current packet info) }

end SingleFlow

/-- The variables of the loop for many flows: the groups, with holes where one was flushed,
and where the group of a flow is. -/
structure MultiFlow where
  out : List Bytes
  active : AList fun _ : CoalesceKey => ℕ
  flows : List (Option Coalescer)
  stats : CoalesceStats

namespace MultiFlow

def flushIndex (options : CoalesceOptions) (s : MultiFlow) (index : ℕ) : MultiFlow :=
  match s.flows[index]? with
  | some (some current) =>
    ⟨s.out ++ [flushed options current], s.active.erase current.info.key, s.flows.set index none,
      s.stats.flush options current⟩
  | _ => s

def flushAll (options : CoalesceOptions) (s : MultiFlow) : MultiFlow :=
  let s := (List.range s.flows.length).foldl (flushIndex options) s
  { s with active := ∅, flows := [] }

def startFlow (options : CoalesceOptions) (s : MultiFlow) (packet : Bytes) (info : CoalesceMeta) :
    MultiFlow :=
  let s := if s.active.entries.length ≥ dataSessionGSOCoalesceMaxActiveFlows then
    s.flushAll options else s
  { s with
    active := s.active.insert info.key s.flows.length
    flows := s.flows ++ [some (startCoalescer packet info)] }

def step (options : CoalesceOptions) (maxBytes maxPackets : ℤ) (s : MultiFlow) (packet : Bytes) :
    MultiFlow :=
  match tcpGSOCoalescePacketMeta packet with
  | none =>
    let s := s.flushAll options
    { s with out := s.out ++ [packet] }
  | some info =>
    match s.active.lookup info.key with
    | none => s.startFlow options packet info
    | some index =>
      match s.flows[index]? with
      | some (some current) =>
        if !tcpGSOCoalescerCanAppend current packet info maxBytes maxPackets then
          (s.flushIndex options index).startFlow options packet info
        else { s with flows := s.flows.set index (some (appendPacket current packet info)) }
      | _ => (s.flushIndex options index).startFlow options packet info

end MultiFlow

/-- `coalesceDataSessionTCPLocalPacketsMultiFlowScratchOptions`. -/
def coalesceMultiFlow (packets : List Bytes) (maxBytes maxPackets : ℤ) (options : CoalesceOptions) :
    List Bytes × CoalesceStats :=
  let s := (packets.foldl (MultiFlow.step options maxBytes maxPackets)
    ⟨[], ∅, [], ⟨0, 0, 0, 0⟩⟩).flushAll options
  if s.stats.batches = 0 then (packets, s.stats) else (s.out, s.stats)

/-- `coalesceDataSessionTCPLocalPacketsConfiguredScratchOptions`. -/
def coalesceDataSessionTCPLocalPackets (packets : List Bytes) (enabled : Bool)
    (maxBytes maxPackets : ℤ) (options : CoalesceOptions) : List Bytes × CoalesceStats :=
  if packets.length < 2 ∨ !enabled then (packets, ⟨0, 0, 0, 0⟩)
  else if maxBytes ≤ 0 ∨ maxPackets ≤ 1 then (packets, ⟨0, 0, 0, 0⟩)
  else if options.multiFlow then coalesceMultiFlow packets maxBytes maxPackets options
  else
    let s := (packets.foldl (SingleFlow.step options maxBytes maxPackets)
      ⟨[], none, ⟨0, 0, 0, 0⟩⟩).flush options
    if s.stats.batches = 0 then (packets, s.stats) else (s.out, s.stats)

/-! ## Groups of packets -/

/-- The flow of a packet, if it can be merged. -/
def flowAt (packets : List Bytes) (i : ℕ) : Option CoalesceKey :=
  (packets[i]?.bind tcpGSOCoalescePacketMeta).map CoalesceMeta.key

/-- The packets of a group. -/
def Members (packets : List Bytes) (group : List ℕ) (members : List Bytes) : Prop :=
  group.map (fun i => packets[i]?) = members.map some

section Groups

variable {packets : List Bytes} {options : CoalesceOptions} {maxBytes maxPackets : ℤ}

/-- A coalescer has taken the packets of a group. -/
def IsOpen (packets : List Bytes) (maxBytes maxPackets : ℤ) (group : List ℕ)
    (current : Coalescer) : Prop :=
  ∃ members, Members packets group members ∧ Gathered maxBytes maxPackets members current

/-- **What comes out for a group**: its packet unchanged, or its packets merged. -/
def IsOutput (packets : List Bytes) (options : CoalesceOptions) (maxBytes maxPackets : ℤ)
    (group : List ℕ) (out : Bytes) : Prop :=
  ∃ members, Members packets group members ∧
    (members = [out] ∨ ∃ first rest info, members = (first :: rest).map Prod.fst ∧
      Merged maxBytes maxPackets (fun totalLen => tcpGSOCoalesceSkipTCPChecksum totalLen options)
        first rest out info)

variable {group : List ℕ}

theorem Members.concat {members : List Bytes} (h : Members packets group members) {n : ℕ}
    {packet : Bytes} (hn : packets[n]? = some packet) :
    Members packets (group ++ [n]) (members ++ [packet]) := by
  unfold Members at *
  rw [List.map_append, List.map_append, h]
  simp [hn]

theorem members_singleton {n : ℕ} {packet : Bytes} (hn : packets[n]? = some packet) :
    Members packets [n] [packet] := by
  simp [Members, hn]

theorem flowAt_eq {n : ℕ} {packet : Bytes} (hn : packets[n]? = some packet) :
    flowAt packets n = (tcpGSOCoalescePacketMeta packet).map CoalesceMeta.key := by
  rw [flowAt, hn, Option.bind_some]

theorem flow_of_isOpen {current : Coalescer} (h : IsOpen packets maxBytes maxPackets group current) :
    group ≠ [] ∧ ∀ i ∈ group, flowAt packets i = some current.info.key := by
  obtain ⟨members, hmembers, hgathered⟩ := h
  obtain ⟨first, rest, rfl, hholding⟩ := hgathered.spec
  have hkey : current.info.key = first.2.key := by rw [hholding.info]
  constructor
  · rintro rfl
    simp [Members] at hmembers
  · intro i hi
    have hmem : packets[i]? ∈ ((first :: rest).map Prod.fst).map some := by
      rw [← hmembers]
      exact List.mem_map_of_mem hi
    obtain ⟨packet, hpacket, heq⟩ := List.mem_map.mp hmem
    obtain ⟨member, hmember, rfl⟩ := List.mem_map.mp hpacket
    rw [flowAt_eq heq.symm, hholding.reads member hmember, hkey]
    exact congrArg some (hholding.flow member hmember)

/-- What a flush gives for a group: its packet, or what the headers of several are written in. -/
def IsFlushed (packets : List Bytes) (options : CoalesceOptions) (maxBytes maxPackets : ℤ)
    (group : List ℕ) (out : Bytes) : Prop :=
  ∃ members, Members packets group members ∧ (members = [out] ∨ ∃ current,
    Gathered maxBytes maxPackets members current ∧ 1 < current.count ∧
      out = finishTCPGSOCoalescedPacket current.packet current.info
        (tcpGSOCoalesceSkipTCPChecksum current.info.totalLen options))

theorem isFlushed_flushed {current : Coalescer}
    (h : IsOpen packets maxBytes maxPackets group current) :
    IsFlushed packets options maxBytes maxPackets group (flushed options current) := by
  obtain ⟨members, hmembers, hgathered⟩ := h
  refine ⟨_, hmembers, ?_⟩
  unfold flushed
  by_cases hone : current.count ≤ 1
  · obtain ⟨first, rest, rfl, hholding⟩ := hgathered.spec
    have hcount := hholding.count
    rw [List.length_cons] at hcount
    obtain rfl : rest = [] := List.length_eq_zero_iff.mp (by omega)
    have hpacket : current.packet = first.1 := by
      rw [hholding.packet]
      exact List.append_nil _
    have htotal : current.info.totalLen = first.1.length := by rw [hholding.info, hpacket]
    rw [if_pos hone, hpacket, htotal, List.take_length]
    exact .inl rfl
  · rw [if_neg hone]
    exact .inr ⟨current, hgathered, by omega, rfl⟩

theorem IsFlushed.isOutput {out : Bytes}
    (h : IsFlushed packets options maxBytes maxPackets group out) :
    IsOutput packets options maxBytes maxPackets group out := by
  obtain ⟨members, hmembers, hout⟩ := h
  refine ⟨members, hmembers, hout.imp_right ?_⟩
  rintro ⟨current, hgathered, hseveral, rfl⟩
  obtain ⟨first, rest, rfl, hholding⟩ := hgathered.spec
  have hcount := hholding.count
  have hrest : rest ≠ [] := by
    rintro rfl
    rw [hcount] at hseveral
    exact lt_irrefl _ hseveral
  obtain ⟨info, hmerged⟩ := @merged_of_holding _ _
    (fun totalLen => tcpGSOCoalesceSkipTCPChecksum totalLen options) _ _ _ hholding hrest
  exact ⟨first, rest, info, rfl, hmerged⟩

/-- What was given out and what is open are groups of the first `n` packets. -/
def Represents (packets : List Bytes) (options : CoalesceOptions) (maxBytes maxPackets : ℤ) (n : ℕ)
    (out : List Bytes) (coalescers : List Coalescer) : Prop :=
  ∃ closed opened, Grouped (flowAt packets) n closed opened ∧
    List.Forall₂ (IsFlushed packets options maxBytes maxPackets) closed out ∧
    List.Forall₂ (IsOpen packets maxBytes maxPackets) opened coalescers

variable {n : ℕ} {out : List Bytes} {coalescers front back : List Coalescer} {current : Coalescer}
  {packet : Bytes} {info : CoalesceMeta}

theorem represents_nil : Represents packets options maxBytes maxPackets 0 [] [] :=
  ⟨[], [], grouped_nil _, .nil, .nil⟩

theorem split_opened {opened : List (List ℕ)}
    (h : List.Forall₂ (IsOpen packets maxBytes maxPackets) opened (front ++ current :: back)) :
    ∃ fronts group backs, opened = fronts ++ group :: backs ∧
      List.Forall₂ (IsOpen packets maxBytes maxPackets) fronts front ∧
      IsOpen packets maxBytes maxPackets group current ∧
      List.Forall₂ (IsOpen packets maxBytes maxPackets) backs back := by
  have hfront := List.forall₂_take_append _ _ _ h
  obtain ⟨group, backs, hgroup, hback, heq⟩ :=
    List.forall₂_cons_right_iff.mp (List.forall₂_drop_append _ _ _ h)
  refine ⟨_, group, backs, ?_, hfront, hgroup, hback⟩
  rw [← heq, List.take_append_drop]

theorem exists_current {opened : List (List ℕ)}
    (h : List.Forall₂ (IsOpen packets maxBytes maxPackets) opened coalescers)
    (hgroup : group ∈ opened) :
    ∃ current ∈ coalescers, IsOpen packets maxBytes maxPackets group current := by
  induction h with
  | nil => cases hgroup
  | cons hfirst _ ih =>
    rcases List.mem_cons.mp hgroup with rfl | hgroup
    · exact ⟨_, List.mem_cons_self, hfirst⟩
    · obtain ⟨current, hcurrent, hopen⟩ := ih hgroup
      exact ⟨current, List.mem_cons_of_mem _ hcurrent, hopen⟩

theorem Represents.flush
    (h : Represents packets options maxBytes maxPackets n out (front ++ current :: back)) :
    Represents packets options maxBytes maxPackets n (out ++ [flushed options current])
      (front ++ back) := by
  obtain ⟨closed, opened, hgrouped, hout, hopen⟩ := h
  obtain ⟨fronts, group, backs, rfl, hfront, hgroup, hback⟩ := split_opened hopen
  exact ⟨_, _, hgrouped.close, List.rel_append hout (.cons (isFlushed_flushed hgroup) .nil),
    List.rel_append hfront hback⟩

theorem Represents.alone (h : Represents packets options maxBytes maxPackets n out [])
    (hn : packets[n]? = some packet) :
    Represents packets options maxBytes maxPackets (n + 1) (out ++ [packet]) [] := by
  obtain ⟨closed, opened, hgrouped, hout, hopen⟩ := h
  cases hopen
  exact ⟨_, _, hgrouped.alone,
    List.rel_append hout (.cons ⟨[packet], members_singleton hn, .inl rfl⟩ .nil), .nil⟩

theorem Represents.start (h : Represents packets options maxBytes maxPackets n out coalescers)
    (hn : packets[n]? = some packet) (hinfo : tcpGSOCoalescePacketMeta packet = some info)
    (hnew : ∀ current ∈ coalescers, current.info.key ≠ info.key) :
    Represents packets options maxBytes maxPackets (n + 1) out
      (coalescers ++ [startCoalescer packet info]) := by
  obtain ⟨closed, opened, hgrouped, hout, hopen⟩ := h
  have hflow : flowAt packets n = some info.key := by
    rw [flowAt_eq hn, hinfo]
    rfl
  refine ⟨_, _, hgrouped.start hflow fun group hgroup i hi => ?_, hout,
    List.rel_append hopen (.cons ⟨[packet], members_singleton hn, .start hinfo⟩ .nil)⟩
  obtain ⟨current, hcurrent, hisOpen⟩ := exists_current hopen hgroup
  rw [(flow_of_isOpen hisOpen).2 i hi]
  exact fun heq => hnew current hcurrent (Option.some.inj heq)

theorem Represents.append
    (h : Represents packets options maxBytes maxPackets n out (front ++ current :: back))
    (hn : packets[n]? = some packet) (hinfo : tcpGSOCoalescePacketMeta packet = some info)
    (hcan : tcpGSOCoalescerCanAppend current packet info maxBytes maxPackets = true) :
    Represents packets options maxBytes maxPackets (n + 1) out
      (front ++ appendPacket current packet info :: back) := by
  obtain ⟨closed, opened, hgrouped, hout, hopen⟩ := h
  obtain ⟨fronts, group, backs, rfl, hfront, hgroup, hback⟩ := split_opened hopen
  obtain ⟨hne, hflows⟩ := flow_of_isOpen hgroup
  have hflow : flowAt packets n = some current.info.key := by
    rw [flowAt_eq hn, hinfo, (appends_of_canAppend hcan).key]
    rfl
  obtain ⟨members, hmembers, hgathered⟩ := hgroup
  exact ⟨_, _, hgrouped.extend hflow hflows hne, hout, List.rel_append hfront
    (.cons ⟨_, hmembers.concat hn, hgathered.append hinfo hcan⟩ hback)⟩

/-! ## One flow -/

/-- A loop over the packets keeps what each of its steps keeps. -/
theorem foldl_packets {σ : Type} (packets : List Bytes) (step : σ → Bytes → σ)
    (P : ℕ → σ → Prop) {start : σ} (hstart : P 0 start)
    (hstep : ∀ n s packet, packets[n]? = some packet → P n s → P (n + 1) (step s packet)) :
    P packets.length (packets.foldl step start) := by
  have hfrom : ∀ rest n s, packets.drop n = rest → P n s → n ≤ packets.length →
      P packets.length (rest.foldl step s) := by
    intro rest
    induction rest with
    | nil =>
      intro n s hdrop hP hn
      have hlen := List.drop_eq_nil_iff.mp hdrop
      rwa [show packets.length = n by omega]
    | cons packet rest ih =>
      intro n s hdrop hP hn
      have hget : packets[n]? = some packet := by
        rw [← Nat.add_zero n, ← List.getElem?_drop, hdrop]
        rfl
      have hlt := (List.getElem?_eq_some_iff.mp hget).1
      apply ih (n + 1) _ _ (hstep n s packet hget hP) hlt
      rw [← List.tail_drop, hdrop, List.tail_cons]
  exact hfrom packets 0 start rfl hstart (Nat.zero_le _)

theorem SingleFlow.represents_flush {s : SingleFlow}
    (h : Represents packets options maxBytes maxPackets n s.out s.current.toList) :
    Represents packets options maxBytes maxPackets n (s.flush options).out [] ∧
      (s.flush options).current = none := by
  obtain ⟨out, current, stats⟩ := s
  cases current with
  | none => exact ⟨h, rfl⟩
  | some current =>
    have hone : Represents packets options maxBytes maxPackets n out ([] ++ current :: []) := h
    exact ⟨hone.flush, rfl⟩

theorem SingleFlow.represents_step {s : SingleFlow}
    (h : Represents packets options maxBytes maxPackets n s.out s.current.toList)
    (hn : packets[n]? = some packet) :
    Represents packets options maxBytes maxPackets (n + 1)
      (s.step options maxBytes maxPackets packet).out
      (s.step options maxBytes maxPackets packet).current.toList := by
  obtain ⟨hflush, hnone⟩ := SingleFlow.represents_flush h
  unfold SingleFlow.step
  cases hinfo : tcpGSOCoalescePacketMeta packet with
  | none =>
    simp only [hnone]
    exact hflush.alone hn
  | some info =>
    cases hcurrent : s.current with
    | none =>
      rw [hcurrent] at h
      exact h.start hn hinfo (by simp)
    | some current =>
      simp only
      have hone : Represents packets options maxBytes maxPackets n s.out
          ([] ++ current :: []) := by
        rw [hcurrent] at h
        exact h
      cases hcan : tcpGSOCoalescerCanAppend current packet info maxBytes maxPackets with
      | false => exact hflush.start hn hinfo (by simp)
      | true => exact hone.append hn hinfo hcan

/-- **After all packets**, everything is given out. -/
theorem represents_single (packets : List Bytes) (options : CoalesceOptions)
    (maxBytes maxPackets : ℤ) :
    Represents packets options maxBytes maxPackets packets.length
      ((packets.foldl (SingleFlow.step options maxBytes maxPackets)
        ⟨[], none, ⟨0, 0, 0, 0⟩⟩).flush options).out [] := by
  apply And.left
  apply SingleFlow.represents_flush
  exact foldl_packets packets (SingleFlow.step options maxBytes maxPackets)
    (fun n s => Represents packets options maxBytes maxPackets n s.out s.current.toList)
    represents_nil fun n s packet hn h => SingleFlow.represents_step h hn

/-! ## Many flows -/

/-- The map says where the group of each flow is. -/
def MultiFlow.Indexed (s : MultiFlow) : Prop :=
  ∀ key index, s.active.lookup key = some index ↔
    ∃ current, s.flows[index]? = some (some current) ∧ current.info.key = key

variable {index : ℕ}

theorem exists_split {flows : List (Option Coalescer)} (h : flows[index]? = some (some current)) :
    ∃ front back, front.length = index ∧ flows = front ++ some current :: back ∧
      ∀ new, flows.set index new = front ++ new :: back := by
  obtain ⟨hlt, hget⟩ := List.getElem?_eq_some_iff.mp h
  refine ⟨flows.take index, flows.drop (index + 1), ?_, ?_, fun new => ?_⟩
  · rw [List.length_take]
    omega
  · rw [← hget, ← List.drop_eq_getElem_cons hlt, List.take_append_drop]
  · exact List.set_eq_take_append_cons_drop.trans (if_pos hlt)

/-- A hole hides only what was at its place. -/
theorem getElem?_set_none {flows : List (Option Coalescer)} {other : ℕ} :
    (flows.set index none)[other]? = some (some current) ↔
      index ≠ other ∧ flows[other]? = some (some current) := by
  rw [List.getElem?_set]
  split_ifs with hindex hlt
  · simp [hindex]
  · simp [hindex]
  · simp [hindex]

/-- The state is what it should be after `n` packets. -/
structure MultiFlow.Sound (packets : List Bytes) (options : CoalesceOptions)
    (maxBytes maxPackets : ℤ) (n : ℕ) (s : MultiFlow) : Prop where
  represents : Represents packets options maxBytes maxPackets n s.out s.flows.reduceOption
  indexed : s.Indexed

variable {s : MultiFlow}

theorem MultiFlow.flushIndex_of_none
    (h : ∀ current, s.flows[index]? ≠ some (some current)) : s.flushIndex options index = s := by
  unfold MultiFlow.flushIndex
  split
  · next current hget => exact absurd hget (h current)
  · rfl

theorem MultiFlow.flushIndex_of_some (h : s.flows[index]? = some (some current)) :
    s.flushIndex options index = ⟨s.out ++ [flushed options current],
      s.active.erase current.info.key, s.flows.set index none, s.stats.flush options current⟩ := by
  unfold MultiFlow.flushIndex
  rw [h]

theorem MultiFlow.sound_flushIndex (h : s.Sound packets options maxBytes maxPackets n) (index : ℕ) :
    (s.flushIndex options index).Sound packets options maxBytes maxPackets n := by
  by_cases hsome : ∃ current, s.flows[index]? = some (some current)
  · obtain ⟨current, hget⟩ := hsome
    obtain ⟨front, back, -, hflows, hset⟩ := exists_split hget
    rw [MultiFlow.flushIndex_of_some hget]
    constructor
    · have hrep := h.represents
      rw [hflows, List.reduceOption_append, List.reduceOption_cons_of_some] at hrep
      simp only [hset none, List.reduceOption_append, List.reduceOption_cons_of_none]
      exact hrep.flush
    · intro key other
      have hown := (h.indexed current.info.key index).mpr ⟨current, hget, rfl⟩
      by_cases hkey : key = current.info.key
      · -- the group of this flow is the one that went
        subst hkey
        rw [AList.lookup_erase]
        constructor
        · intro hnone
          cases hnone
        · rintro ⟨found, hfound, hsame⟩
          obtain ⟨hindex, hfound⟩ := getElem?_set_none.mp hfound
          rw [(h.indexed current.info.key other).mpr ⟨found, hfound, hsame⟩] at hown
          exact absurd (Option.some.inj hown).symm hindex
      · rw [AList.lookup_erase_ne hkey, h.indexed key other]
        constructor
        · rintro ⟨found, hfound, rfl⟩
          have hne : index ≠ other := by
            rintro rfl
            rw [hget] at hfound
            cases hfound
            exact hkey rfl
          exact ⟨found, getElem?_set_none.mpr ⟨hne, hfound⟩, rfl⟩
        · rintro ⟨found, hfound, hsame⟩
          exact ⟨found, (getElem?_set_none.mp hfound).2, hsame⟩
  · rw [MultiFlow.flushIndex_of_none (fun current hget => hsome ⟨current, hget⟩)]
    exact h

/-- After the loop of `flushAll` no group is left. -/
theorem MultiFlow.flows_foldl_flushIndex (s : MultiFlow) (indexes : List ℕ) (index : ℕ)
    (hindex : index ∈ indexes ∨ ∀ current, s.flows[index]? ≠ some (some current)) :
    ∀ current, (indexes.foldl (MultiFlow.flushIndex options) s).flows[index]? ≠
      some (some current) := by
  induction indexes generalizing s with
  | nil => exact hindex.resolve_left (by simp)
  | cons first rest ih =>
    apply ih
    by_cases hsome : ∃ current, s.flows[first]? = some (some current)
    · obtain ⟨found, hget⟩ := hsome
      rw [MultiFlow.flushIndex_of_some hget]
      by_cases hfirst : first = index
      · exact .inr fun current heq => (getElem?_set_none.mp heq).1 hfirst
      · rcases hindex with hmem | hnone
        · exact .inl ((List.mem_cons.mp hmem).resolve_left fun heq => hfirst heq.symm)
        · exact .inr fun current heq => hnone current (getElem?_set_none.mp heq).2
    · have hnone : ∀ current, s.flows[first]? ≠ some (some current) :=
        fun current hget => hsome ⟨current, hget⟩
      rw [MultiFlow.flushIndex_of_none hnone]
      rcases hindex with hmem | hnone'
      · rcases List.mem_cons.mp hmem with rfl | hmem
        · exact .inr hnone
        · exact .inl hmem
      · exact .inr hnone'

theorem MultiFlow.sound_flushAll (h : s.Sound packets options maxBytes maxPackets n) :
    (s.flushAll options).Sound packets options maxBytes maxPackets n := by
  have hfold : ∀ indexes : List ℕ, ((indexes.foldl (MultiFlow.flushIndex options) s).Sound packets
      options maxBytes maxPackets n) := by
    intro indexes
    induction indexes using List.reverseRecOn with
    | nil => exact h
    | append_singleton indexes index ih =>
      rw [List.foldl_append]
      exact MultiFlow.sound_flushIndex ih index
  have hlength : ∀ indexes : List ℕ,
      (indexes.foldl (MultiFlow.flushIndex options) s).flows.length = s.flows.length := by
    intro indexes
    induction indexes using List.reverseRecOn with
    | nil => rfl
    | append_singleton indexes index ih =>
      rw [List.foldl_append, List.foldl_cons, List.foldl_nil, ← ih]
      unfold MultiFlow.flushIndex
      split
      · exact List.length_set
      · rfl
  have hempty : ((List.range s.flows.length).foldl (MultiFlow.flushIndex options)
      s).flows.reduceOption = [] := by
    rw [List.reduceOption, List.filterMap_eq_nil_iff]
    intro entry hentry
    obtain ⟨index, hget⟩ := List.mem_iff_getElem?.mp hentry
    have hlt := (List.getElem?_eq_some_iff.mp hget).1
    rw [hlength] at hlt
    cases entry with
    | none => rfl
    | some current =>
      exact absurd hget (MultiFlow.flows_foldl_flushIndex s _ index
        (.inl (List.mem_range.mpr hlt)) current)
  constructor
  · have hrep := (hfold (List.range s.flows.length)).represents
    rw [hempty] at hrep
    exact hrep
  · intro key index
    simp [MultiFlow.flushAll]

theorem MultiFlow.sound_startFlow (h : s.Sound packets options maxBytes maxPackets n)
    (hn : packets[n]? = some packet) (hinfo : tcpGSOCoalescePacketMeta packet = some info)
    (hnew : s.active.lookup info.key = none) :
    (s.startFlow options packet info).Sound packets options maxBytes maxPackets (n + 1) := by
  have hstart : ∀ s : MultiFlow, s.Sound packets options maxBytes maxPackets n →
      s.active.lookup info.key = none →
      MultiFlow.Sound packets options maxBytes maxPackets (n + 1)
        { s with
          active := s.active.insert info.key s.flows.length
          flows := s.flows ++ [some (startCoalescer packet info)] } := by
    intro s h hnew
    constructor
    · simp only [List.reduceOption_append]
      apply h.represents.start hn hinfo
      intro current hcurrent hkey
      rw [List.reduceOption_mem_iff] at hcurrent
      obtain ⟨index, hget⟩ := List.mem_iff_getElem?.mp hcurrent
      rw [← hkey, (h.indexed _ index).mpr ⟨current, hget, rfl⟩] at hnew
      cases hnew
    · intro key index
      by_cases hkey : key = info.key
      · subst hkey
        rw [AList.lookup_insert]
        constructor
        · intro heq
          cases heq
          exact ⟨startCoalescer packet info, by simp, rfl⟩
        · rintro ⟨found, hfound, hsame⟩
          by_cases hlt : index < s.flows.length
          · rw [List.getElem?_append_left hlt] at hfound
            rw [(h.indexed _ index).mpr ⟨found, hfound, hsame⟩] at hnew
            cases hnew
          · have hle := (List.getElem?_eq_some_iff.mp hfound).1
            rw [List.length_append, List.length_singleton] at hle
            rw [show index = s.flows.length by omega]
      · rw [AList.lookup_insert_ne hkey, h.indexed key index]
        constructor
        · rintro ⟨found, hfound, rfl⟩
          have hlt := (List.getElem?_eq_some_iff.mp hfound).1
          exact ⟨found, by rw [List.getElem?_append_left hlt]; exact hfound, rfl⟩
        · rintro ⟨found, hfound, rfl⟩
          by_cases hlt : index < s.flows.length
          · rw [List.getElem?_append_left hlt] at hfound
            exact ⟨found, hfound, rfl⟩
          · rw [List.getElem?_append_right (by omega)] at hfound
            obtain ⟨hzero, hget⟩ := List.getElem?_eq_some_iff.mp hfound
            simp only [List.length_singleton, Nat.lt_one_iff] at hzero
            simp only [hzero, List.getElem_cons_zero, Option.some.injEq] at hget
            exact absurd (hget ▸ rfl) hkey
  unfold MultiFlow.startFlow
  split_ifs with hfull
  · exact hstart _ (MultiFlow.sound_flushAll h) rfl
  · exact hstart s h hnew

theorem MultiFlow.sound_step (h : s.Sound packets options maxBytes maxPackets n)
    (hn : packets[n]? = some packet) :
    (s.step options maxBytes maxPackets packet).Sound packets options maxBytes maxPackets (n + 1) := by
  unfold MultiFlow.step
  cases hinfo : tcpGSOCoalescePacketMeta packet with
  | none =>
    have hall := MultiFlow.sound_flushAll h
    exact ⟨hall.represents.alone hn, hall.indexed⟩
  | some info =>
    simp only
    cases hlookup : s.active.lookup info.key with
    | none => exact MultiFlow.sound_startFlow h hn hinfo hlookup
    | some index =>
      obtain ⟨current, hget, hkey⟩ := (h.indexed info.key index).mp hlookup
      simp only [hget]
      cases hcan : tcpGSOCoalescerCanAppend current packet info maxBytes maxPackets with
      | false =>
        apply MultiFlow.sound_startFlow (MultiFlow.sound_flushIndex h index) hn hinfo
        rw [MultiFlow.flushIndex_of_some hget, ← hkey]
        exact AList.lookup_erase _ _
      | true =>
        obtain ⟨front, back, -, hflows, hset⟩ := exists_split hget
        have hrep := h.represents
        rw [hflows, List.reduceOption_append, List.reduceOption_cons_of_some] at hrep
        simp only [Bool.not_true, Bool.false_eq_true, if_false]
        constructor
        · simp only [hset, List.reduceOption_append, List.reduceOption_cons_of_some]
          exact hrep.append hn hinfo hcan
        · -- the group keeps its place and its flow
          intro key other
          rw [h.indexed key other, List.getElem?_set]
          have hlt := (List.getElem?_eq_some_iff.mp hget).1
          by_cases hother : index = other
          · subst hother
            rw [if_pos rfl, if_pos hlt, hget]
            simp [appendPacket]
          · rw [if_neg hother]

/-- **After all packets**, everything is given out. -/
theorem represents_multi (packets : List Bytes) (options : CoalesceOptions)
    (maxBytes maxPackets : ℤ) :
    Represents packets options maxBytes maxPackets packets.length
      ((packets.foldl (MultiFlow.step options maxBytes maxPackets)
        ⟨[], ∅, [], ⟨0, 0, 0, 0⟩⟩).flushAll options).out [] := by
  have hrun : (packets.foldl (MultiFlow.step options maxBytes maxPackets)
      ⟨[], ∅, [], ⟨0, 0, 0, 0⟩⟩).Sound packets options maxBytes maxPackets packets.length := by
    refine foldl_packets packets (MultiFlow.step options maxBytes maxPackets)
      (fun n s => s.Sound packets options maxBytes maxPackets n) ⟨represents_nil, ?_⟩
      fun n s packet hn h => MultiFlow.sound_step h hn
    intro key index
    simp
  exact (MultiFlow.sound_flushAll hrun).represents

end Groups

/-! ## The coalescer -/

/-- Groups of packets in the order in which they go on. -/
structure Regroups (packets : List Bytes) (groups : List (List ℕ)) : Prop where
  once : groups.flatten.Perm (List.range packets.length)
  order : groups.flatten.Pairwise fun i j => Related (flowAt packets) i j → i < j
  runs : ∀ group ∈ groups, ∀ i ∈ group, ∀ k ∈ group, ∀ j, i < j → j < k →
    Related (flowAt packets) i j → Related (flowAt packets) j k → j ∈ group

theorem regroups_of_grouped {packets : List Bytes} {groups : List (List ℕ)}
    (h : Grouped (flowAt packets) packets.length groups []) : Regroups packets groups := by
  have honce := h.once
  have horder := h.order
  rw [List.append_nil] at honce horder
  exact ⟨honce, horder, fun group hgroup i hi k hk j hij hjk => h.consecutive hgroup hi hk hij hjk⟩

/-- Packets that are left as they are form groups of their own. -/
theorem represents_unchanged (packets : List Bytes) (options : CoalesceOptions)
    (maxBytes maxPackets : ℤ) :
    Represents packets options maxBytes maxPackets packets.length packets [] := by
  have hrun := foldl_packets packets (fun out packet => out ++ [packet])
    (fun n out => Represents packets options maxBytes maxPackets n out []) represents_nil
    fun n out packet hn h => h.alone hn
  have hself : packets.foldl (fun out packet => out ++ [packet]) [] = packets := by
    rw [List.foldl_append_eq_append, List.nil_append, ← List.flatMap_def, List.flatMap_singleton']
  rwa [hself] at hrun

/-- What comes out of the coalescer, whether it merges or not. -/
theorem represents_coalesce (packets : List Bytes) (enabled : Bool) (maxBytes maxPackets : ℤ)
    (options : CoalesceOptions) :
    Represents packets options maxBytes maxPackets packets.length
      (coalesceDataSessionTCPLocalPackets packets enabled maxBytes maxPackets options).1 [] := by
  have hsame := represents_unchanged packets options maxBytes maxPackets
  unfold coalesceDataSessionTCPLocalPackets coalesceMultiFlow
  simp only
  split_ifs
  · exact hsame
  · exact hsame
  · exact hsame
  · exact represents_multi packets options maxBytes maxPackets
  · exact hsame
  · exact represents_single packets options maxBytes maxPackets

theorem Represents.regroups {packets out : List Bytes} {options : CoalesceOptions}
    {maxBytes maxPackets : ℤ}
    (h : Represents packets options maxBytes maxPackets packets.length out []) :
    ∃ groups, Regroups packets groups ∧
      List.Forall₂ (IsFlushed packets options maxBytes maxPackets) groups out := by
  obtain ⟨closed, opened, hgrouped, hout, hopen⟩ := h
  cases hopen
  exact ⟨closed, regroups_of_grouped hgrouped, hout⟩

theorem Represents.streams {packets out : List Bytes} {options : CoalesceOptions}
    {maxBytes maxPackets : ℤ}
    (h : Represents packets options maxBytes maxPackets packets.length out []) :
    ∃ groups, Regroups packets groups ∧
      List.Forall₂ (IsOutput packets options maxBytes maxPackets) groups out := by
  obtain ⟨groups, hgroups, hout⟩ := h.regroups
  exact ⟨groups, hgroups, hout.imp fun _ _ => IsFlushed.isOutput⟩

/-- **The coalescer preserves every stream.**  The packets that come out stand for groups of
the packets that went in: each is in one group, packets of one flow keep their order, also to
those that cannot be merged, and a group is a run of its flow.  A group of one comes out
unchanged, and one of several as a merged packet. -/
theorem coalesce_preserves_streams (packets : List Bytes) (enabled : Bool) (maxBytes maxPackets : ℤ)
    (options : CoalesceOptions) :
    ∃ groups, Regroups packets groups ∧
      List.Forall₂ (IsOutput packets options maxBytes maxPackets) groups
        (coalesceDataSessionTCPLocalPackets packets enabled maxBytes maxPackets options).1 :=
  (represents_coalesce packets enabled maxBytes maxPackets options).streams

/-- A small packet of one flow. -/
def samplePacket (seq flags : UInt8) (payload : Bytes) : Bytes :=
  [0x45, 0, 0, 40 + UInt8.ofNat payload.length, 0, 1, 0x40, 0, 64, 6, 0, 0, 10, 0, 0, 1, 10, 0, 0, 2,
    0, 80, 0, 81, 0, 0, 0, seq, 0, 0, 0, 9, 0x50, flags, 0x20, 0, 0, 0, 0, 0] ++ payload

example : ((coalesceDataSessionTCPLocalPackets
    [samplePacket 1 0x10 [1, 2], samplePacket 3 0x18 [3], samplePacket 9 0x10 [4]] true 65535 128
    ⟨0, true⟩).1.map fun packet => (packet.drop 40, byteAt packet 33)) =
      [([1, 2, 3], 0x18), ([4], 0x10)] := by
  decide

end Datapath
