/-
# Forwarding a batch of captured packets

Captured packets that go to one session are merged where they can be, cut to the size of the
session and sent; if that fails, the session is dropped with the flows of all of them
(`sendForwardCacheBatch` in `internal/daemon/datapath.go`).

* `sendDataSessionPackets_spec` : a send succeeds if every packet fits or can be segmented and the
  transport takes every unit, and fails otherwise;
* `forward_unharmed_iff` : exactly then the session survives, and the packets were handed over;
* `oversized_packet_drops_session` : one packet that is too long takes the session down.
-/
import TrustIX.SegmentHeaders
import TrustIX.FlowMirror

namespace Datapath

open ByteEdit
open FlowMirror (FlowKey FlowBinding)

/-! ## The daemon -/

/-- `dataSessionKey`. -/
structure SessionKey where
  peer : String
  endpoint : String
  transport : String
  address : String
  encryption : String
  poolIndex : ℤ
  deriving DecidableEq

/-- `config.EndpointConfig`, as far as it names an endpoint. -/
structure EndpointConfig where
  name : String
  transport : String
  address : String

/-- `endpointStateKey`. -/
structure EndpointStateKey where
  peer : String
  endpoint : String
  transport : String
  address : String
  deriving DecidableEq

def endpointKey (peer : String) (endpoint : EndpointConfig) : EndpointStateKey :=
  ⟨peer, endpoint.name, endpoint.transport, endpoint.address⟩

def reverseSessionAddress : String := "reverse://inbound"

/-- The sessions in use, the endpoints that are marked down, the flows and the forward cache,
with what one session has to send. -/
structure ForwardState where
  send : SendState
  sessions : List SessionKey
  down : List EndpointStateKey
  flows : FlowKey → Option FlowBinding
  cache : FlowKey → Option SessionKey

/-- `dataForwardCacheEntry`; it may have lost its session. -/
structure ForwardEntry where
  key : SessionKey
  peer : String
  endpoint : EndpointConfig
  session : Option DataSession
  nativeBatching : Bool

/-- `captureForwardBatchCandidate`. -/
structure Candidate where
  flowKey : FlowKey
  packet : Bytes

/-- What `captureForwardScratch` says about coalescing, and what it is by default for the
session. -/
structure CoalesceScratch where
  maxBytes : ℤ
  maxPackets : ℤ
  enabled : Bool
  explicit : Bool
  multiFlow : Bool
  multiFlowExplicit : Bool
  sessionDefault : Bool
  sessionMultiFlow : Bool

namespace ForwardState

def deleteForwardCache (s : ForwardState) (key : FlowKey) : ForwardState :=
  { s with cache := Function.update s.cache key none }

def releaseFlow (s : ForwardState) (key : FlowKey) : ForwardState :=
  { s with flows := Function.update s.flows key none }.deleteForwardCache key

def dropSession (s : ForwardState) (key : SessionKey) : ForwardState :=
  { s with
    cache := fun flow => if s.cache flow = some key then none else s.cache flow
    sessions := s.sessions.filter (· ≠ key) }

def endpointHasActiveDataSession (s : ForwardState) (peer : String) (endpoint : EndpointConfig) :
    Bool :=
  let key := endpointKey peer endpoint
  s.sessions.any fun sessionKey =>
    sessionKey.peer = key.peer && sessionKey.endpoint = key.endpoint &&
      sessionKey.transport = key.transport &&
      (sessionKey.address = key.address || sessionKey.address = reverseSessionAddress)

/-- `recordEndpointDown`; an endpoint without a name or an address is not recorded. -/
def recordEndpointDown (s : ForwardState) (peer : String) (endpoint : EndpointConfig) : ForwardState :=
  if endpoint.name = "" ∨ endpoint.address = "" then s
  else { s with down := endpointKey peer endpoint :: s.down }

def recordEndpointDownIfNoActiveSession (s : ForwardState) (peer : String)
    (endpoint : EndpointConfig) : ForwardState :=
  if s.endpointHasActiveDataSession peer endpoint then s else s.recordEndpointDown peer endpoint

/-- `refreshEndpointUp`, which does something now and then. -/
def refreshEndpointUp (s : ForwardState) (refresh : Bool) (peer : String) (endpoint : EndpointConfig) :
    ForwardState :=
  if refresh ∧ endpoint.name ≠ "" ∧ endpoint.address ≠ "" then
    { s with down := s.down.filter (· ≠ endpointKey peer endpoint) }
  else s

/-- The answer to an error of a send. -/
def sendFailed (s : ForwardState) (entry : ForwardEntry) (items : List Candidate) : ForwardState :=
  let s := items.foldl (fun s item => (s.deleteForwardCache item.flowKey).releaseFlow item.flowKey) s
  (s.dropSession entry.key).recordEndpointDownIfNoActiveSession entry.peer entry.endpoint

end ForwardState

/-- The largest merged packet: it is to fit the session. -/
def coalesceMaxBytes (session : DataSession) (scratch : CoalesceScratch) : ℤ :=
  if session.stats.datagram ∧ 0 < session.stats.maxPacketSize ∧
      session.stats.maxPacketSize ≤ maxInt then
    min scratch.maxBytes session.stats.maxPacketSize
  else scratch.maxBytes

def prepareCaptureForwardWireBatch (session : DataSession) (packets : List Bytes)
    (scratch : Option CoalesceScratch) : List Bytes :=
  match scratch with
  | none => packets
  | some scratch =>
    if packets.length < 2 ∨ scratch.maxBytes ≤ 0 then packets
    else
      let enabled := scratch.enabled || !scratch.explicit && scratch.sessionDefault
      let multiFlow := scratch.multiFlow || !scratch.multiFlowExplicit && scratch.sessionMultiFlow
      if !enabled then packets
      else (coalesceDataSessionTCPLocalPackets packets enabled (coalesceMaxBytes session scratch)
        scratch.maxPackets ⟨0, multiFlow⟩).1

/-- The name of a batch in the texts of errors. -/
def batchName (entry : ForwardEntry) : String :=
  if entry.nativeBatching then "native packet batch" else "packet batch"

/-- `sendForwardCacheBatch` and `sendForwardCacheNativeBatch`; `refresh` tells whether the
endpoint is recorded as up again, `cancelled` is the error of the context. -/
def sendForwardCacheBatch (entry : ForwardEntry) (scratch : Option CoalesceScratch) (now : ℕ)
    (refresh : Bool) (cancelled : Option String) (items : List Candidate) (s : ForwardState) :
    Except String Unit × ForwardState :=
  if items = [] then (.ok (), s)
  else
    match entry.session with
    | none => (.error "forward cache session missing",
        items.foldl (fun s item => s.deleteForwardCache item.flowKey) s)
    | some session =>
      let wires := prepareCaptureForwardWireBatch session (items.map Candidate.packet) scratch
      match sendDataSessionPackets session now s.send wires with
      | (.error text, send) =>
        (.error ("send " ++ batchName entry ++ " to peer " ++ entry.peer.quote ++ " endpoint " ++
          entry.endpoint.name.quote ++ ": " ++ text),
          { s with send := send }.sendFailed entry items)
      | (.ok (), send) =>
        (match cancelled with
          | some text => .error text
          | none => .ok (),
          { s with send := send }.refreshEndpointUp refresh entry.peer entry.endpoint)

/-! ## The units of a call -/

section Send

variable {session : DataSession} {now : ℕ} {s : SendState}

/-- The packets are put together in payloads. -/
def DataSession.queues (session : DataSession) (wires : List Bytes) : Bool :=
  session.batching.enabled && !session.native &&
    !(wires.length = 1 && wires.all isDataSessionControlPacket)

/-- What `sendDataSessionPackets` gives to the transport, and what waits afterwards. -/
def planned (session : DataSession) (now : ℕ) (s : SendState) (wires : List Bytes) : List WireUnit :=
  if session.queues wires then
    (queueLoop session now s wires).flushes.map .batch ++
      (queueLoop session now s wires).directs.map .single
  else (if s.queued = [] then [] else [.batch s.queued]) ++ wires.map .single

def waiting (session : DataSession) (now : ℕ) (s : SendState) (wires : List Bytes) : List Bytes :=
  if session.queues wires then (queueLoop session now s wires).queued else []

theorem transmit_of_accepted {units : List WireUnit}
    (h : ∀ unit ∈ units, session.answer unit.bytes = none) (s : SendState) :
    transmit session s units = (.ok (), { s with handed := s.handed ++ units }) := by
  induction units generalizing s with
  | nil => simp [transmit]
  | cons unit rest ih =>
    rw [transmit, h unit List.mem_cons_self]
    rw [ih fun other hother => h other (List.mem_cons_of_mem _ hother)]
    simp

theorem transmit_of_refused {units : List WireUnit}
    (h : ∃ unit ∈ units, session.answer unit.bytes ≠ none) (s : SendState) :
    ∃ text t, transmit session s units = (.error text, t) := by
  induction units generalizing s with
  | nil =>
    obtain ⟨unit, hunit, -⟩ := h
    cases hunit
  | cons unit rest ih =>
    rw [transmit]
    cases hanswer : session.answer unit.bytes with
    | some text =>
      cases unit with
      | single packet => exact ⟨text, _, rfl⟩
      | batch items => exact ⟨text, _, rfl⟩
    | none =>
      obtain ⟨other, hother, hrefused⟩ := h
      rcases List.mem_cons.mp hother with rfl | hmem
      · exact absurd hanswer hrefused
      · exact ih ⟨other, hmem, hrefused⟩ _

/-- What happens to packets that are cut to size already. -/
def sendWires (session : DataSession) (now : ℕ) (s : SendState) (wires : List Bytes) :
    Except String Unit × SendState :=
  if session.queues wires then queueDataSessionPackets session now s wires
  else sendDirect session s wires

variable {wires : List Bytes}

theorem sendWires_of_accepted
    (hfailed : session.queues wires = false → s.failed = none)
    (h : ∀ unit ∈ planned session now s wires, session.answer unit.bytes = none) :
    ∃ t, sendWires session now s wires = (.ok (), t) ∧
      t.handed = s.handed ++ planned session now s wires ∧
      t.queued = waiting session now s wires := by
  unfold sendWires
  unfold planned at h ⊢
  unfold waiting
  cases hqueues : session.queues wires with
  | true =>
    simp only [hqueues, if_true] at h ⊢
    exact ⟨_, transmit_of_accepted h _, rfl, rfl⟩
  | false =>
    simp only [hqueues, Bool.false_eq_true, if_false] at h ⊢
    unfold sendDirect flushDataSessionBatch
    simp only [hfailed hqueues]
    by_cases hempty : s.queued = []
    · simp only [hempty, if_true, List.nil_append] at h ⊢
      exact ⟨_, transmit_of_accepted h _, rfl, hempty⟩
    · simp only [hempty, if_false] at h ⊢
      rw [transmit_of_accepted fun unit hunit => h unit (List.mem_append_left _ hunit)]
      simp only
      rw [transmit_of_accepted fun unit hunit => h unit (List.mem_append_right _ hunit)]
      exact ⟨_, rfl, List.append_assoc _ _ _, rfl⟩

/-- An error that is remembered is answered before anything is sent. -/
theorem sendWires_of_failed (hqueues : session.queues wires = false)
    (hfailed : s.failed ≠ none) : ∃ text t, sendWires session now s wires = (.error text, t) := by
  obtain ⟨text, htext⟩ := Option.ne_none_iff_exists'.mp hfailed
  refine ⟨text, s, ?_⟩
  unfold sendWires sendDirect flushDataSessionBatch
  simp [hqueues, htext]

theorem sendWires_of_refused
    (h : ∃ unit ∈ planned session now s wires, session.answer unit.bytes ≠ none) :
    ∃ text t, sendWires session now s wires = (.error text, t) := by
  by_cases hsticky : session.queues wires = false ∧ s.failed ≠ none
  · exact sendWires_of_failed hsticky.1 hsticky.2
  unfold sendWires
  unfold planned at h
  cases hqueues : session.queues wires with
  | true =>
    simp only [hqueues, if_true] at h ⊢
    exact transmit_of_refused h _
  | false =>
    simp only [hqueues, Bool.false_eq_true, if_false] at h ⊢
    have hfailed : s.failed = none := by
      by_contra hsome
      exact hsticky ⟨hqueues, hsome⟩
    unfold sendDirect flushDataSessionBatch
    simp only [hfailed]
    obtain ⟨unit, hunit, hrefused⟩ := h
    by_cases hempty : s.queued = []
    · simp only [hempty, if_true, List.nil_append] at hunit ⊢
      exact transmit_of_refused ⟨unit, hunit, hrefused⟩ _
    · simp only [hempty, if_false] at hunit ⊢
      by_cases hbatch : session.answer (WireUnit.batch s.queued).bytes = none
      · rw [transmit_of_accepted (by simpa using hbatch)]
        rcases List.mem_append.mp hunit with hmem | hmem
        · rw [List.mem_singleton.mp hmem] at hrefused
          exact absurd hbatch hrefused
        · exact transmit_of_refused ⟨unit, hmem, hrefused⟩ _
      · obtain ⟨text, t, htransmit⟩ := transmit_of_refused
          ⟨.batch s.queued, List.mem_singleton_self _, hbatch⟩ ⟨s.handed, [], 0, none⟩
        rw [htransmit]
        exact ⟨text, t, rfl⟩

/-- What is given to the transport and what waits afterwards are the packets. -/
theorem planned_perm (wires : List Bytes) :
    ((planned session now s wires).flatMap WireUnit.packets ++ waiting session now s wires).Perm
      (s.queued ++ wires) := by
  unfold planned waiting
  cases hqueues : session.queues wires with
  | true =>
    simp only [if_true]
    obtain ⟨hbatched, hdirects⟩ := @queueLoop_spec session now s wires
    have hflushes : ((queueLoop session now s wires).flushes.map WireUnit.batch).flatMap
        WireUnit.packets = (queueLoop session now s wires).flushes.flatten := by
      rw [List.flatMap_map]
      exact List.flatMap_id'
    have hsingles : ((queueLoop session now s wires).directs.map WireUnit.single).flatMap
        WireUnit.packets = (queueLoop session now s wires).directs := by
      rw [List.flatMap_map]
      exact List.flatMap_singleton' _
    rw [List.flatMap_append, hflushes, hsingles]
    -- what goes alone is sent last; apart from that the order is kept
    have hswap : ((queueLoop session now s wires).flushes.flatten ++
        (queueLoop session now s wires).directs ++ (queueLoop session now s wires).queued).Perm
        ((queueLoop session now s wires).flushes.flatten ++
          (queueLoop session now s wires).queued ++ (queueLoop session now s wires).directs) := by
      rw [List.append_assoc, List.append_assoc]
      exact List.perm_append_comm.append_left _
    refine hswap.trans ?_
    rw [hbatched, hdirects, List.append_assoc]
    exact List.Perm.append_left _ (List.perm_append_comm.trans (List.filter_append_perm _ _))
  | false =>
    simp only [Bool.false_eq_true, if_false, List.append_nil]
    rw [List.flatMap_append, List.flatMap_map]
    by_cases hempty : s.queued = []
    · simp [hempty, WireUnit.packets]
    · simp [hempty, WireUnit.packets]

/-- A session that sends what it is given whole does not fragment: its payloads are no longer
than the transport takes. -/
theorem planned_accepted (hdatagram : session.stats.datagram = true)
    (hwhole : session.stats.fragmentingDatagram = false) (hpos : 0 < session.stats.maxPacketSize)
    (haccepts : ∀ bytes : Bytes, bytes.length ≤ session.stats.maxPacketSize →
      session.answer bytes = none)
    (hwaits : Waits session s.queued)
    (hwires : ∀ wire ∈ wires, wire.length ≤ session.stats.maxPacketSize) :
    ∀ unit ∈ planned session now s wires, session.answer unit.bytes = none := by
  have hmax : session.batchMaxBytes ≤ session.stats.maxPacketSize := by
    unfold DataSession.batchMaxBytes
    rw [if_pos ⟨hdatagram, by simp [hwhole], hpos⟩]
    exact Nat.min_le_right _ _
  intro unit hunit
  apply haccepts
  unfold planned at hunit
  cases hqueues : session.queues wires with
  | true =>
    rw [hqueues, if_pos rfl] at hunit
    rcases List.mem_append.mp hunit with hmem | hmem
    · obtain ⟨items, hitems, rfl⟩ := List.mem_map.mp hmem
      exact ((queueLoop_packed hwaits).flushes items hitems).2.bytes.trans hmax
    · obtain ⟨packet, hpacket, rfl⟩ := List.mem_map.mp hmem
      rw [(queueLoop_spec s wires).2] at hpacket
      exact hwires packet (List.mem_of_mem_filter hpacket)
  | false =>
    rw [hqueues, if_neg Bool.false_ne_true] at hunit
    rcases List.mem_append.mp hunit with hmem | hmem
    · split_ifs at hmem with hempty
      · cases hmem
      · rw [List.mem_singleton.mp hmem]
        exact (hwaits.packed hempty).bytes.trans hmax
    · obtain ⟨packet, hpacket, rfl⟩ := List.mem_map.mp hmem
      exact hwires packet hpacket

/-- The packets fit, or can be cut. -/
def Passes (session : DataSession) (packet : Bytes) : Prop :=
  session.Segments → Sendable packet session.stats.maxPacketSize

/-- No error of an earlier batch stands in the way, and every unit is taken. -/
def Taken (session : DataSession) (now : ℕ) (s : SendState) (wires : List Bytes) : Prop :=
  (session.queues wires = false → s.failed = none) ∧
    ∀ unit ∈ planned session now s wires, session.answer unit.bytes = none

/-- **The call succeeds** if every packet passes and every unit is taken, and fails otherwise. -/
theorem sendDataSessionPackets_spec (hdatagram : session.stats.datagram = true)
    (hpos : 0 < session.stats.maxPacketSize) (hmax : session.stats.maxPacketSize ≤ maxInt)
    {packets : List Bytes} (hne : packets ≠ []) :
    (∀ wires, splitDataSessionPacketsForMTU session packets = .ok wires →
      Taken session now s wires →
      ∃ t, sendDataSessionPackets session now s packets = (.ok (), t) ∧
        t.handed = s.handed ++ planned session now s wires ∧
        t.queued = waiting session now s wires) ∧
    ((∃ packet ∈ packets, ¬Passes session packet) ∨
      (∃ wires, splitDataSessionPacketsForMTU session packets = .ok wires ∧
        ¬Taken session now s wires) →
      ∃ text t, sendDataSessionPackets session now s packets = (.error text, t)) := by
  have hsend : ∀ wires, splitDataSessionPacketsForMTU session packets = .ok wires →
      sendDataSessionPackets session now s packets = sendWires session now s wires := by
    intro wires hsplit
    unfold sendDataSessionPackets sendWires DataSession.queues
    rw [if_neg hne, hsplit]
  constructor
  · intro wires hsplit htaken
    rw [hsend wires hsplit]
    exact sendWires_of_accepted htaken.1 htaken.2
  · rintro (⟨packet, hpacket, hnot⟩ | ⟨wires, hsplit, hnot⟩)
    · obtain ⟨hseg, hunsendable⟩ := Classical.not_imp.mp hnot
      obtain ⟨text, hsplit⟩ :=
        (split_spec hdatagram hpos hmax packets).2 hseg ⟨packet, hpacket, hunsendable⟩
      refine ⟨text, s, ?_⟩
      unfold sendDataSessionPackets
      rw [if_neg hne, hsplit]
    · rw [hsend wires hsplit]
      unfold Taken at hnot
      rw [not_and_or] at hnot
      rcases hnot with hnot | hnot
      · obtain ⟨hqueues, hfailed⟩ := Classical.not_imp.mp hnot
        exact sendWires_of_failed hqueues hfailed
      · push Not at hnot
        exact sendWires_of_refused hnot

end Send

/-! ## Forwarding -/

section Forward

/-- The transport takes every packet up to the size that it tells. -/
structure Reliable (session : DataSession) : Prop where
  datagram : session.stats.datagram = true
  pos : 0 < session.stats.maxPacketSize
  le_max : session.stats.maxPacketSize ≤ maxInt
  accepts : ∀ bytes : Bytes, bytes.length ≤ session.stats.maxPacketSize → session.answer bytes = none

/-- What was given to a session: what its transport has, and what waits in its batch. -/
def SendState.accepted (s : SendState) : List Bytes := s.handed.flatMap WireUnit.packets ++ s.queued

/-- Wires stand for the packets: each alone, or merged with others of its flow. -/
def StandFor (packets wires : List Bytes) : Prop :=
  ∃ groups maxBytes maxPackets options, Regroups packets groups ∧
    List.Forall₂ (IsOutput packets options maxBytes maxPackets) groups wires

/-- The packets were given to the session, alone or merged, whole or in segments, but for those
that neither fit nor can be cut. -/
def HandsOver (session : DataSession) (packets : List Bytes) (before after : SendState) : Prop :=
  ∃ wires parts, StandFor packets wires ∧
    List.Forall₂ (fun wire part => (Passes session wire → SplitInto session wire part) ∧
      (¬Passes session wire → part = [])) wires parts ∧
    after.accepted.Perm (before.accepted ++ parts.flatten)

/-- The session is in use, its endpoint is not marked down by the call, and the flows keep their
bindings. -/
structure Unharmed (entry : ForwardEntry) (items : List Candidate) (before after : ForwardState) :
    Prop where
  session : entry.key ∈ after.sessions
  endpoint : endpointKey entry.peer entry.endpoint ∈ after.down →
    endpointKey entry.peer entry.endpoint ∈ before.down
  flows : ∀ item ∈ items, after.flows item.flowKey = before.flows item.flowKey
  cache : ∀ item ∈ items, after.cache item.flowKey = before.cache item.flowKey

theorem standFor_self (packets : List Bytes) : StandFor packets packets := by
  obtain ⟨groups, hgroups⟩ := (represents_unchanged packets ⟨0, false⟩ 0 0).streams
  exact ⟨groups, 0, 0, ⟨0, false⟩, hgroups⟩

theorem standFor_prepared (session : DataSession) (packets : List Bytes)
    (scratch : Option CoalesceScratch) :
    StandFor packets (prepareCaptureForwardWireBatch session packets scratch) := by
  unfold prepareCaptureForwardWireBatch
  cases scratch with
  | none => exact standFor_self packets
  | some scratch =>
    simp only
    split_ifs
    · exact standFor_self packets
    · exact standFor_self packets
    · obtain ⟨groups, hgroups⟩ := (represents_coalesce packets _ (coalesceMaxBytes session scratch)
        scratch.maxPackets _).streams
      exact ⟨groups, _, _, _, hgroups⟩

theorem StandFor.ne_nil {packets wires : List Bytes} (h : StandFor packets wires)
    (hne : packets ≠ []) : wires ≠ [] := by
  rintro rfl
  obtain ⟨groups, maxBytes, maxPackets, options, hregroups, hout⟩ := h
  cases hout
  have honce := hregroups.once.length_eq
  rw [List.flatten_nil, List.length_nil, List.length_range] at honce
  exact hne (List.length_eq_zero_iff.mp honce.symm)

/-- Every packet that goes on fits or can be cut; no error of an earlier batch is remembered,
unless packets go into a batch anyway; and a transport that fragments, and is given more than the
size it tells, takes that too. -/
def AllPass (session : DataSession) (scratch : Option CoalesceScratch) (now : ℕ) (s : SendState)
    (packets : List Bytes) : Prop :=
  (∀ wire ∈ prepareCaptureForwardWireBatch session packets scratch, Passes session wire) ∧
    ∀ wires, splitDataSessionPacketsForMTU session
        (prepareCaptureForwardWireBatch session packets scratch) = .ok wires →
      (session.queues wires = false → s.failed = none) ∧
      (session.stats.fragmentingDatagram = true →
        ∀ unit ∈ planned session now s wires, session.answer unit.bytes = none)

variable {session : DataSession} {scratch : Option CoalesceScratch} {now : ℕ} {s : SendState}
  {packets : List Bytes}

/-- A batch that passes is handed over. -/
theorem handsOver_of_allPass (hreliable : Reliable session) (hwaits : Waits session s.queued)
    (hne : packets ≠ [])
    (h : AllPass session scratch now s packets) :
    ∃ t, sendDataSessionPackets session now s
        (prepareCaptureForwardWireBatch session packets scratch) = (.ok (), t) ∧
      HandsOver session packets s t := by
  obtain ⟨hdatagram, hpos, hmax, haccepts⟩ := hreliable
  obtain ⟨hpass, htaken⟩ := h
  have hstand := standFor_prepared session packets scratch
  have hnonempty := hstand.ne_nil hne
  generalize prepareCaptureForwardWireBatch session packets scratch = wires at *
  obtain ⟨cut, hsplit, -, hlengths⟩ := (split_spec hdatagram hpos hmax wires).1 hpass
  obtain ⟨hfailed, hfragments⟩ := htaken _ hsplit
  have hunits : ∀ unit ∈ planned session now s cut.flatten, session.answer unit.bytes = none := by
    cases hfragmenting : session.stats.fragmentingDatagram with
    | true => exact hfragments hfragmenting
    | false =>
      exact planned_accepted hdatagram hfragmenting hpos haccepts hwaits (hlengths (.inl hfragmenting))
  obtain ⟨t, hsend, hhanded, hqueued⟩ :=
    (sendDataSessionPackets_spec hdatagram hpos hmax hnonempty).1 _ hsplit ⟨hfailed, hunits⟩
  obtain ⟨parts, hparts, hinto⟩ := splitInto_of_split hsplit
  refine ⟨t, hsend, wires, parts, hstand, ?_, ?_⟩
  · refine (List.forall₂_iff_get.mpr ?_)
    obtain ⟨hlen, hget⟩ := List.forall₂_iff_get.mp hinto
    refine ⟨hlen, fun i hi₁ hi₂ => ⟨fun _ => hget i hi₁ hi₂, fun hnot => ?_⟩⟩
    exact absurd (hpass _ (List.get_mem _ _)) hnot
  · unfold SendState.accepted
    rw [hhanded, hqueued, List.flatMap_append, List.append_assoc, List.append_assoc, ← hparts]
    exact (planned_perm cut.flatten).append_left _

theorem sendFailed_sessions (s : ForwardState) (entry : ForwardEntry) (items : List Candidate) :
    entry.key ∉ (s.sendFailed entry items).sessions := by
  have hdown : ∀ t : ForwardState, (t.recordEndpointDownIfNoActiveSession entry.peer
      entry.endpoint).sessions = t.sessions := by
    intro t
    unfold ForwardState.recordEndpointDownIfNoActiveSession ForwardState.recordEndpointDown
    split_ifs <;> rfl
  unfold ForwardState.sendFailed
  rw [hdown]
  simp [ForwardState.dropSession]

/-- A batch that does not pass is refused. -/
theorem refused_of_not_allPass (hreliable : Reliable session) (hne : packets ≠ [])
    (h : ¬AllPass session scratch now s packets) :
    ∃ text t, sendDataSessionPackets session now s
      (prepareCaptureForwardWireBatch session packets scratch) = (.error text, t) := by
  obtain ⟨hdatagram, hpos, hmax, -⟩ := hreliable
  refine (sendDataSessionPackets_spec hdatagram hpos hmax
    ((standFor_prepared session packets scratch).ne_nil hne)).2 ?_
  unfold AllPass at h
  rw [not_and_or] at h
  rcases h with h | h
  · push Not at h
    exact .inl h
  · obtain ⟨wires, hwires⟩ := not_forall.mp h
    obtain ⟨hsplit, hnot⟩ := Classical.not_imp.mp hwires
    refine .inr ⟨wires, hsplit, fun htaken => hnot ⟨htaken.1, fun _ => htaken.2⟩⟩

/-- **One packet and the session**: the call leaves session, endpoint and flows alone, and hands
over what can be sent, exactly if every packet that goes on can be. -/
theorem forward_unharmed_iff (entry : ForwardEntry) (session : DataSession)
    (scratch : Option CoalesceScratch) (now : ℕ) (refresh : Bool) (cancelled : Option String)
    (items : List Candidate) (s : ForwardState) (hsession : entry.session = some session)
    (hreliable : Reliable session) (hwaits : Waits session s.send.queued)
    (hkey : entry.key ∈ s.sessions) :
    (Unharmed entry items s (sendForwardCacheBatch entry scratch now refresh cancelled items s).2 ∧
      HandsOver session (items.map Candidate.packet) s.send
        (sendForwardCacheBatch entry scratch now refresh cancelled items s).2.send) ↔
      (items ≠ [] → AllPass session scratch now s.send (items.map Candidate.packet)) := by
  unfold sendForwardCacheBatch
  by_cases hne : items = []
  · subst hne
    simp only [if_true, ne_eq, not_true_eq_false, false_implies, iff_true]
    exact ⟨⟨hkey, id, nofun, nofun⟩, [], [], standFor_self [], .nil, by simp⟩
  have hpackets : items.map Candidate.packet ≠ [] := fun hnil => hne (List.map_eq_nil_iff.mp hnil)
  rw [if_neg hne, hsession]
  simp only
  constructor
  · rintro ⟨hunharmed, -⟩ -
    by_contra hnot
    -- the call fails, and then the session is dropped
    obtain ⟨text, t, hsend⟩ := refused_of_not_allPass hreliable hpackets hnot
    rw [hsend] at hunharmed
    exact sendFailed_sessions _ entry items hunharmed.session
  · intro hpass
    obtain ⟨t, hsend, hhands⟩ := handsOver_of_allPass hreliable hwaits hpackets (hpass hne)
    rw [hsend]
    unfold ForwardState.refreshEndpointUp
    split_ifs
    · exact ⟨⟨hkey, fun hdown => (List.mem_filter.mp hdown).1, fun _ _ => rfl, fun _ _ => rfl⟩, hhands⟩
    · exact ⟨⟨hkey, id, fun _ _ => rfl, fun _ _ => rfl⟩, hhands⟩

end Forward

/-! ## One packet too long -/

def sampleEntry : ForwardEntry where
  key := ⟨"ix-b", "udp-1", "udp", "192.0.2.1:7000", "secure", 0⟩
  peer := "ix-b"
  endpoint := ⟨"udp-1", "udp", "192.0.2.1:7000"⟩
  session := some narrow
  nativeBatching := false

def sampleState : ForwardState where
  send := ⟨[], [], 0, none⟩
  sessions := [sampleEntry.key]
  down := []
  flows := fun key => some ⟨key, "ix-b", "udp-1", 0, 0, 0⟩
  cache := fun _ => some sampleEntry.key

/-- A UDP packet with its headers and so many bytes. -/
def udpPacket (length : UInt8) : Bytes :=
  [0x45, 0, 0, 28 + length, 0, 1, 0x40, 0, 64, 17, 0, 0, 10, 0, 0, 1, 10, 0, 0, 2,
    0, 80, 0, 90, 0, 8 + length, 0, 0] ++ List.replicate length.toNat 0

def smallItem : Candidate := ⟨⟨1, 2, 80, 90, 17⟩, udpPacket 1⟩

def longItem : Candidate := ⟨⟨1, 3, 80, 90, 17⟩, udpPacket 20⟩

theorem reliable_narrow : Reliable narrow := ⟨rfl, by decide, by decide, fun _ _ => rfl⟩

/-- **A packet that is too long** takes the session down: nothing is handed over, the flow of the
other packet is released and the endpoint marked down. -/
theorem oversized_packet_drops_session :
    Reliable narrow ∧ smallItem.packet.length ≤ narrow.stats.maxPacketSize ∧
      (sendForwardCacheBatch sampleEntry none 0 false none [smallItem, longItem] sampleState).2.sessions
        = [] ∧
      endpointKey "ix-b" sampleEntry.endpoint ∈
        (sendForwardCacheBatch sampleEntry none 0 false none [smallItem, longItem] sampleState).2.down ∧
      (sendForwardCacheBatch sampleEntry none 0 false none [smallItem, longItem]
        sampleState).2.flows smallItem.flowKey = none ∧
      (sendForwardCacheBatch sampleEntry none 0 false none [smallItem, longItem]
        sampleState).2.send.handed = [] := by
  refine ⟨reliable_narrow, ?_, ?_, ?_, ?_, ?_⟩ <;> decide +kernel

/-- A batch whose packets fit, or can be cut, leaves the session as it is. -/
theorem forward_unharmed_two :
    Unharmed sampleEntry [smallItem, ⟨⟨1, 2, 80, 90, 6⟩, fourBytes⟩] sampleState
      (sendForwardCacheBatch sampleEntry none 0 false none
        [smallItem, ⟨⟨1, 2, 80, 90, 6⟩, fourBytes⟩] sampleState).2 := by
  have hpass : AllPass narrow none 0 sampleState.send
      ([smallItem, ⟨⟨1, 2, 80, 90, 6⟩, fourBytes⟩].map Candidate.packet) := by
    refine ⟨fun wire hwire _ => ?_, fun _ _ => ⟨fun _ => rfl, fun hfalse => absurd hfalse (by decide)⟩⟩
    rcases List.mem_cons.mp hwire with rfl | hwire
    · exact .inl (by decide +kernel)
    · obtain rfl := List.mem_singleton.mp hwire
      have hok : (dataSessionIPv4TCPSegmentationMetaForPacket fourBytes 42).toOption.isSome = true := by
        decide +kernel
      obtain ⟨info, hinfo⟩ := Option.isSome_iff_exists.mp hok
      exact .inr ⟨info, Fallible.toOption_eq_some.mp hinfo⟩
  exact ((forward_unharmed_iff sampleEntry narrow none 0 false none _ sampleState rfl reliable_narrow
    waits_nil (by decide)).mpr fun _ => hpass).1

end Datapath
