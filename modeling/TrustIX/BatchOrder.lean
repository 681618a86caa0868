/-
# Order and content of batched packets

What the other end of a session gets for the packets that one sender queues, over a transport
that keeps every unit and their order (`handleReceivedDataPathPackets` in
`internal/daemon/datapath.go`).

* `receive_encodeBatch` : a payload within the limits is taken apart into its packets, unless one
  of them is empty;
* `batching_keeps_order` : packets arrive as they were queued in every run in which packets that
  go alone are the last of their call and sends do not overtake each other;
* `order_is_lost` : runs that deliver something else.
-/
import TrustIX.BatchPipeline

namespace BatchPipeline

open Datapath Runs ByteEdit

/-! ## Configuration -/

def dataSessionBatchMaxPackets : ℕ := 256

/-- The fields of `config.TransportAdvancedConfig` for batches; `flushDelay` is there if its text
is a duration, in nanoseconds. -/
structure AdvancedConfig where
  batchBytes : ℤ
  maxFrames : ℤ
  flushDelay : Option ℤ

def clampDataSessionBatchBytes (value : ℤ) : ℤ := if value > 512 * 1024 then 512 * 1024 else value

def dataSessionBatchDefaultDelay : ℤ := 25 * 1000

def clampDataSessionBatchDelay (delay : ℤ) : ℤ :=
  if delay < 0 then dataSessionBatchDefaultDelay
  else if delay > 5 * 1000 * 1000 then 5 * 1000 * 1000 else delay

def dataSessionBatchConfigWithAdvanced (batching : BatchConfig) (advanced : AdvancedConfig) :
    BatchConfig where
  enabled := batching.enabled
  maxBytes := if advanced.batchBytes > 0 then (clampDataSessionBatchBytes advanced.batchBytes).toNat
    else batching.maxBytes
  maxPackets :=
    let maxPackets := if advanced.maxFrames > 0 then
      min advanced.maxFrames.toNat dataSessionBatchMaxPackets else batching.maxPackets
    if maxPackets = 0 then dataSessionBatchMaxPackets else maxPackets
  delay := match advanced.flushDelay with
    | some delay => (clampDataSessionBatchDelay delay).toNat
    | none => batching.delay

/-- `dataSessionBatchConfigForEndpoint`; the environment does not set the number of packets. -/
def dataSessionBatchConfigForEndpoint (enabled : Bool) (maxBytes delay : ℕ)
    (advanced : AdvancedConfig) : BatchConfig :=
  dataSessionBatchConfigWithAdvanced ⟨enabled, maxBytes, dataSessionBatchMaxPackets, delay⟩ advanced

/-- No configuration asks for more packets in a payload than a receiver takes. -/
theorem maxPackets_configured (enabled : Bool) (maxBytes delay : ℕ) (advanced : AdvancedConfig) :
    (dataSessionBatchConfigForEndpoint enabled maxBytes delay advanced).maxPackets ≤
      dataSessionBatchMaxPackets := by
  unfold dataSessionBatchConfigForEndpoint dataSessionBatchConfigWithAdvanced
  simp only
  split_ifs <;> omega

/-! ## The receiver -/

/-- The loop of `decodeDataSessionBatchInto`, over what is left of the payload. -/
def decodeItems : ℕ → Bytes → Option (List Bytes)
  | 0, rest => if rest = [] then some [] else none
  | count + 1, rest =>
    if rest.length < dataSessionBatchItemHeaderLen then none
    else
      let size := uint16At rest 0
      let rest := rest.drop dataSessionBatchItemHeaderLen
      if size = 0 ∨ rest.length < size then none
      else (decodeItems count (rest.drop size)).map (rest.take size :: ·)

def decodeDataSessionBatch (packet : Bytes) : Option (List Bytes) :=
  if packet.length < dataSessionBatchHeaderLen then none
  else if slice packet 0 4 ≠ [0x54, 0x49, 0x58, 0x42] ∨ byteAt packet 4 ≠ 1 then none
  else if uint16At packet 6 = 0 ∨ uint16At packet 6 > dataSessionBatchMaxPackets then none
  else decodeItems (uint16At packet 6) (packet.drop dataSessionBatchHeaderLen)

/-- `decodeDataSessionControl` finds a kind that it knows. -/
def isKnownControl (packet : Bytes) : Bool :=
  isDataSessionControlPacket packet &&
    (byteAt packet 5 = 1 || byteAt packet 5 = 2 || byteAt packet 5 = 3)

def isDataSessionSecureHandshakePacket (packet : Bytes) : Bool :=
  decide (packet.length ≥ 4) && slice packet 0 4 = [0x54, 0x49, 0x58, 0x48]

/-- The packets that `handleReceivedDataPathPackets` finds in one unit: a control packet is
handled as such, a handshake message is skipped, and a payload is taken apart. -/
def receive (packet : Bytes) : List Bytes :=
  if isKnownControl packet then [packet]
  else if isDataSessionSecureHandshakePacket packet then []
  else (decodeDataSessionBatch packet).getD [packet]

/-- All that the receiver got. -/
def received (s : State) : List Bytes := s.send.handed.flatMap fun unit => receive unit.bytes

theorem uint16At_put {n : ℕ} (h : n < 65536) (rest : Bytes) : uint16At (BigEndian.put 2 n ++ rest) 0 = n := by
  unfold uint16At slice
  rw [List.drop_zero, List.take_left' (BigEndian.length_put 2 n)]
  exact BigEndian.get_put_of_lt h

/-- The packets behind their lengths. -/
def body (items : List Bytes) : Bytes :=
  (items.map fun item => BigEndian.put 2 item.length ++ item).flatten

theorem decodeItems_body (items : List Bytes)
    (h : ∀ item ∈ items, item ≠ [] ∧ item.length < 65536) :
    decodeItems items.length (body items) = some items := by
  induction items with
  | nil => rfl
  | cons item rest ih =>
    obtain ⟨hne, hsize⟩ := h item List.mem_cons_self
    have hrest := ih fun other hother => h other (List.mem_cons_of_mem _ hother)
    have hbody : body (item :: rest) = BigEndian.put 2 item.length ++ (item ++ body rest) := by
      simp [body]
    have hdrop : (body (item :: rest)).drop dataSessionBatchItemHeaderLen = item ++ body rest := by
      exact List.drop_left' (BigEndian.length_put 2 _)
    have hlength : ¬(body (item :: rest)).length < dataSessionBatchItemHeaderLen := by
      rw [hbody, List.length_append, BigEndian.length_put]
      exact Nat.not_lt.mpr (Nat.le_add_right 2 _)
    rw [List.length_cons, decodeItems, if_neg hlength]
    rw [hdrop, hbody, uint16At_put hsize, if_neg, List.drop_left, List.take_left, hrest]
    · rfl
    · simp [hne]

/-- A payload that the receiver takes apart. -/
structure Decodable (items : List Bytes) : Prop where
  pos : items ≠ []
  count : items.length ≤ dataSessionBatchMaxPackets
  item : ∀ item ∈ items, item ≠ [] ∧ item.length < 65536

/-- **Payloads** are taken apart into their packets. -/
theorem receive_encodeBatch {items : List Bytes} (h : Decodable items) :
    receive (encodeBatch items) = items := by
  have hcount : uint16At (encodeBatch items) 6 = items.length := by
    have hlt : items.length < 65536 := h.count.trans_lt (by decide)
    have hslice : slice (encodeBatch items) 6 2 = slice (BigEndian.put 2 items.length ++ body items) 0 2 := by
      rfl
    unfold uint16At
    exact uint16At_put hlt _
  have hmagic : slice (encodeBatch items) 0 4 = [0x54, 0x49, 0x58, 0x42] := by
    rfl
  have hversion : byteAt (encodeBatch items) 4 = 1 := by
    rfl
  have hdrop : (encodeBatch items).drop dataSessionBatchHeaderLen = body items := by
    exact List.drop_left' (by simp [dataSessionBatchHeaderLen])
  have hlength : ¬(encodeBatch items).length < dataSessionBatchHeaderLen := by
    rw [length_encodeBatch]
    omega
  have hcontrol : isKnownControl (encodeBatch items) = false := by
    simp [isKnownControl, isDataSessionControlPacket, hmagic]
  have hhandshake : isDataSessionSecureHandshakePacket (encodeBatch items) = false := by
    simp [isDataSessionSecureHandshakePacket, hmagic]
  have hdecode : decodeDataSessionBatch (encodeBatch items) = some items := by
    have hpos := List.length_pos_of_ne_nil h.pos
    have hmax := h.count
    unfold decodeDataSessionBatch
    rw [if_neg hlength, if_neg (by simp [hmagic, hversion]), hcount, if_neg (by omega), hdrop]
    exact decodeItems_body items h.item
  simp [receive, hcontrol, hhandshake, hdecode]

/-! ## Runs with a record of what was queued -/

structure Logged where
  state : State
  input : List Bytes

def Event.packets : Event → List Bytes
  | .queue _ packets => packets
  | _ => []

def logged (session : DataSession) (l : Logged) (e : Event) : Option Logged :=
  (step session l.state e).map fun t => ⟨t, l.input ++ e.packets⟩

/-- What the flusher has in hand. -/
def Flusher.payload : Flusher → List Bytes
  | .sending payload _ => payload
  | _ => []

/-- What calls still have to send. -/
def unsent (s : State) : List Bytes :=
  s.jobs.flatMap fun job => job.flushes.flatten ++ job.directs

/-- What was queued and has not been handed over. -/
def inFlight (s : State) : List Bytes := s.flusher.payload ++ unsent s ++ s.send.queued

/-- One sender, over a transport that takes everything. -/
def OneSender (s : State) : Event → Prop
  | .queue _ _ | .flushCall => s.jobs = []
  | .sendFlushes _ result | .sendDirects _ result => result = none
  | .sent error => error = none
  | _ => True

/-- In a call, packets that go alone are the last, and look like nothing else to the receiver; no
packet of a batch is empty. -/
def CallInOrder (session : DataSession) (packets : List Bytes) : Prop :=
  packets.Pairwise (fun first second => session.sendsAlone first → session.sendsAlone second) ∧
    ∀ packet ∈ packets, if session.sendsAlone packet then receive packet = [packet] else packet ≠ []

/-- Calls are in order and sends do not overtake each other: the flusher takes a batch only when
calls have nothing more to send, and a call sends only when the flusher has nothing in hand. -/
def InTurn (session : DataSession) (s : State) : Event → Prop
  | .queue _ packets => CallInOrder session packets
  | .sendFlushes _ _ => s.flusher.payload = []
  | .sendDirects i _ => s.flusher.payload = [] ∨ ((s.jobs[i]?).all fun job => job.directs.isEmpty) = true
  | .flush => unsent s = [] ∨ s.send.queued = []
  | _ => True

/-- The steps of a run in which nothing is overtaken. -/
def InOrder (session : DataSession) (l : Logged) (e : Event) : Prop :=
  OneSender l.state e ∧ InTurn session l.state e

instance (s : State) (e : Event) : Decidable (OneSender s e) :=
  match e with
  | .queue _ _ => inferInstanceAs (Decidable (s.jobs = []))
  | .flushCall => inferInstanceAs (Decidable (s.jobs = []))
  | .sendFlushes _ result => inferInstanceAs (Decidable (result = none))
  | .sendDirects _ result => inferInstanceAs (Decidable (result = none))
  | .sent error => inferInstanceAs (Decidable (error = none))
  | .notify _ | .wake | .check _ | .interrupt | .timer | .cancel | .flush => isTrue trivial

instance (session : DataSession) (packets : List Bytes) : Decidable (CallInOrder session packets) :=
  inferInstanceAs (Decidable (_ ∧ _))

instance (session : DataSession) (s : State) (e : Event) : Decidable (InTurn session s e) :=
  match e with
  | .queue _ packets => inferInstanceAs (Decidable (CallInOrder session packets))
  | .sendFlushes _ _ => inferInstanceAs (Decidable (s.flusher.payload = []))
  | .sendDirects _ _ => inferInstanceAs (Decidable (s.flusher.payload = [] ∨ _ = true))
  | .flush => inferInstanceAs (Decidable (unsent s = [] ∨ s.send.queued = []))
  | .flushCall | .sent _ | .notify _ | .wake | .check _ | .interrupt | .timer | .cancel =>
    isTrue trivial

instance (session : DataSession) (l : Logged) (e : Event) : Decidable (InOrder session l e) :=
  inferInstanceAs (Decidable (_ ∧ _))

/-! ## The invariant -/

/-- Payloads that wait to be sent, and packets that go alone, reach the receiver as they are. -/
structure Job.Clean (job : Job) : Prop where
  flushes : ∀ items ∈ job.flushes, receive (encodeBatch items) = items
  directs : ∀ packet ∈ job.directs, receive packet = [packet]

structure Kept (session : DataSession) (l : Logged) : Prop where
  single : l.state.jobs.length ≤ 1
  order : received l.state ++ inFlight l.state = l.input
  jobs : ∀ job ∈ l.state.jobs, job.Clean
  payload : ∀ payload last, l.state.flusher = .sending payload last →
    receive (encodeBatch payload) = payload
  waits : Waits session l.state.send.queued
  nonempty : ∀ item ∈ l.state.send.queued, item ≠ []

theorem kept_start (session : DataSession) : Kept session ⟨start session, []⟩ where
  single := Nat.zero_le _
  order := by
    unfold received inFlight unsent start
    split_ifs <;> rfl
  jobs := nofun
  payload := by
    unfold start
    split_ifs <;> nofun
  waits := waits_nil
  nonempty := nofun

section Steps

variable {session : DataSession} {l : Logged}

theorem decodable_of_packed (hmax : session.batching.maxPackets ≤ dataSessionBatchMaxPackets)
    {items : List Bytes} (hne : items ≠ []) (hpacked : Packed session items)
    (hitems : ∀ item ∈ items, item ≠ []) : Decodable items where
  pos := hne
  count := by
    have hcount := hpacked.count
    have hone : 1 ≤ dataSessionBatchMaxPackets := by decide
    omega
  item := by
    intro item hitem
    refine ⟨hitems item hitem, ?_⟩
    have halone := mt sendsAlone_iff.mpr (by rw [hpacked.item item hitem]; exact Bool.false_ne_true)
    omega

/-- What is handed over is received. -/
theorem received_hand (s : State) (units : List WireUnit)
    (h : ∀ unit ∈ units, receive unit.bytes = unit.packets) :
    received (s.hand units) = received s ++ units.flatMap WireUnit.packets := by
  unfold received State.hand
  rw [List.flatMap_append]
  congr 1
  exact List.flatMap_congr h

/-- In a call that is in order, what goes alone comes last. -/
theorem filter_append_filter {packets : List Bytes}
    (h : packets.Pairwise fun first second => session.sendsAlone first → session.sendsAlone second) :
    packets.filter (fun packet => !session.sendsAlone packet) ++ packets.filter session.sendsAlone =
      packets := by
  induction packets with
  | nil => rfl
  | cons packet rest ih =>
    obtain ⟨hfirst, hrest⟩ := List.pairwise_cons.mp h
    cases halone : session.sendsAlone packet with
    | false => simp [halone, ih hrest]
    | true =>
      have hall : ∀ other ∈ rest, session.sendsAlone other = true :=
        fun other hother => hfirst other hother halone
      have hnone : rest.filter (fun packet => !session.sendsAlone packet) = [] :=
        List.filter_eq_nil_iff.mpr fun other hother => by simp [hall other hother]
      simp [halone, hnone, List.filter_eq_self.mpr hall]

/-- After a packet that goes alone no batch waits. -/
theorem queued_eq_nil {now : ℕ} {s : SendState} {packets : List Bytes} {packet : Bytes}
    (halone : session.sendsAlone packet = true) :
    (queueLoop session now s (packets ++ [packet])).queued = [] := by
  unfold queueLoop
  simp only [List.foldl_append, List.foldl_cons, List.foldl_nil]
  rw [QueueState.step_of_alone halone]
  split_ifs
  · exact QueueState.take_queued
  · exact QueueState.take_queued

/-- A call that is in order keeps the order: its payloads, its packets that go alone, and what is
left waiting. -/
theorem queueLoop_order {now : ℕ} {s : SendState} {packets : List Bytes}
    (h : packets.Pairwise fun first second => session.sendsAlone first → session.sendsAlone second) :
    (queueLoop session now s packets).flushes.flatten ++ (queueLoop session now s packets).directs ++
      (queueLoop session now s packets).queued = s.queued ++ packets := by
  obtain ⟨hbatched, hdirects⟩ := @queueLoop_spec session now s packets
  have hsorted := filter_append_filter h
  rcases List.eq_nil_or_concat packets with rfl | ⟨front, packet, rfl⟩
  · simpa [hdirects] using hbatched
  · rw [List.concat_eq_append] at *
    cases halone : session.sendsAlone packet with
    | true =>
      have hqueued : (queueLoop session now s (front ++ [packet])).queued = [] := queued_eq_nil halone
      rw [hqueued, List.append_nil] at hbatched ⊢
      rw [hbatched, hdirects, List.append_assoc, hsorted]
    | false =>
      have hnone : (front ++ [packet]).filter session.sendsAlone = [] := by
        refine List.filter_eq_nil_iff.mpr fun other hother => ?_
        rcases List.mem_append.mp hother with hother | hother
        · intro hfirst
          have := (List.pairwise_append.mp h).2.2 other hother packet (by simp) hfirst
          rw [halone] at this
          cases this
        · rw [List.mem_singleton.mp hother, halone]
          exact Bool.false_ne_true
      rw [hnone, List.append_nil] at hsorted
      rw [hdirects, hnone, List.append_nil, hbatched, hsorted]

variable {job : Job}

variable {i : ℕ}

theorem eq_singleton {jobs : List Job} (hsingle : jobs.length ≤ 1)
    (hjob : jobs[i]? = some job) : i = 0 ∧ jobs = [job] := by
  obtain ⟨hlt, hget⟩ := List.getElem?_eq_some_iff.mp hjob
  obtain rfl : i = 0 := by omega
  obtain ⟨only, rfl⟩ := List.length_eq_one_iff.mp (by omega : jobs.length = 1)
  exact ⟨rfl, by rw [← hget]; rfl⟩

theorem kept_queue (hmax : session.batching.maxPackets ≤ dataSessionBatchMaxPackets)
    (h : Kept session l) {now : ℕ} {packets : List Bytes} (hjobs : l.state.jobs = [])
    (hcall : CallInOrder session packets) :
    Kept session ⟨l.state.queue session now packets, l.input ++ packets⟩ := by
  obtain ⟨hpairwise, hpackets⟩ := hcall
  have hpacked : (queueLoop session now l.state.send packets).Bounded session :=
    queueLoop_packed h.waits
  obtain ⟨hbatched, hdirects⟩ := @queueLoop_spec session now l.state.send packets
  have horder := @queueLoop_order session now l.state.send packets hpairwise
  -- what is in a batch was waiting before or is a packet of the call that does not go alone
  have hnonempty : ∀ item ∈ (queueLoop session now l.state.send packets).flushes.flatten ++
      (queueLoop session now l.state.send packets).queued, item ≠ [] := by
    rw [hbatched]
    intro item hitem
    rcases List.mem_append.mp hitem with hitem | hitem
    · exact h.nonempty item hitem
    · obtain ⟨hmem, halone⟩ := List.mem_filter.mp hitem
      have := hpackets item hmem
      rwa [if_neg (by simpa using halone)] at this
  refine ⟨?_, ?_, ?_, h.payload, hpacked.queued, fun item hitem => hnonempty item (List.mem_append_right _ hitem)⟩
  · simp [State.queue, hjobs]
  · have hbefore := h.order
    simp only [inFlight, unsent, hjobs, List.flatMap_nil, List.append_nil] at hbefore
    show received l.state ++ (l.state.flusher.payload ++ (l.state.jobs ++ [_]).flatMap _ ++ _) = _
    rw [hjobs, ← hbefore]
    simp only [List.nil_append, List.flatMap_cons, List.flatMap_nil, List.append_nil, List.append_assoc]
    rw [← List.append_assoc (List.flatten _)]
    exact congrArg (fun rest => received l.state ++ (l.state.flusher.payload ++ rest)) horder
  · intro job hjob
    rw [show (l.state.queue session now packets).jobs = l.state.jobs ++ [_] from rfl, hjobs] at hjob
    obtain rfl := List.mem_singleton.mp hjob
    refine ⟨fun items hitems => ?_, fun packet hpacket => ?_⟩
    · obtain ⟨hne, hlimits⟩ := hpacked.flushes items hitems
      refine receive_encodeBatch (decodable_of_packed hmax hne hlimits fun item hitem => ?_)
      exact hnonempty item (List.mem_append_left _ (List.mem_flatten.mpr ⟨items, hitems, hitem⟩))
    · rw [hdirects] at hpacket
      obtain ⟨hmem, halone⟩ := List.mem_filter.mp hpacket
      have := hpackets packet hmem
      rwa [if_pos halone] at this

/-- The batch that waits can be taken. -/
theorem Kept.receive_queued (hmax : session.batching.maxPackets ≤ dataSessionBatchMaxPackets)
    (h : Kept session l) (hne : l.state.send.queued ≠ []) :
    receive (encodeBatch l.state.send.queued) = l.state.send.queued :=
  receive_encodeBatch (decodable_of_packed hmax hne (h.waits.packed hne) h.nonempty)

theorem kept_flushCall (hmax : session.batching.maxPackets ≤ dataSessionBatchMaxPackets)
    (h : Kept session l) (hjobs : l.state.jobs = []) :
    Kept session ⟨l.state.flushCall, l.input⟩ := by
  unfold State.flushCall
  split_ifs with hnothing
  · exact h
  · have hne : l.state.send.queued ≠ [] := fun hempty => hnothing (.inr hempty)
    refine ⟨by simp [hjobs], ?_, ?_, h.payload, waits_nil, nofun⟩
    · rw [← h.order]
      simp [received, inFlight, unsent, State.takeBatch, hjobs]
    · intro job hjob
      rw [hjobs] at hjob
      obtain rfl := List.mem_singleton.mp hjob
      refine ⟨fun items hitems => ?_, nofun⟩
      rw [List.mem_singleton.mp hitems]
      exact h.receive_queued hmax hne

theorem kept_notify (h : Kept session l) (hjob : l.state.jobs[i]? = some job) :
    Kept session ⟨l.state.notify i job, l.input⟩ := by
  obtain ⟨rfl, hjobs⟩ := eq_singleton h.single hjob
  refine ⟨by simp [State.notify, hjobs], ?_, ?_, h.payload, h.waits, h.nonempty⟩
  · rw [← h.order]
    simp [received, inFlight, unsent, State.notify, hjobs]
  · intro other hother
    have hclean := h.jobs job (by simp [hjobs])
    simp only [State.notify, hjobs, List.set_cons_zero, List.mem_singleton] at hother
    rw [hother]
    exact ⟨hclean.flushes, hclean.directs⟩

theorem kept_sendFlushes (h : Kept session l)
    (hjob : l.state.jobs[i]? = some job) (hturn : l.state.flusher.payload = []) :
    Kept session ⟨l.state.sendFlushes i job none, l.input⟩ := by
  obtain ⟨rfl, hjobs⟩ := eq_singleton h.single hjob
  have hclean := h.jobs job (by simp [hjobs])
  have hreceived : received (l.state.sendFlushes 0 job none) = received l.state ++ job.flushes.flatten := by
    have hunits : ∀ unit ∈ job.flushes.map WireUnit.batch, receive unit.bytes = unit.packets := by
      intro unit hunit
      obtain ⟨items, hitems, rfl⟩ := List.mem_map.mp hunit
      exact hclean.flushes items hitems
    refine (received_hand l.state _ hunits).trans ?_
    rw [List.flatMap_map]
    congr 1
    exact List.flatMap_id'
  refine ⟨by simp [State.sendFlushes, State.hand, hjobs], ?_, ?_, h.payload, h.waits, h.nonempty⟩
  · rw [hreceived, ← h.order]
    simp [inFlight, unsent, State.sendFlushes, State.hand, hjobs, hturn]
  · intro other hother
    simp only [State.sendFlushes, State.hand, hjobs, List.set_cons_zero, List.mem_singleton] at hother
    rw [hother]
    exact ⟨nofun, hclean.directs⟩

theorem kept_sendDirects (h : Kept session l)
    (hjob : l.state.jobs[i]? = some job) (hsent : job.flushes = [])
    (hturn : l.state.flusher.payload = [] ∨ job.directs = []) :
    Kept session ⟨l.state.sendDirects i job none, l.input⟩ := by
  obtain ⟨rfl, hjobs⟩ := eq_singleton h.single hjob
  have hclean := h.jobs job (by simp [hjobs])
  have hreceived : received (l.state.sendDirects 0 job none) = received l.state ++ job.directs := by
    have hunits : ∀ unit ∈ job.directs.map WireUnit.single, receive unit.bytes = unit.packets := by
      intro unit hunit
      obtain ⟨packet, hpacket, rfl⟩ := List.mem_map.mp hunit
      exact hclean.directs packet hpacket
    refine (received_hand l.state _ hunits).trans ?_
    rw [List.flatMap_map]
    congr 1
    exact List.flatMap_singleton' job.directs
  refine ⟨by simp [State.sendDirects, State.hand, hjobs], ?_, ?_, h.payload, h.waits, h.nonempty⟩
  · rw [hreceived, ← h.order]
    rcases hturn with hturn | hturn <;>
      simp [inFlight, unsent, State.sendDirects, State.hand, hjobs, hturn, hsent]
  · intro other hother
    simp [State.sendDirects, State.hand, hjobs] at hother

/-- Steps of the flusher without a payload in hand. -/
theorem kept_of_send_eq (h : Kept session l) {t : State} (hsend : t.send = l.state.send)
    (hjobs : t.jobs = l.state.jobs) (hbefore : l.state.flusher.payload = [])
    (hafter : ∀ payload last, t.flusher ≠ .sending payload last) : Kept session ⟨t, l.input⟩ := by
  have hpayload : t.flusher.payload = [] := by
    cases hflusher : t.flusher with
    | sending payload last => exact absurd hflusher (hafter payload last)
    | _ => rfl
  have hflight : inFlight t = inFlight l.state := by
    unfold inFlight unsent
    rw [hsend, hjobs, hbefore, hpayload]
  have hreceived : received t = received l.state := by
    unfold received
    rw [hsend]
  refine ⟨by rw [hjobs]; exact h.single, by rw [hflight, hreceived]; exact h.order,
    by rw [hjobs]; exact h.jobs, fun payload last hflusher => absurd hflusher (hafter payload last),
    by rw [hsend]; exact h.waits, by rw [hsend]; exact h.nonempty⟩

theorem resume_ne_sending (s : State) (last : Bool) (payload : List Bytes) (other : Bool) :
    (s.resume last).flusher ≠ .sending payload other := by
  cases last <;> nofun

theorem kept_flush (hmax : session.batching.maxPackets ≤ dataSessionBatchMaxPackets)
    (h : Kept session l) {seen : ℕ} {last : Bool} (hflusher : l.state.flusher = .flushing seen last)
    (hturn : unsent l.state = [] ∨ l.state.send.queued = []) :
    Kept session ⟨l.state.flush seen last, l.input⟩ := by
  have hbefore : l.state.flusher.payload = [] := by
    rw [hflusher]
    rfl
  unfold State.flush
  simp only
  split_ifs with hnothing
  · exact kept_of_send_eq h rfl rfl hbefore (resume_ne_sending _ last)
  · have hne : l.state.send.queued ≠ [] := fun hempty => hnothing (.inr hempty)
    refine ⟨h.single, ?_, h.jobs, ?_, waits_nil, nofun⟩
    · -- calls have sent everything, so the batch is the oldest of what is in flight
      have hunsent := hturn.resolve_right hne
      unfold unsent at hunsent
      rw [← h.order]
      simp [received, inFlight, unsent, State.takeBatch, Flusher.payload, hunsent, hflusher]
    · intro payload other hsending
      cases hsending
      exact h.receive_queued hmax hne

theorem kept_sent (h : Kept session l) {payload : List Bytes} {last : Bool}
    (hflusher : l.state.flusher = .sending payload last) :
    Kept session ⟨l.state.sent payload last none, l.input⟩ := by
  have hpayload := h.payload payload last hflusher
  have hreceived : received (l.state.sent payload last none) = received l.state ++ payload := by
    refine (received_hand l.state [.batch payload] ?_).trans (by simp [WireUnit.packets])
    intro unit hunit
    rw [List.mem_singleton.mp hunit]
    exact hpayload
  have hflight : inFlight (l.state.sent payload last none) = unsent l.state ++ l.state.send.queued := by
    have hnone : (l.state.sent payload last none).flusher.payload = [] := by
      cases last <;> rfl
    unfold inFlight
    rw [hnone]
    rfl
  refine ⟨h.single, ?_, h.jobs, fun other flag hsending => absurd hsending (resume_ne_sending _ last _ _),
    h.waits, h.nonempty⟩
  rw [hreceived, hflight, ← h.order, inFlight, hflusher]
  simp [Flusher.payload]

end Steps

/-- **One step** in which nothing is overtaken keeps what is received and what is in flight in
the order of the calls. -/
theorem kept_step {session : DataSession}
    (hmax : session.batching.maxPackets ≤ dataSessionBatchMaxPackets) {l m : Logged} {e : Event}
    (h : Kept session l) (hok : InOrder session l e) (hstep : logged session l e = some m) :
    Kept session m := by
  obtain ⟨hsender, hturn⟩ := hok
  obtain ⟨t, htaken, rfl⟩ := Option.map_eq_some_iff.mp hstep
  -- a step of the flusher that leaves the batch where it is
  have hturned : ∀ {t : State}, t.send = l.state.send → t.jobs = l.state.jobs →
      l.state.flusher.payload = [] → (∀ payload last, t.flusher ≠ .sending payload last) →
      Kept session ⟨t, l.input ++ []⟩ := by
    rw [List.append_nil]
    exact kept_of_send_eq h
  cases move_of_step htaken with
  | nothing => simpa [Event.packets] using h
  | queue now packets => exact kept_queue hmax h hsender hturn
  | flushCall => simpa [Event.packets] using kept_flushCall hmax h hsender
  | notify hfound hdue => simpa [Event.packets] using kept_notify h hfound
  | sendFlushes hfound htold =>
    obtain rfl : _ = none := hsender
    simpa [Event.packets] using kept_sendFlushes h hfound hturn
  | @sendDirects i job result hfound htold hflushed =>
    obtain rfl : result = none := hsender
    have hdirects : l.state.flusher.payload = [] ∨ job.directs = [] := by
      refine Or.imp_right (fun hall => ?_) hturn
      simpa [hfound] using hall
    simpa [Event.packets] using kept_sendDirects h hfound hflushed hdirects
  | wake hwaiting => exact hturned rfl rfl (by rw [hwaiting]; rfl) nofun
  | check now hchecking =>
    have hbefore : l.state.flusher.payload = [] := by
      rw [hchecking]
      rfl
    unfold State.check
    split_ifs <;> exact hturned rfl rfl hbefore nofun
  | interrupt hsleeping => exact hturned rfl rfl (by rw [hsleeping]; rfl) nofun
  | timer hsleeping => exact hturned rfl rfl (by rw [hsleeping]; rfl) nofun
  | cancelWaiting hwaiting => exact hturned rfl rfl (by rw [hwaiting]; rfl) nofun
  | cancelSleeping hsleeping => exact hturned rfl rfl (by rw [hsleeping]; rfl) nofun
  | flush hflushing => simpa [Event.packets] using kept_flush hmax h hflushing hturn
  | sent hsending =>
    obtain rfl : _ = none := hsender
    simpa [Event.packets] using kept_sent h hsending

/-- **Batching keeps content and order** in every run in which nothing is overtaken: what is
received is always a first part of what was queued, and all of it once nothing is in flight. -/
theorem batching_keeps_order (session : DataSession)
    (hmax : session.batching.maxPackets ≤ dataSessionBatchMaxPackets) (l : Logged)
    (h : Reaches (logged session) (InOrder session) ⟨start session, []⟩ l) :
    received l.state <+: l.input ∧ (inFlight l.state = [] → received l.state = l.input) := by
  have hkept : Kept session l := h.invariant (Kept session) (kept_start session)
    fun _ _ _ hkept hok hstep => kept_step hmax hkept hok hstep
  refine ⟨⟨inFlight l.state, hkept.order⟩, fun hnone => ?_⟩
  rw [← hkept.order, hnone, List.append_nil]

/-! ## Runs -/

/-- A stream with payloads of at most 20 bytes and two packets. -/
def tiny (delay : ℕ) : DataSession where
  stats := ⟨false, false, 0⟩
  batching := ⟨true, 20, 2, delay⟩
  native := false
  segmentFragmenting := false
  answer := fun _ => none

/-- A run of one sender after which nothing is in flight. -/
def Delivers (session : DataSession) (queued got : List Bytes) : Prop :=
  ∃ l, Reaches (logged session) (fun l e => OneSender l.state e) ⟨start session, []⟩ l ∧
    inFlight l.state = [] ∧ l.input = queued ∧ received l.state = got

theorem delivers_of_replay {session : DataSession} {queued got : List Bytes} (events : List Event)
    (h : (replay (logged session) (fun l e => OneSender l.state e) ⟨start session, []⟩ events).any
      (fun l => decide (inFlight l.state = [] ∧ l.input = queued ∧ received l.state = got)) = true) :
    Delivers session queued got := by
  obtain ⟨l, hl, hgot⟩ := (Option.any_eq_true _ _).mp h
  exact ⟨l, reaches_of_replay hl, of_decide_eq_true hgot⟩

/-- Too long for a payload of `tiny`. -/
def long : Bytes := List.replicate 11 7

/-- **Order and content are lost**: a packet that goes alone is sent after the batch of the
packet behind it; the flusher sends the end of a call before the call sends its beginning; a call
overtakes the payload in the flusher's hand; an empty packet makes its payload unreadable. -/
theorem order_is_lost :
    Delivers (tiny 0) [long, [1]] [[1], long] ∧
      Delivers (tiny 5) [[1], [2], [3]] [[3], [1], [2]] ∧
      Delivers (tiny 5) [[1], [2], [3]] [[2], [3], [1]] ∧
      Delivers (tiny 0) [[1], []] [encodeBatch [[1], []]] := by
  refine ⟨?_, ?_, ?_, ?_⟩
  · exact delivers_of_replay [.queue 1 [long, [1]], .sendFlushes 0 none, .sendDirects 0 none]
      (by decide +kernel)
  · exact delivers_of_replay [.queue 1 [[1], [2], [3]], .notify 0, .wake, .check 10, .flush,
      .sent none, .sendFlushes 0 none, .sendDirects 0 none] (by decide +kernel)
  · exact delivers_of_replay [.queue 1 [[1]], .notify 0, .sendDirects 0 none, .wake, .check 10,
      .flush, .queue 11 [[2], [3]], .sendFlushes 0 none, .sendDirects 0 none, .sent none]
      (by decide +kernel)
  · exact delivers_of_replay [.queue 1 [[1], []], .sendFlushes 0 none, .sendDirects 0 none]
      (by decide +kernel)

/-- A packet that the flusher sends, and then a call with a long packet at its end. -/
theorem batching_keeps_order_two_calls : ∃ l,
    Reaches (logged (tiny 5)) (InOrder (tiny 5)) ⟨start (tiny 5), []⟩ l ∧
      l.input = [[1], [2], [3], long] ∧ received l.state = l.input := by
  have hrun : (replay (logged (tiny 5)) (InOrder (tiny 5)) ⟨start (tiny 5), []⟩
      [.queue 1 [[1]], .notify 0, .sendDirects 0 none, .wake, .check 10, .flush, .sent none,
        .queue 11 [[2], [3], long], .sendFlushes 0 none, .sendDirects 0 none]).any
      (fun l => decide (l.input = [[1], [2], [3], long] ∧ inFlight l.state = [])) = true := by
    decide +kernel
  obtain ⟨l, hl, hstate⟩ := (Option.any_eq_true _ _).mp hrun
  obtain ⟨hinput, hflight⟩ := of_decide_eq_true hstate
  have hreach := reaches_of_replay hl
  exact ⟨l, hreach, hinput, (batching_keeps_order (tiny 5) (by decide) l hreach).2 hflight⟩

end BatchPipeline
