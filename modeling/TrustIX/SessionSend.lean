/-
# Sending on a data session

Packets that go to a data session are cut to its size and handed to its transport, one by one
or several of them in one payload (`sendDataSessionPackets` in `internal/daemon/datapath.go`).

* `split_spec` : cutting fails exactly for a packet that neither fits nor can be segmented;
* `queueLoop_spec` : the payloads that packets are put together in, and what is left waiting;
* `queueLoop_packed` : each of these payloads keeps to the limits of the session.
-/
import TrustIX.Segmentation

namespace Datapath

open ByteEdit Fallible

/-! ## Sessions -/

/-- `transport.TransportStats`, as far as it matters for packets. -/
structure TransportStats where
  datagram : Bool
  fragmentingDatagram : Bool
  maxPacketSize : ℕ

/-- `dataSessionBatchConfig`. -/
structure BatchConfig where
  enabled : Bool
  maxBytes : ℕ
  maxPackets : ℕ
  delay : ℕ

/-- A session with its transport: what `dataSessionNativeBatchingPreferred` and
`dataSessionSegmentFragmentingDatagramEnabled` say, and the error, if any, with which the
transport answers to a packet. -/
structure DataSession where
  stats : TransportStats
  batching : BatchConfig
  native : Bool
  segmentFragmenting : Bool
  answer : Bytes → Option String

def maxInt : ℕ := 2 ^ 63 - 1

/-- The last step of `dataSessionBatchMaxBytesForStats`. -/
def DataSession.batchMaxBytes (session : DataSession) : ℕ :=
  if session.stats.datagram ∧ !session.stats.fragmentingDatagram ∧ session.stats.maxPacketSize > 0 then
    min session.batching.maxBytes session.stats.maxPacketSize
  else session.batching.maxBytes

/-! ## Cutting packets to size -/

/-- One turn of the loop of `splitDataSessionPacketsForMTU`. -/
def splitPacket (session : DataSession) (packet : Bytes) : Except String (List Bytes) :=
  if packet.length ≤ session.stats.maxPacketSize then .ok [packet]
  else if !(!session.stats.fragmentingDatagram || session.segmentFragmenting) then .ok [packet]
  else segmentDataSessionIPv4TCPPacket packet session.stats.maxPacketSize

def splitLoop (session : DataSession) : List Bytes → Except String (List Bytes)
  | [] => .ok []
  | packet :: rest => do
    let wires ← splitPacket session packet
    let others ← splitLoop session rest
    .ok (wires ++ others)

def splitDataSessionPacketsForMTU (session : DataSession) (packets : List Bytes) :
    Except String (List Bytes) :=
  if !session.stats.datagram ∨ session.stats.maxPacketSize = 0 ∨
      session.stats.maxPacketSize > maxInt then .ok packets
  else splitLoop session packets

/-! ## Payloads -/

/-- What the transport is given: a packet, or a payload with several of them. -/
inductive WireUnit where
  | single (packet : Bytes)
  | batch (items : List Bytes)

def dataSessionBatchHeaderLen : ℕ := 8
def dataSessionBatchItemHeaderLen : ℕ := 2

/-- The payload of a batch: magic, version, count and the packets behind their lengths. -/
def encodeBatch (items : List Bytes) : Bytes :=
  [0x54, 0x49, 0x58, 0x42, 1, 0] ++ BigEndian.put 2 items.length ++
    (items.map fun item => BigEndian.put 2 item.length ++ item).flatten

def WireUnit.bytes : WireUnit → Bytes
  | .single packet => packet
  | .batch items => encodeBatch items

def WireUnit.packets : WireUnit → List Bytes
  | .single packet => [packet]
  | .batch items => items

/-- What was handed to the transport, the batch that waits, since when, and the error that was
remembered. -/
structure SendState where
  handed : List WireUnit
  queued : List Bytes
  firstSeen : ℕ
  failed : Option String

/-- Hands units to the transport until it refuses one; the error of a batch is remembered. -/
def transmit (session : DataSession) : SendState → List WireUnit → Except String Unit × SendState
  | s, [] => (.ok (), s)
  | s, unit :: units =>
    match session.answer unit.bytes with
    | none => transmit session { s with handed := s.handed ++ [unit] } units
    | some text =>
      match unit with
      | .single _ => (.error text, s)
      | .batch _ => (.error text, { s with failed := some text })

def flushDataSessionBatch (session : DataSession) (s : SendState) : Except String Unit × SendState :=
  match s.failed with
  | some text => (.error text, s)
  | none =>
    if s.queued = [] then (.ok (), s)
    else transmit session { s with queued := [], firstSeen := 0 } [.batch s.queued]

def isDataSessionControlPacket (packet : Bytes) : Bool :=
  let magic := slice packet 0 4 = [0x54, 0x49, 0x58, 0x43] && byteAt packet 4 = 1
  if packet.length = 16 then magic
  else if packet.length < 28 || !magic then false
  else if byteAt packet 5 ≠ 3 then false
  else packet.length = 28 + uint16At packet 24 * 8

/-- The variables of the loop of `queueDataSessionPackets`. -/
structure QueueState where
  queued : List Bytes
  firstSeen : ℕ
  failed : Option String
  flushes : List (List Bytes)
  directs : List Bytes

namespace QueueState

/-- `takeDataSessionBatchPayloadLocked`, and the payload goes to those that are flushed. -/
def take (q : QueueState) : QueueState :=
  if q.queued = [] then q else { q with queued := [], firstSeen := 0, flushes := q.flushes ++ [q.queued] }

/-- `initDataSessionBatchLocked`. -/
def init (now : ℕ) (q : QueueState) : QueueState :=
  if q.queued = [] then { q with firstSeen := now, failed := none } else q

/-- The packet is put in the batch, which goes if it is full or has waited. -/
def put (session : DataSession) (now : ℕ) (q : QueueState) (packet : Bytes) : QueueState :=
  let q := { q with queued := q.queued ++ [packet] }
  if q.queued.length ≥ session.batching.maxPackets ∨
      (encodeBatch q.queued).length ≥ session.batchMaxBytes ∨
      (session.batching.delay > 0 ∧ now - q.firstSeen ≥ session.batching.delay) then q.take
  else q

def step (session : DataSession) (now : ℕ) (q : QueueState) (packet : Bytes) : QueueState :=
  if isDataSessionControlPacket packet ∨
      packet.length + dataSessionBatchHeaderLen + dataSessionBatchItemHeaderLen >
        session.batchMaxBytes ∨ packet.length > 0xffff then
    let q := q.take
    { q with directs := q.directs ++ [packet] }
  else
    let q := q.init now
    let q := if q.queued ≠ [] ∧ (encodeBatch q.queued).length +
        (dataSessionBatchItemHeaderLen + packet.length) > session.batchMaxBytes then
      q.take.init now else q
    q.put session now packet

end QueueState

/-- The loop of `queueDataSessionPackets`. -/
def queueLoop (session : DataSession) (now : ℕ) (s : SendState) (packets : List Bytes) : QueueState :=
  let q := packets.foldl (QueueState.step session now) ⟨s.queued, s.firstSeen, s.failed, [], []⟩
  if session.batching.delay = 0 then q.take else q

def queueDataSessionPackets (session : DataSession) (now : ℕ) (s : SendState) (packets : List Bytes) :
    Except String Unit × SendState :=
  let q := queueLoop session now s packets
  transmit session { s with queued := q.queued, firstSeen := q.firstSeen, failed := q.failed }
    (q.flushes.map .batch ++ q.directs.map .single)

/-- The packets go to the transport as they are, after the batch that waits. -/
def sendDirect (session : DataSession) (s : SendState) (packets : List Bytes) :
    Except String Unit × SendState :=
  match flushDataSessionBatch session s with
  | (.error text, s) => (.error text, s)
  | (.ok (), s) => transmit session s (packets.map .single)

/-- `sendDataSessionPackets`; a single packet goes by `sendDataSessionPacket`, which does not
queue a control packet. -/
def sendDataSessionPackets (session : DataSession) (now : ℕ) (s : SendState) (packets : List Bytes) :
    Except String Unit × SendState :=
  if packets = [] then (.ok (), s)
  else
    match splitDataSessionPacketsForMTU session packets with
    | .error text => (.error text, s)
    | .ok wires =>
      if session.batching.enabled && !session.native &&
          !(wires.length = 1 && wires.all isDataSessionControlPacket) then
        queueDataSessionPackets session now s wires
      else sendDirect session s wires

/-! ## Cutting -/

section Split

variable {session : DataSession}

/-- The transport is told a size, and packets are cut to it. -/
def DataSession.Segments (session : DataSession) : Prop :=
  session.stats.fragmentingDatagram = false ∨ session.segmentFragmenting = true

/-- What is sent for a packet. -/
def SentAs (session : DataSession) (packet : Bytes) (wires : List Bytes) : Prop :=
  CarriedBy packet session.stats.maxPacketSize wires ∨ (¬session.Segments ∧ wires = [packet])

theorem splitPacket_spec (packet : Bytes) :
    ((session.Segments → Sendable packet session.stats.maxPacketSize) →
      ∃ wires, splitPacket session packet = .ok wires ∧ SentAs session packet wires ∧
        (session.Segments → ∀ wire ∈ wires, wire.length ≤ session.stats.maxPacketSize)) ∧
    (session.Segments → ¬Sendable packet session.stats.maxPacketSize →
      ∃ text, splitPacket session packet = .error text) := by
  unfold splitPacket
  by_cases hfits : packet.length ≤ session.stats.maxPacketSize
  · rw [if_pos hfits]
    refine ⟨fun _ => ⟨[packet], rfl, .inl (.inl ⟨hfits, rfl⟩), fun _ => by simpa using hfits⟩, ?_⟩
    intro _ hnot
    exact absurd (.inl hfits) hnot
  · rw [if_neg hfits]
    have hsegments : (!session.stats.fragmentingDatagram || session.segmentFragmenting) = true ↔
        session.Segments := by
      simp [DataSession.Segments]
    obtain ⟨hgood, hbad⟩ := segment_spec packet session.stats.maxPacketSize
    by_cases hseg : session.Segments
    · rw [hsegments.mpr hseg]
      refine ⟨fun hsendable => ?_, fun _ hnot => hbad hnot⟩
      obtain ⟨wires, hwires, hlengths, hcarried⟩ := hgood (hsendable hseg)
      exact ⟨wires, hwires, .inl hcarried, fun _ => hlengths⟩
    · have hfalse : (!session.stats.fragmentingDatagram || session.segmentFragmenting) = false := by
        rw [← Bool.not_eq_true, hsegments]
        exact hseg
      rw [hfalse]
      exact ⟨fun _ => ⟨[packet], rfl, .inr ⟨hseg, rfl⟩, fun h => absurd h hseg⟩,
        fun h => absurd h hseg⟩

/-- **Cutting packets** fails exactly if one neither fits nor can be segmented. -/
theorem split_spec (hdatagram : session.stats.datagram = true)
    (hpos : 0 < session.stats.maxPacketSize) (hmax : session.stats.maxPacketSize ≤ maxInt)
    (packets : List Bytes) :
    ((∀ packet ∈ packets, session.Segments → Sendable packet session.stats.maxPacketSize) →
      ∃ parts, splitDataSessionPacketsForMTU session packets = .ok parts.flatten ∧
        List.Forall₂ (SentAs session) packets parts ∧
        (session.Segments → ∀ wire ∈ parts.flatten, wire.length ≤ session.stats.maxPacketSize)) ∧
    (session.Segments → (∃ packet ∈ packets, ¬Sendable packet session.stats.maxPacketSize) →
      ∃ text, splitDataSessionPacketsForMTU session packets = .error text) := by
  have hsplit : splitDataSessionPacketsForMTU session packets = splitLoop session packets := by
    unfold splitDataSessionPacketsForMTU
    rw [if_neg (by simp [hdatagram]; omega)]
  rw [hsplit]
  clear hsplit
  induction packets with
  | nil => exact ⟨fun _ => ⟨[], rfl, .nil, by simp⟩, by simp⟩
  | cons packet rest ih =>
    obtain ⟨hgood, hbad⟩ := @splitPacket_spec session packet
    obtain ⟨ihgood, ihbad⟩ := ih
    constructor
    · intro hall
      obtain ⟨wires, hwires, hsent, hlengths⟩ := hgood (hall packet List.mem_cons_self)
      obtain ⟨parts, hparts, hforall, hrest⟩ :=
        ihgood fun other hother => hall other (List.mem_cons_of_mem _ hother)
      refine ⟨wires :: parts, ?_, .cons hsent hforall, fun hseg wire hwire => ?_⟩
      · rw [splitLoop, hwires, ok_bind, hparts, ok_bind]
        rfl
      · rcases List.mem_append.mp hwire with hwire | hwire
        · exact hlengths hseg wire hwire
        · exact hrest hseg wire hwire
    · rintro hseg ⟨other, hother, hnot⟩
      by_cases hfirst : Sendable packet session.stats.maxPacketSize
      · obtain ⟨wires, hwires, -, -⟩ := hgood fun _ => hfirst
        have hmem : other ∈ rest := by
          rcases List.mem_cons.mp hother with rfl | hmem
          · exact absurd hfirst hnot
          · exact hmem
        obtain ⟨text, htext⟩ := ihbad hseg ⟨other, hmem, hnot⟩
        exact ⟨text, by rw [splitLoop, hwires, ok_bind, htext]; rfl⟩
      · obtain ⟨text, htext⟩ := hbad hseg hfirst
        exact ⟨text, by rw [splitLoop, htext]; rfl⟩

end Split

/-! ## Putting packets together -/

section Queue

variable {session : DataSession} {now : ℕ} {q : QueueState}

/-- The packet does not go into a batch. -/
def DataSession.sendsAlone (session : DataSession) (packet : Bytes) : Bool :=
  isDataSessionControlPacket packet ||
    decide (packet.length + dataSessionBatchHeaderLen + dataSessionBatchItemHeaderLen >
      session.batchMaxBytes) || decide (packet.length > 0xffff)

variable {packet : Bytes}

theorem sendsAlone_iff : session.sendsAlone packet = true ↔
    (isDataSessionControlPacket packet ∨
      packet.length + dataSessionBatchHeaderLen + dataSessionBatchItemHeaderLen >
        session.batchMaxBytes ∨ packet.length > 0xffff) := by
  simp [DataSession.sendsAlone, or_assoc]

theorem length_encodeBatch (items : List Bytes) :
    (encodeBatch items).length = dataSessionBatchHeaderLen +
      (items.map fun item => dataSessionBatchItemHeaderLen + item.length).sum := by
  simp [encodeBatch, dataSessionBatchHeaderLen, dataSessionBatchItemHeaderLen, List.length_flatten,
    Function.comp_def]
  omega

namespace QueueState

@[simp] theorem take_queued : q.take.queued = [] := by
  unfold take
  split
  · assumption
  · rfl

@[simp] theorem take_directs : q.take.directs = q.directs := by
  unfold take
  split <;> rfl

@[simp] theorem take_failed : q.take.failed = q.failed := by
  unfold take
  split <;> rfl

theorem take_flushes : q.take.flushes = if q.queued = [] then q.flushes else q.flushes ++ [q.queued] := by
  unfold take
  split <;> rfl

@[simp] theorem init_queued : (q.init now).queued = q.queued := by
  unfold init
  split <;> rfl

@[simp] theorem init_flushes : (q.init now).flushes = q.flushes := by
  unfold init
  split <;> rfl

@[simp] theorem init_directs : (q.init now).directs = q.directs := by
  unfold init
  split <;> rfl

/-- What was flushed and what waits, in the order in which it was put there. -/
def batched (q : QueueState) : List Bytes := q.flushes.flatten ++ q.queued

@[simp] theorem batched_take : q.take.batched = q.batched := by
  unfold batched
  rw [take_queued, take_flushes]
  split_ifs with h
  · rw [h]
  · simp

@[simp] theorem batched_init : (q.init now).batched = q.batched := by
  simp [batched]

theorem batched_put (packet : Bytes) : (q.put session now packet).batched = q.batched ++ [packet] := by
  unfold put
  simp only
  split
  · rw [batched_take]
    simp [batched]
  · simp [batched]

theorem directs_put (packet : Bytes) : (q.put session now packet).directs = q.directs := by
  unfold put
  simp only
  split
  · rw [take_directs]
  · rfl

/-- The batch a packet is put in: the one that waits, or a new one if the packet would make that
one too long. -/
def opened (session : DataSession) (now : ℕ) (q : QueueState) (packet : Bytes) : QueueState :=
  if q.queued ≠ [] ∧ (encodeBatch q.queued).length +
      (dataSessionBatchItemHeaderLen + packet.length) > session.batchMaxBytes then
    (q.init now).take.init now
  else q.init now

theorem step_of_alone (h : session.sendsAlone packet = true) :
    q.step session now packet = { q.take with directs := q.directs ++ [packet] } := by
  unfold step
  rw [if_pos (sendsAlone_iff.mp h)]
  simp

theorem step_of_not_alone (h : session.sendsAlone packet = false) :
    q.step session now packet = (opened session now q packet).put session now packet := by
  have hcond := mt sendsAlone_iff.mpr (by rw [h]; exact Bool.false_ne_true)
  unfold step
  rw [if_neg hcond]
  simp only [opened, init_queued]

@[simp] theorem batched_opened : (opened session now q packet).batched = q.batched := by
  unfold opened
  split <;> simp

@[simp] theorem directs_opened : (opened session now q packet).directs = q.directs := by
  unfold opened
  split <;> simp

end QueueState

/-- The loop, over packets of which some go alone. -/
theorem foldl_step_spec (packets : List Bytes) (q : QueueState) :
    (packets.foldl (QueueState.step session now) q).batched =
        q.batched ++ packets.filter (fun packet => !session.sendsAlone packet) ∧
      (packets.foldl (QueueState.step session now) q).directs =
        q.directs ++ packets.filter session.sendsAlone := by
  induction packets generalizing q with
  | nil => simp
  | cons packet rest ih =>
    rw [List.foldl_cons]
    obtain ⟨hbatched, hdirects⟩ := ih (q.step session now packet)
    rw [hbatched, hdirects]
    cases halone : session.sendsAlone packet with
    | true =>
      have htake : ({ q.take with directs := q.directs ++ [packet] } : QueueState).batched =
          q.batched := QueueState.batched_take
      rw [QueueState.step_of_alone halone, htake]
      simp [halone]
    | false =>
      rw [QueueState.step_of_not_alone halone, QueueState.batched_put, QueueState.directs_put,
        QueueState.batched_opened, QueueState.directs_opened]
      simp [halone]

/-- **Nothing is lost on the way into batches**: payloads and the batch that waits hold the
packets in their order; those that go alone keep theirs. -/
theorem queueLoop_spec (s : SendState) (packets : List Bytes) :
    (queueLoop session now s packets).flushes.flatten ++ (queueLoop session now s packets).queued =
        s.queued ++ packets.filter (fun packet => !session.sendsAlone packet) ∧
      (queueLoop session now s packets).directs = packets.filter session.sendsAlone := by
  obtain ⟨hbatched, hdirects⟩ :=
    @foldl_step_spec session now packets ⟨s.queued, s.firstSeen, s.failed, [], []⟩
  unfold queueLoop
  split
  · refine ⟨QueueState.batched_take.trans hbatched, ?_⟩
    rw [QueueState.take_directs, hdirects]
    rfl
  · exact ⟨hbatched, hdirects⟩

/-! ## Limits -/

/-- A payload within the limits of the session. -/
structure Packed (session : DataSession) (items : List Bytes) : Prop where
  count : items.length ≤ max 1 session.batching.maxPackets
  bytes : (encodeBatch items).length ≤ session.batchMaxBytes
  item : ∀ item ∈ items, session.sendsAlone item = false

/-- A batch that waits: it has room for another packet. -/
structure Waits (session : DataSession) (items : List Bytes) : Prop where
  packed : items ≠ [] → Packed session items
  room : items ≠ [] → items.length < session.batching.maxPackets

theorem waits_nil : Waits session [] := ⟨fun h => absurd rfl h, fun h => absurd rfl h⟩

namespace QueueState

/-- Payloads that go and the batch that waits keep to the limits. -/
structure Bounded (session : DataSession) (q : QueueState) : Prop where
  flushes : ∀ items ∈ q.flushes, items ≠ [] ∧ Packed session items
  queued : Waits session q.queued

theorem Bounded.take (h : q.Bounded session) : q.take.Bounded session := by
  refine ⟨?_, by rw [take_queued]; exact waits_nil⟩
  rw [take_flushes]
  intro items hitems
  split_ifs at hitems with hempty
  · exact h.flushes items hitems
  · rcases List.mem_append.mp hitems with hitems | hitems
    · exact h.flushes items hitems
    · obtain rfl := List.mem_singleton.mp hitems
      exact ⟨hempty, h.queued.packed hempty⟩

theorem Bounded.init (h : q.Bounded session) : (q.init now).Bounded session := by
  refine ⟨?_, ?_⟩
  · rw [init_flushes]
    exact h.flushes
  · rw [init_queued]
    exact h.queued

theorem Bounded.opened_packet (h : q.Bounded session) :
    (opened session now q packet).Bounded session := by
  unfold opened
  split
  · exact h.init.take.init
  · exact h.init

/-- The batch that was opened takes the packet. -/
theorem length_opened (h : session.sendsAlone packet = false) :
    (encodeBatch ((opened session now q packet).queued ++ [packet])).length ≤
      session.batchMaxBytes := by
  have hsmall : packet.length + dataSessionBatchHeaderLen + dataSessionBatchItemHeaderLen ≤
      session.batchMaxBytes := by
    have := mt sendsAlone_iff.mpr (by rw [h]; exact Bool.false_ne_true)
    omega
  unfold opened
  split_ifs with hlong
  · rw [init_queued, take_queued, length_encodeBatch]
    simp
    omega
  · rw [init_queued, length_encodeBatch]
    rw [length_encodeBatch] at hlong
    simp only [List.map_append, List.map_cons, List.map_nil, List.sum_append, List.sum_singleton]
    by_cases hempty : q.queued = []
    · rw [hempty]
      simp
      omega
    · have hfits := not_lt.mp (not_and.mp hlong hempty)
      omega

theorem Bounded.step (h : q.Bounded session) : (q.step session now packet).Bounded session := by
  cases halone : session.sendsAlone packet with
  | true =>
    rw [step_of_alone halone]
    exact ⟨h.take.flushes, h.take.queued⟩
  | false =>
    rw [step_of_not_alone halone]
    have hopened : (opened session now q packet).Bounded session := h.opened_packet
    have hlength := @length_opened session now q packet halone
    generalize opened session now q packet = r at hopened hlength
    have hpacked : Packed session (r.queued ++ [packet]) := by
      refine ⟨?_, hlength, ?_⟩
      · rw [List.length_append, List.length_singleton]
        by_cases hempty : r.queued = []
        · simp [hempty]
        · have := hopened.queued.room hempty
          omega
      · intro item hitem
        rcases List.mem_append.mp hitem with hitem | hitem
        · exact (hopened.queued.packed (List.ne_nil_of_mem hitem)).item item hitem
        · rw [List.mem_singleton.mp hitem]
          exact halone
    unfold put
    simp only
    split_ifs with hfull
    · -- a full batch goes, whether or not there would be room for another packet
      refine ⟨?_, by rw [take_queued]; exact waits_nil⟩
      rw [take_flushes, if_neg (by simp)]
      exact List.forall_mem_append.mpr ⟨hopened.flushes, List.forall_mem_singleton.mpr ⟨by simp, hpacked⟩⟩
    · refine ⟨hopened.flushes, fun _ => hpacked, fun _ => ?_⟩
      exact not_le.mp fun hle => hfull (.inl hle)

theorem Bounded.foldl {packets : List Bytes} (h : q.Bounded session) :
    (packets.foldl (QueueState.step session now) q).Bounded session := by
  induction packets generalizing q with
  | nil => exact h
  | cons packet rest ih => exact ih h.step

end QueueState

/-- **Payloads keep to the limits**, and so does what is left waiting. -/
theorem queueLoop_packed {s : SendState} {packets : List Bytes} (h : Waits session s.queued) :
    (queueLoop session now s packets).Bounded session := by
  have hstart : (⟨s.queued, s.firstSeen, s.failed, [], []⟩ : QueueState).Bounded session :=
    ⟨by simp, h⟩
  unfold queueLoop
  split
  · exact hstart.foldl.take
  · exact hstart.foldl

end Queue

end Datapath
