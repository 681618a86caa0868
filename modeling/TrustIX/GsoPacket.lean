/-
# Merging TCP packets

What the coalescer of the data path reads in a TCP packet, when it appends a packet to another
one, and the header that it writes for the result (`internal/daemon/gso_coalesce.go`).

* `tcpGSOCoalescePacketMeta_eq_some` : the packets that can be merged;
* `Gathered.spec` : what a coalescer holds after some packets;
* `merged_of_gathered` : the packet that it gives.
-/
import TrustIX.Ipv4Packet

namespace Datapath

open ByteEdit Fallible

/-! ## The fields of a packet -/

/-- `tcpGSOCoalesceKey`: the flow of a packet. -/
structure CoalesceKey where
  sourceIP : Bytes
  destinationIP : Bytes
  sourcePort : ℕ
  destinationPort : ℕ
  deriving DecidableEq

/-- `tcpGSOCoalesceMeta`. -/
structure CoalesceMeta where
  key : CoalesceKey
  ipTOS : UInt8
  ipFlags : ℕ
  ipTTL : UInt8
  ihl : ℕ
  tcpHeaderLen : ℕ
  payloadOffset : ℕ
  payloadLen : ℕ
  seq : ℕ
  ack : ℕ
  flags : UInt8
  window : ℕ
  urgent : ℕ
  totalLen : ℕ
  headerLen : ℕ
  deriving DecidableEq

def tcpGSOCoalescibleFlags (flags : UInt8) : Bool :=
  flags = tcpFlagACK || flags = tcpFlagACK ||| tcpFlagPSH

/-- The fields that are read, when the headers have these lengths. -/
def metaOf (packet : Bytes) (ihl tcpHeaderLen totalLen : ℕ) : CoalesceMeta where
  key := ⟨slice packet 12 4, slice packet 16 4, uint16At packet ihl, uint16At packet (ihl + 2)⟩
  ipTOS := byteAt packet 1
  ipFlags := uint16At packet 6
  ipTTL := byteAt packet 8
  ihl := ihl
  tcpHeaderLen := tcpHeaderLen
  payloadOffset := ihl + tcpHeaderLen
  payloadLen := totalLen - (ihl + tcpHeaderLen)
  seq := uint32At packet (ihl + 4)
  ack := uint32At packet (ihl + 8)
  flags := byteAt packet (ihl + 13)
  window := uint16At packet (ihl + 14)
  urgent := uint16At packet (ihl + 18)
  totalLen := totalLen
  headerLen := ihl + tcpHeaderLen

def tcpGSOCoalescePacketMeta (packet : Bytes) : Option CoalesceMeta :=
  match ipv4HeaderBounds packet with
  | .error _ => none
  | .ok (ipOffset, ihl, totalLen) =>
    if ipOffset ≠ 0 ∨ totalLen ≠ packet.length ∨ totalLen > 0xffff then none
    else if byteAt packet 9 ≠ ipProtocolTCP then none
    else if uint16At packet 6 &&& (ipv4MoreFragments ||| ipv4FragmentOffsetMask) ≠ 0 then none
    else if totalLen - ihl < 20 then none
    else
      let tcpHeaderLen := (byteAt packet (ihl + 12) >>> 4).toNat * 4
      if tcpHeaderLen < 20 ∨ tcpHeaderLen > totalLen - ihl then none
      else if totalLen - (ihl + tcpHeaderLen) = 0 ∨
          !tcpGSOCoalescibleFlags (byteAt packet (ihl + 13)) then none
      else some (metaOf packet ihl tcpHeaderLen totalLen)

/-- A packet that can be merged. -/
structure Mergeable (packet : Bytes) (ihl tcpHeaderLen : ℕ) : Prop where
  bounds : Bounds packet ihl packet.length
  protocol : byteAt packet 9 = ipProtocolTCP
  whole : uint16At packet 6 &&& (ipv4MoreFragments ||| ipv4FragmentOffsetMask) = 0
  tcp_eq : tcpHeaderLen = (byteAt packet (ihl + 12) >>> 4).toNat * 4
  tcp_ge : 20 ≤ tcpHeaderLen
  payload : ihl + tcpHeaderLen < packet.length
  flags : tcpGSOCoalescibleFlags (byteAt packet (ihl + 13)) = true

theorem Mergeable.length_le {packet : Bytes} {ihl tcpHeaderLen : ℕ}
    (h : Mergeable packet ihl tcpHeaderLen) : packet.length ≤ 65535 := by
  have := uint16At_lt packet 2
  rw [← h.bounds.total_eq] at this
  omega

/-- **The packets that can be merged**, and what is read in them. -/
theorem tcpGSOCoalescePacketMeta_eq_some {packet : Bytes} {info : CoalesceMeta} :
    tcpGSOCoalescePacketMeta packet = some info ↔ ∃ ihl tcpHeaderLen,
      Mergeable packet ihl tcpHeaderLen ∧ info = metaOf packet ihl tcpHeaderLen packet.length := by
  constructor
  · intro h
    unfold tcpGSOCoalescePacketMeta at h
    split at h
    · cases h
    · next ipOffset ihl totalLen hbounds =>
        simp only at h
        split_ifs at h with h₁ h₂ h₃ h₄ h₅ h₆
        obtain ⟨rfl, rfl, -⟩ : ipOffset = 0 ∧ totalLen = packet.length ∧ _ := by
          simpa only [not_or, not_not] using h₁
        rw [ipv4HeaderBounds_eq_ok] at hbounds
        have hflags : tcpGSOCoalescibleFlags (byteAt packet (ihl + 13)) = true := by
          simpa using (not_or.mp h₆).2
        cases h
        exact ⟨ihl, _, ⟨hbounds, not_not.mp h₂, not_not.mp h₃, rfl, by omega, by omega, hflags⟩, rfl⟩
  · rintro ⟨ihl, tcpHeaderLen, h, rfl⟩
    have hle := h.length_le
    have hpayload := h.payload
    have htcp := h.tcp_ge
    unfold tcpGSOCoalescePacketMeta
    rw [ipv4HeaderBounds_eq_ok.mpr h.bounds]
    simp only [← h.tcp_eq]
    rw [if_neg (by omega), if_neg (not_not.mpr h.protocol), if_neg (not_not.mpr h.whole),
      if_neg (by omega), if_neg (by omega), if_neg (by simp [h.flags]; omega)]

/-- The places in which packets of one flow have their own values: length, identification,
sequence number, flags and checksums. -/
def ownPlaces (ihl i : ℕ) : Prop :=
  (2 ≤ i ∧ i < 6 ∨ 10 ≤ i ∧ i < 12) ∨
    ihl + 4 ≤ i ∧ i < ihl + 8 ∨ i = ihl + 13 ∨ ihl + 16 ≤ i ∧ i < ihl + 18

section Agree

variable {a b : Bytes} {ihl tcpHeaderLen : ℕ}

/-- What is read at the other places of two packets that agree there. -/
theorem reads_of_agree (hsame : ∀ i < ihl + tcpHeaderLen, ¬ownPlaces ihl i → b[i]? = a[i]?) :
    (∀ i < ihl + tcpHeaderLen, ¬ownPlaces ihl i → byteAt b i = byteAt a i) ∧
      ∀ place count, place + count ≤ ihl + tcpHeaderLen →
        (∀ i, place ≤ i → i < place + count → ¬ownPlaces ihl i) →
        slice b place count = slice a place count := by
  refine ⟨fun i hi hnot => byteAt_congr (hsame i hi hnot), fun place count hle hnot => ?_⟩
  exact slice_congr fun i hge hlt => hsame i (by omega) (hnot i hge hlt)

/-- A packet whose other places are those of one that can be merged can be merged, and the same
is read in it. -/
theorem Mergeable.agree (h : Mergeable a ihl tcpHeaderLen)
    (hsame : ∀ i < ihl + tcpHeaderLen, ¬ownPlaces ihl i → b[i]? = a[i]?)
    (htotal : uint16At b 2 = b.length) (hroom : ihl + tcpHeaderLen < b.length)
    (hflags : tcpGSOCoalescibleFlags (byteAt b (ihl + 13)) = true) :
    Mergeable b ihl tcpHeaderLen ∧ metaOf b ihl tcpHeaderLen b.length =
      { metaOf a ihl tcpHeaderLen a.length with
        seq := uint32At b (ihl + 4)
        flags := byteAt b (ihl + 13)
        payloadLen := b.length - (ihl + tcpHeaderLen)
        totalLen := b.length } := by
  have hihl := h.bounds.ihl_ge
  have htcp := h.tcp_ge
  obtain ⟨hbyte, hslice⟩ := reads_of_agree hsame
  simp only [ownPlaces] at hbyte hslice
  constructor
  · refine ⟨⟨?_, ?_, ?_, hihl, htotal.symm, by omega, le_rfl⟩, ?_, ?_, ?_, htcp, hroom, hflags⟩
    · rw [uint16At, hslice 12 2 (by omega) (by omega)]
      exact h.bounds.bare
    · rw [hbyte 0 (by omega) (by omega)]
      exact h.bounds.version
    · rw [hbyte 0 (by omega) (by omega)]
      exact h.bounds.ihl_eq
    · rw [hbyte 9 (by omega) (by omega)]
      exact h.protocol
    · rw [uint16At, hslice 6 2 (by omega) (by omega)]
      exact h.whole
    · rw [hbyte (ihl + 12) (by omega) (by omega)]
      exact h.tcp_eq
  · simp only [metaOf, uint16At]
    rw [hslice 12 4 (by omega) (by omega), hslice 16 4 (by omega) (by omega),
      hslice ihl 2 (by omega) (by omega), hslice (ihl + 2) 2 (by omega) (by omega),
      hbyte 1 (by omega) (by omega), hslice 6 2 (by omega) (by omega), hbyte 8 (by omega) (by omega),
      uint32At, uint32At, hslice (ihl + 8) 4 (by omega) (by omega),
      hslice (ihl + 14) 2 (by omega) (by omega), hslice (ihl + 18) 2 (by omega) (by omega)]
    rfl

end Agree

/-- The payload of a packet. -/
def payloadOf (packet : Bytes) (info : CoalesceMeta) : Bytes := packet.drop info.headerLen

/-! ## Appending -/

/-- `tcpGSOCoalescer`, when it is active. -/
structure Coalescer where
  info : CoalesceMeta
  packet : Bytes
  count : ℕ
  deriving DecidableEq

def startCoalescer (packet : Bytes) (info : CoalesceMeta) : Coalescer :=
  ⟨info, packet.take info.totalLen, 1⟩

def tcpGSOCoalescerCanAppend (current : Coalescer) (packet : Bytes) (info : CoalesceMeta)
    (maxBytes maxPackets : ℤ) : Bool :=
  let maxBytes := if maxBytes > 0xffff then 0xffff else maxBytes
  if (current.count : ℤ) ≥ maxPackets then false
  else if current.info.key ≠ info.key ∨ current.info.ipTOS ≠ info.ipTOS ∨
      current.info.ipFlags ≠ info.ipFlags ∨ current.info.ipTTL ≠ info.ipTTL ∨
      current.info.ihl ≠ info.ihl ∨ current.info.tcpHeaderLen ≠ info.tcpHeaderLen ∨
      current.info.headerLen ≠ info.headerLen ∨ current.info.ack ≠ info.ack ∨
      current.info.window ≠ info.window ∨ current.info.urgent ≠ info.urgent ∨
      (current.info.seq + current.info.payloadLen) % 2 ^ 32 ≠ info.seq then false
  else if packet.length < info.totalLen ∨
      (current.packet.length + info.payloadLen : ℤ) > maxBytes then false
  else if slice current.packet (current.info.ihl + 20) (current.info.tcpHeaderLen - 20) ≠
      slice packet (info.ihl + 20) (info.tcpHeaderLen - 20) then false
  else tcpGSOCoalescibleFlags current.info.flags && tcpGSOCoalescibleFlags info.flags &&
    info.payloadLen > 0

def tcpGSOCoalescedFlags (current next : UInt8) : UInt8 :=
  if next &&& tcpFlagPSH ≠ 0 then current ||| tcpFlagPSH else current

/-- The payload of a packet is appended. -/
def appendPacket (current : Coalescer) (packet : Bytes) (info : CoalesceMeta) : Coalescer where
  info :=
    { current.info with
      payloadLen := current.info.payloadLen + info.payloadLen
      totalLen := current.info.totalLen + info.payloadLen
      flags := tcpGSOCoalescedFlags current.info.flags info.flags }
  packet := current.packet ++ slice packet info.payloadOffset (info.totalLen - info.payloadOffset)
  count := current.count + 1

/-- The IPv4 header of a merged packet: its length, no fragment, its checksum. -/
def writeIPv4Header (packet : Bytes) (info : CoalesceMeta) : Bytes :=
  let packet := overwrite packet 2 (BigEndian.put 2 info.totalLen)
  let packet := overwrite packet 6 [byteAt packet 6 &&& ~~~0x20]
  let packet := overwrite packet 10 (BigEndian.put 2 0)
  overwrite packet 10 (BigEndian.put 2 (ipv4Checksum (packet.take info.ihl)))

/-- Its TCP header, without the checksum. -/
def writeTCPHeader (packet : Bytes) (info : CoalesceMeta) : Bytes :=
  let packet := overwrite packet (info.ihl + 13) [info.flags]
  overwrite packet (info.ihl + 16) (BigEndian.put 2 0)

def finishTCPGSOCoalescedPacket (packet : Bytes) (info : CoalesceMeta) (skipTCPChecksum : Bool) :
    Bytes :=
  if packet.length < info.totalLen then packet
  else
    let packet := writeTCPHeader (writeIPv4Header (packet.take info.totalLen) info) info
    if skipTCPChecksum then packet
    else
      overwrite packet (info.ihl + 16) (BigEndian.put 2
        (transportChecksum (slice packet 12 4) (slice packet 16 4) ipProtocolTCP
          (packet.drop info.ihl)))

/-! ## The packets that are gathered -/

section Gathering

variable {maxBytes maxPackets : ℤ} {current : Coalescer} {packet : Bytes} {info : CoalesceMeta}

/-- What has to agree, and what must fit. -/
structure Appends (maxBytes maxPackets : ℤ) (current : Coalescer) (packet : Bytes)
    (info : CoalesceMeta) : Prop where
  count : (current.count : ℤ) < maxPackets
  key : current.info.key = info.key
  ipv4 : current.info.ipTOS = info.ipTOS ∧ current.info.ipFlags = info.ipFlags ∧
    current.info.ipTTL = info.ipTTL ∧ current.info.ihl = info.ihl
  tcp : current.info.tcpHeaderLen = info.tcpHeaderLen ∧ current.info.headerLen = info.headerLen ∧
    current.info.ack = info.ack ∧ current.info.window = info.window
  options : slice current.packet (current.info.ihl + 20) (current.info.tcpHeaderLen - 20) =
    slice packet (info.ihl + 20) (info.tcpHeaderLen - 20)
  follows : info.seq = (current.info.seq + current.info.payloadLen) % 2 ^ 32
  room : (current.packet.length + info.payloadLen : ℤ) ≤ maxBytes
  limit : current.packet.length + info.payloadLen ≤ 65535
  flags : tcpGSOCoalescibleFlags current.info.flags = true

theorem appends_of_canAppend
    (h : tcpGSOCoalescerCanAppend current packet info maxBytes maxPackets = true) :
    Appends maxBytes maxPackets current packet info := by
  unfold tcpGSOCoalescerCanAppend at h
  by_cases hcount : (current.count : ℤ) ≥ maxPackets
  · rw [if_pos hcount] at h
    cases h
  rw [if_neg hcount] at h
  split_ifs at h with hfields hmax hfits hoptions hfits hoptions
  all_goals
    simp only [not_or, not_not] at hfields
    simp only [Bool.and_eq_true] at h
    obtain ⟨hkey, htos, hipFlags, httl, hihl, htcp, hheader, hack, hwindow, -, hseq⟩ := hfields
    exact ⟨by omega, hkey, ⟨htos, hipFlags, httl, hihl⟩, ⟨htcp, hheader, hack, hwindow⟩,
      not_not.mp hoptions, hseq.symm, by omega, by omega, h.1.1⟩

/-- The packets that a coalescer has taken, one after the other. -/
inductive Gathered (maxBytes maxPackets : ℤ) : List Bytes → Coalescer → Prop
  | start {packet : Bytes} {info : CoalesceMeta} (h : tcpGSOCoalescePacketMeta packet = some info) :
      Gathered maxBytes maxPackets [packet] (startCoalescer packet info)
  | append {members : List Bytes} {current : Coalescer} {packet : Bytes} {info : CoalesceMeta}
      (hold : Gathered maxBytes maxPackets members current)
      (h : tcpGSOCoalescePacketMeta packet = some info)
      (hcan : tcpGSOCoalescerCanAppend current packet info maxBytes maxPackets = true) :
      Gathered maxBytes maxPackets (members ++ [packet]) (appendPacket current packet info)

/-- The payloads of packets, behind each other. -/
def payloads (members : List (Bytes × CoalesceMeta)) : Bytes :=
  (members.map fun member => payloadOf member.1 member.2).flatten

/-- Each of the packets starts where the payloads before it end. -/
def Contiguous (seq : ℕ) (members : List (Bytes × CoalesceMeta)) : Prop :=
  ∀ front member back, members = front ++ member :: back →
    member.2.seq = (seq + (payloads front).length) % 2 ^ 32

/-- A packet with what is read in it. -/
def Reads (member : Bytes × CoalesceMeta) : Prop :=
  tcpGSOCoalescePacketMeta member.1 = some member.2

variable {member : Bytes × CoalesceMeta}

theorem Reads.lengths (h : Reads member) :
    member.2.totalLen = member.1.length ∧
      (payloadOf member.1 member.2).length = member.2.payloadLen ∧ 0 < member.2.payloadLen ∧
      slice member.1 member.2.payloadOffset (member.2.totalLen - member.2.payloadOffset) =
        payloadOf member.1 member.2 := by
  obtain ⟨ihl, tcpHeaderLen, hmergeable, hinfo⟩ := tcpGSOCoalescePacketMeta_eq_some.mp h
  have hpayload := hmergeable.payload
  rw [hinfo]
  refine ⟨rfl, List.length_drop, ?_, ?_⟩
  · simp only [metaOf]
    omega
  · simp only [metaOf, payloadOf, slice]
    exact List.take_of_length_le (by rw [List.length_drop])

/-- What a coalescer holds, in terms of the packets it has taken. -/
structure Holding (maxBytes maxPackets : ℤ) (first : Bytes × CoalesceMeta)
    (rest : List (Bytes × CoalesceMeta)) (current : Coalescer) : Prop where
  reads : ∀ member ∈ first :: rest, Reads member
  flow : ∀ member ∈ first :: rest, member.2.key = first.2.key
  headers : ∀ member ∈ first :: rest, member.2.headerLen = first.2.headerLen
  contiguous : Contiguous first.2.seq (first :: rest)
  packet : current.packet = first.1 ++ payloads rest
  info : current.info = { first.2 with
    payloadLen := (payloads (first :: rest)).length
    totalLen := current.packet.length
    flags := current.info.flags }
  count : current.count = (first :: rest).length
  flags : tcpGSOCoalescibleFlags current.info.flags = true
  push : current.info.flags &&& tcpFlagPSH ≠ 0 ↔
    ∃ member ∈ first :: rest, member.2.flags &&& tcpFlagPSH ≠ 0
  limits : rest ≠ [] → (current.packet.length : ℤ) ≤ maxBytes ∧ current.packet.length ≤ 65535 ∧
    (current.count : ℤ) ≤ maxPackets

theorem payloads_cons (member : Bytes × CoalesceMeta) (members : List (Bytes × CoalesceMeta)) :
    payloads (member :: members) = payloadOf member.1 member.2 ++ payloads members := rfl

theorem payloads_append (front back : List (Bytes × CoalesceMeta)) :
    payloads (front ++ back) = payloads front ++ payloads back := by
  simp [payloads]

@[simp]
theorem payloads_singleton (member : Bytes × CoalesceMeta) :
    payloads [member] = payloadOf member.1 member.2 := List.append_nil _

theorem contiguous_singleton (h : Reads member) : Contiguous member.2.seq [member] := by
  intro front other back hsplit
  obtain ⟨ihl, tcpHeaderLen, -, hinfo⟩ := tcpGSOCoalescePacketMeta_eq_some.mp h
  have hlt : member.2.seq < 2 ^ 32 := by
    rw [hinfo]
    exact uint32At_lt _ _
  cases front with
  | nil =>
    cases hsplit
    exact (Nat.mod_eq_of_lt hlt).symm
  | cons _ front =>
    have := congrArg List.length hsplit
    simp at this

theorem Contiguous.concat {seq : ℕ} {members : List (Bytes × CoalesceMeta)}
    (h : Contiguous seq members)
    (hnext : member.2.seq = (seq + (payloads members).length) % 2 ^ 32) :
    Contiguous seq (members ++ [member]) := by
  intro front other back hsplit
  rcases List.eq_nil_or_concat back with rfl | ⟨init, last, rfl⟩
  · obtain ⟨rfl, hmember⟩ := List.append_inj' hsplit rfl
    cases hmember
    exact hnext
  · rw [List.concat_eq_append, ← List.cons_append, ← List.append_assoc] at hsplit
    obtain ⟨rfl, -⟩ := List.append_inj' hsplit rfl
    exact h front other init rfl

/-- Flags that can be merged stay so, and PSH is set if one of them has it. -/
theorem coalescedFlags_spec : ∀ current next : UInt8, tcpGSOCoalescibleFlags current = true →
    tcpGSOCoalescibleFlags (tcpGSOCoalescedFlags current next) = true ∧
      (tcpGSOCoalescedFlags current next &&& tcpFlagPSH ≠ 0 ↔
        current &&& tcpFlagPSH ≠ 0 ∨ next &&& tcpFlagPSH ≠ 0) := by
  intro current next hcurrent
  have htwo : ∀ flags : UInt8, tcpGSOCoalescibleFlags flags = true →
      flags = 0x10 ∨ flags = 0x18 := by decide +kernel
  unfold tcpGSOCoalescedFlags
  split_ifs with hpush
  · refine ⟨?_, iff_of_true ?_ (.inr hpush)⟩
    · rcases htwo current hcurrent with rfl | rfl <;> decide
    · rcases htwo current hcurrent with rfl | rfl <;> decide
  · exact ⟨hcurrent, .inl, fun h => h.resolve_right hpush⟩

/-- **What a coalescer holds.** -/
theorem Gathered.spec {members : List Bytes} (h : Gathered maxBytes maxPackets members current) :
    ∃ first rest, members = (first :: rest).map Prod.fst ∧
      Holding maxBytes maxPackets first rest current := by
  induction h with
  | @start packet info hread =>
    have hreads : Reads (packet, info) := hread
    obtain ⟨htotal, hpayload, -, -⟩ := hreads.lengths
    obtain ⟨ihl, tcpHeaderLen, hmergeable, hinfo⟩ := tcpGSOCoalescePacketMeta_eq_some.mp hread
    have htake : packet.take info.totalLen = packet := List.take_of_length_le htotal.ge
    refine ⟨(packet, info), [], rfl, List.forall_mem_singleton.mpr hreads,
      List.forall_mem_singleton.mpr rfl, List.forall_mem_singleton.mpr rfl,
      contiguous_singleton hreads, ?_, ?_, rfl, ?_, ?_, fun hne => absurd rfl hne⟩
    · simp [startCoalescer, htake, payloads]
    · simp [startCoalescer, htake, payloads_singleton, hpayload, ← htotal]
    · rw [startCoalescer, hinfo]
      exact hmergeable.flags
    · simp [startCoalescer]
  | @append members current packet info hold hread hcan ih =>
    obtain ⟨first, rest, rfl, hholding⟩ := ih
    have happends := appends_of_canAppend hcan
    have hreads : Reads (packet, info) := hread
    obtain ⟨htotal, hpayload, hpos, hslice⟩ := hreads.lengths
    have hnew : current.info.key = first.2.key ∧ current.info.headerLen = first.2.headerLen ∧
        current.info.seq = first.2.seq ∧
        current.info.payloadLen = (payloads (first :: rest)).length := by
      rw [hholding.info]
      exact ⟨rfl, rfl, rfl, rfl⟩
    have hpacket : (appendPacket current packet info).packet =
        first.1 ++ payloads (rest ++ [(packet, info)]) := by
      simp only [appendPacket, payloads_append, hholding.packet, List.append_assoc, payloads_singleton]
      rw [← hslice]
    have hlength : (appendPacket current packet info).packet.length =
        current.packet.length + info.payloadLen := by
      rw [hpacket, payloads_append, ← List.append_assoc, ← hholding.packet, List.length_append,
        payloads_singleton, hpayload]
    have hall : ∀ P : Bytes × CoalesceMeta → Prop, (∀ member ∈ first :: rest, P member) →
        P (packet, info) → ∀ member ∈ first :: (rest ++ [(packet, info)]), P member := by
      intro P hP hlast
      exact List.forall_mem_append.mpr ⟨hP, List.forall_mem_singleton.mpr hlast⟩
    obtain ⟨hflags, hpush⟩ := coalescedFlags_spec current.info.flags info.flags hholding.flags
    refine ⟨first, rest ++ [(packet, info)], by simp, hall _ hholding.reads hreads,
      hall _ hholding.flow (happends.key.symm.trans hnew.1),
      hall _ hholding.headers (happends.tcp.2.1.symm.trans hnew.2.1), ?_, hpacket, ?_, ?_, hflags,
      ?_, fun _ => ?_⟩
    · apply hholding.contiguous.concat
      rw [happends.follows, hnew.2.2.1, hnew.2.2.2]
    · have hsum : (payloads (first :: (rest ++ [(packet, info)]))).length =
          (payloads (first :: rest)).length + info.payloadLen := by
        rw [← List.cons_append, payloads_append, List.length_append, payloads_singleton, hpayload]
      have htotal' : current.info.totalLen = current.packet.length := by
        rw [hholding.info]
      rw [hlength, hsum]
      simp only [appendPacket, htotal', hnew.2.2.2]
      rw [hholding.info]
    · simp [appendPacket, hholding.count]
    · rw [show (appendPacket current packet info).info.flags =
        tcpGSOCoalescedFlags current.info.flags info.flags from rfl, hpush, hholding.push,
        ← List.cons_append]
      simp only [List.mem_append, List.mem_singleton, or_and_right, exists_or, exists_eq_left]
    · have hcount := happends.count
      have hroom := happends.room
      have hlimit := happends.limit
      rw [hlength]
      simp only [appendPacket]
      omega

end Gathering

/-! ## The merged packet -/

section Finish

variable {packet : Bytes} {info : CoalesceMeta}

/-- The places that are written in the IPv4 header, and in the TCP header. -/
def ipv4Places (i : ℕ) : Prop := 2 ≤ i ∧ i < 4 ∨ i = 6 ∨ 10 ≤ i ∧ i < 12

def tcpPlaces (ihl i : ℕ) : Prop := i = ihl + 13 ∨ ihl + 16 ≤ i ∧ i < ihl + 18

theorem writeIPv4Header_spec (hihl : 20 ≤ info.ihl) (h : info.ihl ≤ packet.length)
    (hbound : packet.length ≤ 65535) :
    Off ipv4Places packet (writeIPv4Header packet info) ∧
      slice (writeIPv4Header packet info) 2 2 = BigEndian.put 2 info.totalLen ∧
      byteAt (writeIPv4Header packet info) 6 = byteAt packet 6 &&& ~~~0x20 ∧
      ValidIpv4Checksum (writeIPv4Header packet info) info.ihl := by
  unfold writeIPv4Header
  simp only
  have hone := @off_put packet 2 info.totalLen (by omega)
  have htotal := @slice_put packet 2 info.totalLen (by omega)
  generalize overwrite packet 2 (BigEndian.put 2 info.totalLen) = one at *
  have htwo := @off_byte one 6 (byteAt one 6 &&& ~~~0x20) (by rw [hone.1]; omega)
  have hbyte := @byteAt_byte one 6 (byteAt one 6 &&& ~~~0x20) (by rw [hone.1]; omega)
  generalize overwrite one 6 [byteAt one 6 &&& ~~~0x20] = two at *
  have hlen : two.length = packet.length := htwo.1.trans hone.1
  have hthree := @off_put two 10 0 (by omega)
  have hzero := @slice_put two 10 0 (by omega)
  generalize overwrite two 10 (BigEndian.put 2 0) = three at *
  have hlen₃ : three.length = packet.length := hthree.1.trans hlen
  have hfour := @off_put three 10 (ipv4Checksum (three.take info.ihl)) (by omega)
  refine ⟨?_, ?_, ?_, ?_⟩
  · apply (((hone.trans htwo).trans hthree).trans hfour).mono
    intro i hi
    unfold ipv4Places
    omega
  · rw [hfour.slice (by omega), hthree.slice (by omega), htwo.slice (by omega), htotal]
  · rw [byteAt_off hfour (by omega), byteAt_off hthree (by omega), hbyte,
      byteAt_off hone (by omega)]
  · exact valid_ipv4Checksum hihl (by omega) (by omega) hzero

theorem writeTCPHeader_spec (h : info.ihl + 20 ≤ packet.length) :
    Off (tcpPlaces info.ihl) packet (writeTCPHeader packet info) ∧
      byteAt (writeTCPHeader packet info) (info.ihl + 13) = info.flags ∧
      slice (writeTCPHeader packet info) (info.ihl + 16) 2 = BigEndian.put 2 0 := by
  unfold writeTCPHeader
  have hone := @off_byte packet (info.ihl + 13) info.flags (by omega)
  have hflags := @byteAt_byte packet (info.ihl + 13) info.flags (by omega)
  generalize overwrite packet (info.ihl + 13) [info.flags] = one at *
  have hlen := hone.1
  have htwo := @off_put one (info.ihl + 16) 0 (by omega)
  refine ⟨?_, ?_, slice_put (by omega)⟩
  · apply (hone.trans htwo).mono
    intro i hi
    unfold tcpPlaces
    omega
  · rw [byteAt_off htwo (by omega), hflags]

/-- **The headers of a merged packet.**  Only the length, the fragment bit, the flags and the
checksums are written, and the checksums are right. -/
theorem finish_spec (hlen : packet.length = info.totalLen) (hihl : 20 ≤ info.ihl)
    (h : info.ihl + 20 ≤ packet.length) (hbound : packet.length ≤ 65535) (skip : Bool) :
    Off (fun i => ipv4Places i ∨ tcpPlaces info.ihl i) packet
        (finishTCPGSOCoalescedPacket packet info skip) ∧
      slice (finishTCPGSOCoalescedPacket packet info skip) 2 2 = BigEndian.put 2 info.totalLen ∧
      byteAt (finishTCPGSOCoalescedPacket packet info skip) 6 = byteAt packet 6 &&& ~~~0x20 ∧
      byteAt (finishTCPGSOCoalescedPacket packet info skip) (info.ihl + 13) = info.flags ∧
      ValidIpv4Checksum (finishTCPGSOCoalescedPacket packet info skip) info.ihl ∧
      (skip = false → ValidTCPChecksum (finishTCPGSOCoalescedPacket packet info skip) info.ihl) := by
  obtain ⟨hip, htotal, hbyte, hchecksum⟩ := writeIPv4Header_spec hihl (by omega) hbound
  have hiplen := hip.1
  obtain ⟨htcp, hflags, hzero⟩ := @writeTCPHeader_spec (writeIPv4Header packet info) info (by omega)
  unfold finishTCPGSOCoalescedPacket
  rw [if_neg (by omega), List.take_of_length_le hlen.le]
  generalize writeIPv4Header packet info = one at *
  generalize writeTCPHeader one info = two at *
  have htcplen := htcp.1
  -- the last write, if there is one, stays in the TCP header
  have hlast : ∀ final, Off (fun i => info.ihl + 16 ≤ i ∧ i < info.ihl + 18) two final →
      Off (fun i => ipv4Places i ∨ tcpPlaces info.ihl i) packet final ∧
        slice final 2 2 = BigEndian.put 2 info.totalLen ∧
        byteAt final 6 = byteAt packet 6 &&& ~~~0x20 ∧
        byteAt final (info.ihl + 13) = info.flags ∧ ValidIpv4Checksum final info.ihl := by
    intro final hoff
    have htail : Off (tcpPlaces info.ihl) one final := by
      apply (htcp.trans hoff).mono
      intro i hi
      unfold tcpPlaces at *
      omega
    have hbefore : ∀ i < info.ihl, ¬tcpPlaces info.ihl i := by
      intro i hi
      unfold tcpPlaces
      omega
    refine ⟨hip.trans htail, ?_, ?_, ?_, ?_⟩
    · rw [htail.slice fun i _ _ => hbefore i (by omega), htotal]
    · rw [byteAt_off htail (hbefore 6 (by omega)), hbyte]
    · rw [byteAt_off hoff (by omega), hflags]
    · unfold ValidIpv4Checksum at hchecksum ⊢
      rwa [htail.take hbefore]
  cases skip with
  | true =>
    obtain ⟨h₁, h₂, h₃, h₄, h₅⟩ := hlast two ⟨rfl, fun _ _ => rfl⟩
    exact ⟨h₁, h₂, h₃, h₄, h₅, fun hfalse => absurd hfalse (by decide)⟩
  | false =>
    obtain ⟨h₁, h₂, h₃, h₄, h₅⟩ := hlast _ (@off_put two (info.ihl + 16)
      (transportChecksum (slice two 12 4) (slice two 16 4) ipProtocolTCP (two.drop info.ihl))
      (by omega))
    exact ⟨h₁, h₂, h₃, h₄, h₅, fun _ => valid_transportChecksum hihl (by omega) (by omega)
      hzero⟩

theorem slice_two {i : ℕ} (h : i + 2 ≤ packet.length) :
    slice packet i 2 = [byteAt packet i, byteAt packet (i + 1)] := by
  have hlen := length_slice h
  obtain ⟨first, second, hslice⟩ := List.length_eq_two.mp hlen
  have hget : ∀ k < 2, (slice packet i 2)[k]? = packet[i + k]? := by
    intro k hk
    rw [getElem?_slice, if_pos hk]
  have h₀ := hget 0 (by decide)
  have h₁ := hget 1 (by decide)
  rw [hslice] at h₀ h₁ ⊢
  rw [Nat.add_zero] at h₀
  simp only [byteAt, List.getD_eq_getElem?_getD, ← h₀, ← h₁]
  rfl

/-- In a packet that is no fragment, clearing the bit for more fragments does nothing. -/
theorem clear_fragment {i : ℕ} (h : i + 2 ≤ packet.length)
    (hwhole : uint16At packet i &&& (ipv4MoreFragments ||| ipv4FragmentOffsetMask) = 0) :
    byteAt packet i &&& ~~~0x20 = byteAt packet i := by
  have hbyte : ∀ b : UInt8, b.toNat % 64 = 0 → b &&& ~~~0x20 = b := by decide +kernel
  apply hbyte
  have hmask : ipv4MoreFragments ||| ipv4FragmentOffsetMask = 2 ^ 14 - 1 := by decide
  rw [hmask, Nat.and_two_pow_sub_one_eq_mod, uint16At, slice_two h] at hwhole
  have hlow := (byteAt packet (i + 1)).toNat_lt
  simp only [BigEndian.get, List.foldl_cons, List.foldl_nil] at hwhole
  omega

/-- In a packet that is no fragment, the bit for more fragments is left too. -/
theorem finish_off (hlen : packet.length = info.totalLen) (hihl : 20 ≤ info.ihl)
    (h : info.ihl + 20 ≤ packet.length) (hbound : packet.length ≤ 65535)
    (hwhole : uint16At packet 6 &&& (ipv4MoreFragments ||| ipv4FragmentOffsetMask) = 0) (skip : Bool) :
    Off (fun i => 2 ≤ i ∧ i < 4 ∨ 10 ≤ i ∧ i < 12 ∨ tcpPlaces info.ihl i) packet
      (finishTCPGSOCoalescedPacket packet info skip) := by
  obtain ⟨hoff, -, hsix, -⟩ := finish_spec hlen hihl h hbound skip
  have hout := hoff.1
  rw [clear_fragment (by omega) hwhole] at hsix
  refine ⟨hout, fun i hi => ?_⟩
  by_cases hsixth : i = 6
  · -- byte 6 is written, but with what was there
    rw [hsixth]
    exact getElem?_of_byteAt_eq hsix (by omega) (by omega)
  · apply hoff.2
    rintro ((hplace | hplace | hplace) | hplace)
    · exact hi (.inl hplace)
    · exact hsixth hplace
    · exact hi (.inr (.inl hplace))
    · exact hi (.inr (.inr hplace))

end Finish

/-- A packet merged from some packets of one flow: the header of the first one, and the
payloads of all of them, which follow each other. -/
structure Merged (maxBytes maxPackets : ℤ) (skip : ℕ → Bool) (first : Bytes × CoalesceMeta)
    (rest : List (Bytes × CoalesceMeta)) (out : Bytes) (info : CoalesceMeta) : Prop where
  reads : ∀ member ∈ first :: rest, Reads member
  several : rest ≠ []
  flow : ∀ member ∈ first :: rest, member.2.key = first.2.key
  contiguous : Contiguous first.2.seq (first :: rest)
  parsed : tcpGSOCoalescePacketMeta out = some info
  header : info = { first.2 with
    payloadLen := (payloads (first :: rest)).length
    totalLen := out.length
    flags := info.flags }
  payload : payloadOf out info = payloads (first :: rest)
  push : info.flags &&& tcpFlagPSH ≠ 0 ↔ ∃ member ∈ first :: rest, member.2.flags &&& tcpFlagPSH ≠ 0
  ipv4Checksum : ValidIpv4Checksum out info.ihl
  tcpChecksum : skip out.length = false → ValidTCPChecksum out info.ihl
  length_le : out.length ≤ 65535 ∧ (out.length : ℤ) ≤ maxBytes
  count_le : ((first :: rest).length : ℤ) ≤ maxPackets

/-- The headers of what several packets become are those of the first one, but for what is
written. -/
theorem Holding.off_finish {maxBytes maxPackets : ℤ} {first : Bytes × CoalesceMeta}
    {rest : List (Bytes × CoalesceMeta)} {current : Coalescer}
    (h : Holding maxBytes maxPackets first rest current) (hrest : rest ≠ []) (skip : Bool) :
    Off (fun i => 2 ≤ i ∧ i < 4 ∨ 10 ≤ i ∧ i < 12 ∨ tcpPlaces first.2.ihl i) current.packet
      (finishTCPGSOCoalescedPacket current.packet current.info skip) := by
  obtain ⟨-, hlimit, -⟩ := h.limits hrest
  obtain ⟨ihl, tcpHeaderLen, hmergeable, hinfo⟩ :=
    tcpGSOCoalescePacketMeta_eq_some.mp (h.reads first List.mem_cons_self)
  have hihl := hmergeable.bounds.ihl_ge
  have htcp := hmergeable.tcp_ge
  have hroom := hmergeable.payload
  have hfields : current.info.ihl = first.2.ihl ∧ first.2.ihl = ihl ∧
      current.info.totalLen = current.packet.length := by
    rw [h.info, hinfo]
    exact ⟨rfl, rfl, rfl⟩
  have hlong : first.1.length ≤ current.packet.length := by
    rw [h.packet, List.length_append]
    omega
  rw [← hfields.1]
  apply finish_off hfields.2.2.symm (by omega) (by omega) hlimit
  rw [uint16At, h.packet, slice_append_left (by omega)]
  exact hmergeable.whole

/-- **The packet that a coalescer gives** for several packets. -/
theorem merged_of_holding {maxBytes maxPackets : ℤ} {skip : ℕ → Bool}
    {first : Bytes × CoalesceMeta} {rest : List (Bytes × CoalesceMeta)} {current : Coalescer}
    (h : Holding maxBytes maxPackets first rest current) (hrest : rest ≠ []) :
    ∃ info, Merged maxBytes maxPackets skip first rest
      (finishTCPGSOCoalescedPacket current.packet current.info (skip current.info.totalLen)) info := by
  obtain ⟨hmax, hlimit, hcount⟩ := h.limits hrest
  obtain ⟨ihl, tcpHeaderLen, hmergeable, hinfo⟩ :=
    tcpGSOCoalescePacketMeta_eq_some.mp (h.reads first List.mem_cons_self)
  have hbounds := hmergeable.bounds
  have hihl := hbounds.ihl_ge
  have htcp := hmergeable.tcp_ge
  have hroom := hmergeable.payload
  have hfields : current.info.ihl = ihl ∧ current.info.totalLen = current.packet.length ∧
      first.2.ihl = ihl := by
    rw [h.info, hinfo]
    exact ⟨rfl, rfl, rfl⟩
  have hlong : first.1.length ≤ current.packet.length := by
    rw [h.packet, List.length_append]
    omega
  have hagree := h.off_finish hrest (skip current.info.totalLen)
  obtain ⟨-, htotal, -, hflags, hipsum, htcpsum⟩ := @finish_spec current.packet current.info
    hfields.2.1.symm (by omega) (by omega) hlimit (skip current.info.totalLen)
  generalize finishTCPGSOCoalescedPacket current.packet current.info
    (skip current.info.totalLen) = out at *
  rw [hfields.2.2] at hagree
  rw [hfields.1] at hflags hipsum htcpsum
  rw [hfields.2.1] at htotal htcpsum
  have hlen := hagree.1
  have hlength : uint16At out 2 = out.length := by
    rw [uint16At, htotal, BigEndian.get_put_of_lt (by omega), hlen]
  have hsame : ∀ i < first.1.length, ¬(2 ≤ i ∧ i < 4 ∨ 10 ≤ i ∧ i < 12 ∨ tcpPlaces ihl i) →
      out[i]? = first.1[i]? := by
    intro i hi hnot
    rw [hagree.2 i hnot, h.packet, List.getElem?_append_left hi]
  have hseq : uint32At out (ihl + 4) = uint32At first.1 (ihl + 4) :=
    congrArg BigEndian.get (slice_congr fun i hge hlt =>
      hsame i (by omega) (by unfold tcpPlaces; omega))
  obtain ⟨hmerged, hread⟩ := hmergeable.agree (fun i hi hnot => hsame i (by omega) (by
    unfold ownPlaces at hnot
    unfold tcpPlaces
    omega)) hlength (by omega) (hflags ▸ h.flags)
  have hheader : (metaOf first.1 ihl tcpHeaderLen first.1.length).headerLen = ihl + tcpHeaderLen := rfl
  have hpayloads : out.drop (ihl + tcpHeaderLen) = payloads (first :: rest) := by
    rw [hagree.drop (by unfold tcpPlaces; omega), h.packet, List.drop_append_of_le_length (by omega),
      payloads_cons, payloadOf, hinfo, hheader]
  have hmeta : metaOf out ihl tcpHeaderLen out.length =
      { first.2 with
        payloadLen := (payloads (first :: rest)).length
        totalLen := out.length
        flags := current.info.flags } := by
    rw [hread, hinfo, hseq, hflags, ← hpayloads, List.length_drop]
    rfl
  refine ⟨metaOf out ihl tcpHeaderLen out.length, h.reads, hrest, h.flow, h.contiguous,
    tcpGSOCoalescePacketMeta_eq_some.mpr ⟨ihl, tcpHeaderLen, hmerged, rfl⟩, ?_, hpayloads, ?_, hipsum,
    ?_, ⟨by omega, by omega⟩, ?_⟩
  · rw [hmeta]
  · rw [hmeta]
    exact h.push
  · rw [hlen]
    exact htcpsum
  · rw [← h.count]
    exact hcount

end Datapath
