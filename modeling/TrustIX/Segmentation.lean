/-
# Segmenting TCP packets

A TCP packet that is larger than a datagram may be is cut into packets that are not
(`segmentDataSessionIPv4TCPPacket` in `internal/daemon/datapath.go`).  Each has a copy of its
headers with its own length, identification, sequence number, flags and checksums.

* `isSegment_segmentAt` : one segment;
* `segmentsOf_segmentLoop` : the segments of a packet;
* `segment_spec` : they fit, and carry the payload in its order.
-/
import TrustIX.Ipv4Packet

namespace Datapath

open ByteEdit Fallible

/-- `dataSessionIPv4TCPSegmentationMeta`. -/
structure SegmentationMeta where
  ipOffset : ℕ
  ihl : ℕ
  totalLen : ℕ
  tcpOffset : ℕ
  tcpHeaderLen : ℕ
  payloadOffset : ℕ
  maxPayload : ℕ

/-- What every refusal begins with. -/
def cannotSegment (packet : Bytes) (mtu : ℕ) (reason : String) : String :=
  "packet size " ++ toString packet.length ++ " exceeds datagram max " ++ toString mtu ++
    " and cannot be segmented: " ++ reason

def dataSessionIPv4TCPSegmentationMetaForPacket (packet : Bytes) (mtu : ℕ) :
    Except String SegmentationMeta := do
  rejectIf (mtu ≤ 20 + 20) (cannotSegment packet mtu "datagram max cannot carry IPv4/TCP headers")
  let (ipOffset, ihl, totalLen) ← (ipv4HeaderBounds packet).mapError (cannotSegment packet mtu)
  rejectIf (ipOffset ≠ 0)
    (cannotSegment packet mtu "Ethernet-framed packets are not valid data session payloads")
  rejectIf (totalLen ≠ packet.length)
    (cannotSegment packet mtu ("IPv4 total length " ++ toString totalLen ++
      " differs from packet length " ++ toString packet.length))
  rejectIf (byteAt packet 9 ≠ ipProtocolTCP)
    (cannotSegment packet mtu ("protocol " ++ toString (byteAt packet 9) ++ " is not TCP"))
  rejectIf (uint16At packet 6 &&& (ipv4MoreFragments ||| ipv4FragmentOffsetMask) ≠ 0)
    (cannotSegment packet mtu "packet is already fragmented")
  let tcpOffset := ipOffset + ihl
  rejectIf (packet.length < tcpOffset + 20)
    (cannotSegment packet mtu "packet is too short for TCP")
  let tcpHeaderLen := (byteAt packet (tcpOffset + 12) >>> 4).toNat * 4
  rejectIf (tcpHeaderLen < 20 ∨ packet.length < tcpOffset + tcpHeaderLen)
    (cannotSegment packet mtu ("invalid TCP header length " ++ toString tcpHeaderLen))
  let tcpFlags := byteAt packet (tcpOffset + 13)
  rejectIf (tcpFlags &&& (tcpFlagSYN ||| tcpFlagRST) ≠ 0)
    (cannotSegment packet mtu ("unsupported TCP flags 0x" ++
      String.ofList (Nat.toDigits 16 tcpFlags.toNat)))
  let payloadOffset := tcpOffset + tcpHeaderLen
  rejectIf (payloadOffset ≥ packet.length)
    (cannotSegment packet mtu "TCP packet has no payload to segment")
  rejectIf (mtu ≤ ihl + tcpHeaderLen)
    (cannotSegment packet mtu ("datagram max cannot carry IPv4/TCP headers of " ++
      toString (ihl + tcpHeaderLen) ++ " bytes"))
  .ok ⟨ipOffset, ihl, totalLen, tcpOffset, tcpHeaderLen, payloadOffset, mtu - ihl - tcpHeaderLen⟩

/-- The IPv4 header of a segment. -/
def writeSegmentIPv4 (segment : Bytes) (ihl identification : ℕ) : Bytes :=
  let segment := overwrite segment 2 (BigEndian.put 2 segment.length)
  let segment := overwrite segment 4 (BigEndian.put 2 identification)
  let segment := overwrite segment 10 (BigEndian.put 2 0)
  overwrite segment 10 (BigEndian.put 2 (ipv4Checksum (segment.take ihl)))

/-- Its TCP header; FIN and PSH stay only on the last one. -/
def writeSegmentTCP (segment : Bytes) (ihl seq : ℕ) (last : Bool) : Bytes :=
  let segment := overwrite segment (ihl + 4) (BigEndian.put 4 seq)
  let segment := if last then segment
    else overwrite segment (ihl + 13) [byteAt segment (ihl + 13) &&& ~~~(tcpFlagFIN ||| tcpFlagPSH)]
  let segment := overwrite segment (ihl + 16) (BigEndian.put 2 0)
  overwrite segment (ihl + 16) (BigEndian.put 2
    (transportChecksum (slice segment 12 4) (slice segment 16 4) ipProtocolTCP (segment.drop ihl)))

/-- The segment with the payload from an offset on. -/
def segmentAt (packet : Bytes) (info : SegmentationMeta) (payload : Bytes) (offset index : ℕ) :
    Bytes :=
  let chunkLen := min info.maxPayload (payload.length - offset)
  let segment := slice packet info.ipOffset info.ihl ++ slice packet info.tcpOffset info.tcpHeaderLen ++
    slice payload offset chunkLen
  writeSegmentTCP (writeSegmentIPv4 segment info.ihl (uint16At packet (info.ipOffset + 4) + index))
    info.ihl (uint32At packet (info.tcpOffset + 4) + offset)
    (!(offset + chunkLen < payload.length : Bool))

/-- The loop over the payload, for at most so many segments. -/
def segmentLoop (packet : Bytes) (info : SegmentationMeta) (payload : Bytes) :
    ℕ → ℕ → ℕ → List Bytes
  | 0, _, _ => []
  | room + 1, offset, index =>
    if offset < payload.length then
      segmentAt packet info payload offset index ::
        segmentLoop packet info payload room (offset + info.maxPayload) (index + 1)
    else []

def segmentDataSessionIPv4TCPPacket (packet : Bytes) (mtu : ℕ) : Except String (List Bytes) :=
  if packet.length ≤ mtu then .ok [packet]
  else do
    let info ← dataSessionIPv4TCPSegmentationMetaForPacket packet mtu
    let payload := slice packet info.payloadOffset (info.totalLen - info.payloadOffset)
    .ok (segmentLoop packet info payload payload.length 0 0)

/-! ## Headers that are written -/

section Writes

variable {segment : Bytes} {ihl : ℕ}

def segmentIPv4Places (i : ℕ) : Prop := 2 ≤ i ∧ i < 6 ∨ 10 ≤ i ∧ i < 12

def segmentTCPPlaces (ihl i : ℕ) : Prop :=
  ihl + 4 ≤ i ∧ i < ihl + 8 ∨ i = ihl + 13 ∨ ihl + 16 ≤ i ∧ i < ihl + 18

theorem writeSegmentIPv4_spec {identification : ℕ} (hihl : 20 ≤ ihl) (h : ihl ≤ segment.length)
    (hbound : segment.length ≤ 65535) :
    Off segmentIPv4Places segment (writeSegmentIPv4 segment ihl identification) ∧
      slice (writeSegmentIPv4 segment ihl identification) 2 2 = BigEndian.put 2 segment.length ∧
      slice (writeSegmentIPv4 segment ihl identification) 4 2 = BigEndian.put 2 identification ∧
      ValidIpv4Checksum (writeSegmentIPv4 segment ihl identification) ihl := by
  unfold writeSegmentIPv4
  simp only
  have hone := @off_put segment 2 segment.length (by omega)
  have htotal := @slice_put segment 2 segment.length (by omega)
  generalize overwrite segment 2 (BigEndian.put 2 segment.length) = one at *
  have htwo := @off_put one 4 identification (by rw [hone.1]; omega)
  have hid := @slice_put one 4 identification (by rw [hone.1]; omega)
  generalize overwrite one 4 (BigEndian.put 2 identification) = two at *
  have hlen : two.length = segment.length := htwo.1.trans hone.1
  have hthree := @off_put two 10 0 (by omega)
  have hzero := @slice_put two 10 0 (by omega)
  generalize overwrite two 10 (BigEndian.put 2 0) = three at *
  have hlen₃ : three.length = segment.length := hthree.1.trans hlen
  have hfour := @off_put three 10 (ipv4Checksum (three.take ihl)) (by omega)
  refine ⟨?_, ?_, ?_, ?_⟩
  · apply (((hone.trans htwo).trans hthree).trans hfour).mono
    intro i hi
    unfold segmentIPv4Places
    omega
  · rw [hfour.slice (by omega), hthree.slice (by omega), htwo.slice (by omega), htotal]
  · rw [hfour.slice (by omega), hthree.slice (by omega), hid]
  · exact valid_ipv4Checksum hihl (by omega) (by omega) hzero

/-- The flags of a segment. -/
def segmentFlags (flags : UInt8) (last : Bool) : UInt8 :=
  if last then flags else flags &&& ~~~(tcpFlagFIN ||| tcpFlagPSH)

/-- The flags are written, or left. -/
theorem segmentFlags_spec (last : Bool) (h : ihl + 13 < segment.length) :
    let flagged := if last then segment
      else overwrite segment (ihl + 13) [byteAt segment (ihl + 13) &&& ~~~(tcpFlagFIN ||| tcpFlagPSH)]
    Off (fun i => i = ihl + 13) segment flagged ∧
      byteAt flagged (ihl + 13) = segmentFlags (byteAt segment (ihl + 13)) last := by
  cases last with
  | true => exact ⟨⟨rfl, fun _ _ => rfl⟩, rfl⟩
  | false => exact ⟨off_byte h, byteAt_byte h⟩

theorem writeSegmentTCP_spec {seq : ℕ} {last : Bool} (hihl : 20 ≤ ihl)
    (h : ihl + 20 ≤ segment.length) (hbound : segment.length ≤ 65535) :
    Off (segmentTCPPlaces ihl) segment (writeSegmentTCP segment ihl seq last) ∧
      slice (writeSegmentTCP segment ihl seq last) (ihl + 4) 4 = BigEndian.put 4 seq ∧
      byteAt (writeSegmentTCP segment ihl seq last) (ihl + 13) =
        segmentFlags (byteAt segment (ihl + 13)) last ∧
      ValidTCPChecksum (writeSegmentTCP segment ihl seq last) ihl := by
  unfold writeSegmentTCP
  simp only
  have hone := @off_overwrite _ segment (BigEndian.put 4 seq) (ihl + 4)
    (by rw [BigEndian.length_put]; omega)
  have hseq := @slice_overwrite _ segment (BigEndian.put 4 seq) (ihl + 4)
    (by rw [BigEndian.length_put]; omega)
  rw [BigEndian.length_put] at hone hseq
  generalize overwrite segment (ihl + 4) (BigEndian.put 4 seq) = one at *
  have hlen₁ := hone.1
  obtain ⟨htwo, hflags⟩ := @segmentFlags_spec one ihl last (by omega)
  generalize (if last = true then one else overwrite one (ihl + 13)
    [byteAt one (ihl + 13) &&& ~~~(tcpFlagFIN ||| tcpFlagPSH)]) = two at *
  have hlen₂ : two.length = segment.length := htwo.1.trans hlen₁
  have hthree := @off_put two (ihl + 16) 0 (by omega)
  have hzero := @slice_put two (ihl + 16) 0 (by omega)
  generalize overwrite two (ihl + 16) (BigEndian.put 2 0) = three at *
  have hlen₃ : three.length = segment.length := hthree.1.trans hlen₂
  have hfour := @off_put three (ihl + 16) (transportChecksum (slice three 12 4) (slice three 16 4)
    ipProtocolTCP (three.drop ihl)) (by omega)
  refine ⟨?_, ?_, ?_, valid_transportChecksum hihl (by omega) (by omega) hzero⟩
  · apply (((hone.trans htwo).trans hthree).trans hfour).mono
    intro i hi
    unfold segmentTCPPlaces
    omega
  · rw [hfour.slice (by omega), hthree.slice (by omega), htwo.slice (by omega), hseq]
  · rw [byteAt_off hfour (by omega), byteAt_off hthree (by omega), hflags, byteAt_off hone (by omega)]

end Writes

/-! ## One segment -/

/-- A packet that can be segmented, with the lengths of its headers. -/
structure Segmentable (packet : Bytes) (mtu : ℕ) (info : SegmentationMeta) : Prop where
  ipOffset : info.ipOffset = 0
  tcpOffset : info.tcpOffset = info.ihl
  totalLen : info.totalLen = packet.length
  bounds : Bounds packet info.ihl packet.length
  protocol : byteAt packet 9 = ipProtocolTCP
  whole : uint16At packet 6 &&& (ipv4MoreFragments ||| ipv4FragmentOffsetMask) = 0
  tcp_eq : info.tcpHeaderLen = (byteAt packet (info.ihl + 12) >>> 4).toNat * 4
  tcp_ge : 20 ≤ info.tcpHeaderLen
  offset : info.payloadOffset = info.ihl + info.tcpHeaderLen
  room : info.payloadOffset < packet.length
  limit : info.payloadOffset + info.maxPayload = mtu
  maxPayload_pos : 0 < info.maxPayload

theorem segmentable_of_meta {packet : Bytes} {mtu : ℕ} {info : SegmentationMeta}
    (h : dataSessionIPv4TCPSegmentationMetaForPacket packet mtu = .ok info) :
    Segmentable packet mtu info := by
  obtain ⟨-, h⟩ := seq_eq_ok.mp h
  obtain ⟨⟨ipOffset, ihl, totalLen⟩, hbounds, h⟩ := bind_eq_ok.mp h
  obtain ⟨hip, h⟩ := seq_eq_ok.mp h
  obtain ⟨htotal, h⟩ := seq_eq_ok.mp h
  obtain ⟨hprotocol, h⟩ := seq_eq_ok.mp h
  obtain ⟨hwhole, h⟩ := seq_eq_ok.mp h
  obtain ⟨-, h⟩ := seq_eq_ok.mp h
  obtain ⟨htcp, h⟩ := seq_eq_ok.mp h
  obtain ⟨-, h⟩ := seq_eq_ok.mp h
  obtain ⟨hroom, h⟩ := seq_eq_ok.mp h
  obtain ⟨hmtu, h⟩ := seq_eq_ok.mp h
  rw [rejectIf_eq_ok] at hip htotal hprotocol hwhole htcp hroom hmtu
  obtain rfl : ipOffset = 0 := by omega
  obtain rfl : totalLen = packet.length := not_not.mp htotal
  have hheader := ipv4HeaderBounds_eq_ok.mp (mapError_eq_ok.mp hbounds)
  cases h
  simp only [Nat.zero_add] at *
  refine ⟨rfl, rfl, rfl, hheader, not_not.mp hprotocol, not_not.mp hwhole, rfl, ?_, rfl, ?_, ?_, ?_⟩
  all_goals
    simp only
    omega

/-- What a segment writes in its copy of the headers. -/
def segmentPlaces (ihl i : ℕ) : Prop := segmentIPv4Places i ∨ segmentTCPPlaces ihl i

/-- A segment of a packet with a part of its payload. -/
structure IsSegment (packet : Bytes) (info : SegmentationMeta) (offset index : ℕ) (last : Bool)
    (chunk wire : Bytes) : Prop where
  length : wire.length = info.payloadOffset + chunk.length
  payload : wire.drop info.payloadOffset = chunk
  copied : ∀ i < info.payloadOffset, ¬segmentPlaces info.ihl i → wire[i]? = packet[i]?
  totalLen : uint16At wire 2 = wire.length
  identification : slice wire 4 2 = BigEndian.put 2 (uint16At packet 4 + index)
  seq : slice wire (info.ihl + 4) 4 = BigEndian.put 4 (uint32At packet (info.ihl + 4) + offset)
  flags : byteAt wire (info.ihl + 13) = segmentFlags (byteAt packet (info.ihl + 13)) last
  ipv4Checksum : ValidIpv4Checksum wire info.ihl
  tcpChecksum : ValidTCPChecksum wire info.ihl

section Segment

variable {packet payload : Bytes} {mtu : ℕ} {info : SegmentationMeta} {offset index : ℕ}

/-- The part of the payload that a segment carries. -/
def chunkAt (info : SegmentationMeta) (payload : Bytes) (offset : ℕ) : Bytes :=
  slice payload offset (min info.maxPayload (payload.length - offset))

def lastAt (info : SegmentationMeta) (payload : Bytes) (offset : ℕ) : Bool :=
  !(offset + min info.maxPayload (payload.length - offset) < payload.length : Bool)

theorem chunkAt_eq : chunkAt info payload offset = slice payload offset info.maxPayload := by
  unfold chunkAt slice
  rw [← List.take_take, List.take_of_length_le (i := payload.length - offset)]
  rw [List.length_drop]

theorem length_chunkAt :
    (chunkAt info payload offset).length = min info.maxPayload (payload.length - offset) := by
  rw [chunkAt_eq, slice, List.length_take, List.length_drop]

/-- **One segment**: its headers and its part of the payload. -/
theorem isSegment_segmentAt
    (h : dataSessionIPv4TCPSegmentationMetaForPacket packet mtu = .ok info)
    (hpayload : payload.length + info.payloadOffset = packet.length) :
    IsSegment packet info offset index (lastAt info payload offset) (chunkAt info payload offset)
      (segmentAt packet info payload offset index) := by
  have hable := segmentable_of_meta h
  have hihl := hable.bounds.ihl_ge
  have htcp := hable.tcp_ge
  have hoffset := hable.offset
  have htotal := uint16At_lt packet 2
  rw [← hable.bounds.total_eq] at htotal
  unfold segmentAt
  simp only [hable.ipOffset, hable.tcpOffset, Nat.zero_add]
  have hchunk := @length_chunkAt payload info offset
  unfold lastAt
  rw [show slice payload offset (min info.maxPayload (payload.length - offset)) =
    chunkAt info payload offset from rfl]
  generalize chunkAt info payload offset = chunk at *
  -- the copied headers, which are the first bytes of the packet
  have hheaders : slice packet 0 info.ihl ++ slice packet info.ihl info.tcpHeaderLen =
      packet.take info.payloadOffset := by
    simp only [slice, List.drop_zero]
    rw [← List.take_add, ← hoffset]
  have hlength : (packet.take info.payloadOffset).length = info.payloadOffset := by
    rw [List.length_take]
    omega
  rw [hheaders]
  have hget : ∀ i < info.payloadOffset, (packet.take info.payloadOffset ++ chunk)[i]? = packet[i]? := by
    intro i hi
    rw [List.getElem?_append_left (by omega), List.getElem?_take_of_lt hi]
  have hbyte : ∀ i < info.payloadOffset,
      byteAt (packet.take info.payloadOffset ++ chunk) i = byteAt packet i := by
    intro i hi
    simp only [byteAt, List.getD_eq_getElem?_getD, hget i hi]
  have hbase : (packet.take info.payloadOffset ++ chunk).length = info.payloadOffset + chunk.length := by
    rw [List.length_append, hlength]
  have hdrop : (packet.take info.payloadOffset ++ chunk).drop info.payloadOffset = chunk :=
    List.drop_left' hlength
  generalize packet.take info.payloadOffset ++ chunk = base at *
  obtain ⟨hip₁, hlen₁, hid₁, hsum₁⟩ := @writeSegmentIPv4_spec base info.ihl
    (uint16At packet 4 + index) hihl (by omega) (by omega)
  generalize writeSegmentIPv4 base info.ihl (uint16At packet 4 + index) = one at *
  have hone := hip₁.1
  obtain ⟨htcp₂, hseq₂, hflags₂, hsum₂⟩ := @writeSegmentTCP_spec one info.ihl
    (uint32At packet (info.ihl + 4) + offset)
    (!(offset + min info.maxPayload (payload.length - offset) < payload.length : Bool)) hihl
    (by omega) (by omega)
  have hwire := htcp₂.1
  have hbefore : ∀ i < info.ihl, ¬segmentTCPPlaces info.ihl i := by
    intro i hi
    unfold segmentTCPPlaces
    omega
  have hafter : ∀ i, info.payloadOffset ≤ i → ¬segmentTCPPlaces info.ihl i := by
    intro i hi
    unfold segmentTCPPlaces
    omega
  refine ⟨by omega, ?_, ?_, ?_, ?_, hseq₂, ?_, ?_, hsum₂⟩
  · rw [htcp₂.drop hafter, hip₁.drop (by unfold segmentIPv4Places; omega), hdrop]
  · intro i hi hnot
    rw [htcp₂.2 i fun h => hnot (.inr h), hip₁.2 i fun h => hnot (.inl h), hget i hi]
  · rw [uint16At, htcp₂.slice fun i _ hi => hbefore i (by omega), hlen₁,
      BigEndian.get_put_of_lt (by omega), hwire, hone]
  · rw [htcp₂.slice fun i _ hi => hbefore i (by omega), hid₁]
  · rw [hflags₂, byteAt_off hip₁ (by unfold segmentIPv4Places; omega), hbyte _ (by omega)]
  · unfold ValidIpv4Checksum at hsum₁ ⊢
    rwa [htcp₂.take hbefore]

end Segment

/-! ## All segments of a packet -/

/-- The segments of a packet.  Each has a copy of the headers in which the length, the
identification, the sequence number, the flags and the checksums are its own. -/
structure SegmentsOf (packet : Bytes) (mtu : ℕ) (info : SegmentationMeta) (wires : List Bytes) :
    Prop where
  fits : ∀ wire ∈ wires, wire.length ≤ mtu
  checksums : ∀ wire ∈ wires, ValidIpv4Checksum wire info.ihl ∧ ValidTCPChecksum wire info.ihl
  payload : (wires.map fun wire => wire.drop info.payloadOffset).flatten =
    packet.drop info.payloadOffset
  seq : ∀ k wire, wires[k]? = some wire → uint32At wire (info.ihl + 4) =
    (uint32At packet (info.ihl + 4) +
      ((wires.take k).map fun wire => wire.drop info.payloadOffset).flatten.length) % 2 ^ 32
  flags : ∀ k wire, wires[k]? = some wire → byteAt wire (info.ihl + 13) =
    segmentFlags (byteAt packet (info.ihl + 13)) (k + 1 = wires.length)
  totalLen : ∀ wire ∈ wires, uint16At wire 2 = wire.length
  identification : ∀ k wire, wires[k]? = some wire →
    uint16At wire 4 = (uint16At packet 4 + k) % 2 ^ 16
  copied : ∀ wire ∈ wires, ∀ i < info.payloadOffset, ¬segmentPlaces info.ihl i →
    wire[i]? = packet[i]?

section Loop

variable {packet payload : Bytes} {mtu : ℕ} {info : SegmentationMeta}

/-- The loop makes one segment for each full or begun `maxPayload` bytes. -/
theorem getElem?_segmentLoop (hpos : 0 < info.maxPayload) (room : ℕ) :
    ∀ offset index k, payload.length ≤ offset + room →
      (segmentLoop packet info payload room offset index)[k]? =
        if offset + k * info.maxPayload < payload.length then
          some (segmentAt packet info payload (offset + k * info.maxPayload) (index + k)) else none := by
  induction room with
  | zero =>
    intro offset index k hroom
    rw [if_neg (by omega)]
    rfl
  | succ room ih =>
    intro offset index k hroom
    rw [segmentLoop]
    by_cases hoffset : offset < payload.length
    · rw [if_pos hoffset]
      cases k with
      | zero => simp [hoffset]
      | succ k =>
        rw [List.getElem?_cons_succ, ih _ _ _ (by omega), Nat.succ_mul,
          show offset + info.maxPayload + k * info.maxPayload =
            offset + (k * info.maxPayload + info.maxPayload) by omega,
          show index + 1 + k = index + (k + 1) by omega]
    · rw [if_neg hoffset, if_neg (by omega)]
      rfl

/-- The first segments carry the first part of the payload. -/
theorem flatten_take_segmentLoop
    (h : dataSessionIPv4TCPSegmentationMetaForPacket packet mtu = .ok info)
    (hpayload : payload.length + info.payloadOffset = packet.length) (k : ℕ) :
    (((segmentLoop packet info payload payload.length 0 0).take k).map
      fun wire => wire.drop info.payloadOffset).flatten = payload.take (k * info.maxPayload) := by
  have hpos := (segmentable_of_meta h).maxPayload_pos
  induction k with
  | zero => simp
  | succ k ih =>
    rw [List.take_add_one, List.map_append, List.flatten_append, ih,
      getElem?_segmentLoop hpos _ _ _ _ (by omega), Nat.zero_add, Nat.zero_add, Nat.succ_mul,
      List.take_add]
    congr 1
    split_ifs with hk
    · have hsegment := @isSegment_segmentAt packet payload mtu info (k * info.maxPayload) k h hpayload
      simp only [Option.toList_some, List.map_cons, List.map_nil, List.flatten_cons,
        List.flatten_nil, List.append_nil]
      rw [hsegment.payload, chunkAt_eq]
      rfl
    · rw [List.drop_of_length_le (by omega)]
      simp

theorem lt_length_segmentLoop (hpos : 0 < info.maxPayload) (k : ℕ) :
    k < (segmentLoop packet info payload payload.length 0 0).length ↔
      k * info.maxPayload < payload.length := by
  rw [← not_le, ← List.getElem?_eq_none_iff, getElem?_segmentLoop hpos _ _ _ _ (by omega),
    Nat.zero_add]
  split_ifs with hk <;> simpa using hk

/-- **The segments of a packet.** -/
theorem segmentsOf_segmentLoop
    (h : dataSessionIPv4TCPSegmentationMetaForPacket packet mtu = .ok info) :
    SegmentsOf packet mtu info (segmentLoop packet info (packet.drop info.payloadOffset)
      (packet.drop info.payloadOffset).length 0 0) := by
  have hable := segmentable_of_meta h
  have hpos := hable.maxPayload_pos
  have hroom := hable.room
  have hpayload : (packet.drop info.payloadOffset).length + info.payloadOffset = packet.length := by
    rw [List.length_drop]
    omega
  generalize hrest : packet.drop info.payloadOffset = payload at *
  -- what the loop puts at a place
  have hget : ∀ k wire, (segmentLoop packet info payload payload.length 0 0)[k]? = some wire →
      k * info.maxPayload < payload.length ∧ IsSegment packet info (k * info.maxPayload) k
        (lastAt info payload (k * info.maxPayload)) (chunkAt info payload (k * info.maxPayload)) wire := by
    intro k wire hwire
    rw [getElem?_segmentLoop hpos _ _ _ _ (by omega), Nat.zero_add, Nat.zero_add] at hwire
    split_ifs at hwire with hk
    cases hwire
    exact ⟨hk, isSegment_segmentAt h hpayload⟩
  have hmem : ∀ wire ∈ segmentLoop packet info payload payload.length 0 0, ∃ offset index last,
      IsSegment packet info offset index last (chunkAt info payload offset) wire := by
    intro wire hwire
    obtain ⟨k, hk⟩ := List.mem_iff_getElem?.mp hwire
    exact ⟨_, _, _, (hget k wire hk).2⟩
  refine ⟨?_, ?_, ?_, ?_, ?_, ?_, ?_, ?_⟩
  · intro wire hwire
    obtain ⟨offset, index, last, hsegment⟩ := hmem wire hwire
    have hlimit := hable.limit
    rw [hsegment.length, length_chunkAt]
    omega
  · intro wire hwire
    obtain ⟨offset, index, last, hsegment⟩ := hmem wire hwire
    exact ⟨hsegment.ipv4Checksum, hsegment.tcpChecksum⟩
  · have hall := flatten_take_segmentLoop h hpayload
      (segmentLoop packet info payload payload.length 0 0).length
    rw [List.take_length] at hall
    rw [hall, hrest]
    refine List.take_of_length_le (not_lt.mp fun hlt => ?_)
    exact lt_irrefl _ ((lt_length_segmentLoop hpos _).mpr hlt)
  · intro k wire hwire
    obtain ⟨hk, hsegment⟩ := hget k wire hwire
    rw [uint32At, hsegment.seq, BigEndian.get_put, flatten_take_segmentLoop h hpayload,
      List.length_take, Nat.min_eq_left hk.le]
    rfl
  · intro k wire hwire
    obtain ⟨hk, hsegment⟩ := hget k wire hwire
    rw [hsegment.flags]
    congr 1
    -- the segment is the last one if nothing of the payload is left
    have hlast : k + 1 = (segmentLoop packet info payload payload.length 0 0).length ↔
        ¬ (k + 1) * info.maxPayload < payload.length := by
      have hlt := (@lt_length_segmentLoop packet payload info hpos k).mpr hk
      have hnext := @lt_length_segmentLoop packet payload info hpos (k + 1)
      omega
    have hsucc : (k + 1) * info.maxPayload = k * info.maxPayload + info.maxPayload :=
      Nat.succ_mul k info.maxPayload
    unfold lastAt
    rw [Bool.eq_iff_iff, decide_eq_true_iff, hlast]
    simp only [Bool.not_eq_true', decide_eq_false_iff_not]
    omega
  · intro wire hwire
    obtain ⟨offset, index, last, hsegment⟩ := hmem wire hwire
    exact hsegment.totalLen
  · intro k wire hwire
    obtain ⟨-, hsegment⟩ := hget k wire hwire
    rw [uint16At, hsegment.identification, BigEndian.get_put]
    rfl
  · intro wire hwire
    obtain ⟨offset, index, last, hsegment⟩ := hmem wire hwire
    exact hsegment.copied

/-- A packet that does not fit goes through the loop. -/
theorem segment_of_meta (hlong : mtu < packet.length)
    (h : dataSessionIPv4TCPSegmentationMetaForPacket packet mtu = .ok info) :
    segmentDataSessionIPv4TCPPacket packet mtu = .ok (segmentLoop packet info
      (packet.drop info.payloadOffset) (packet.drop info.payloadOffset).length 0 0) := by
  have hpayload : slice packet info.payloadOffset (info.totalLen - info.payloadOffset) =
      packet.drop info.payloadOffset := by
    rw [slice, (segmentable_of_meta h).totalLen]
    exact List.take_of_length_le (by rw [List.length_drop])
  unfold segmentDataSessionIPv4TCPPacket
  rw [if_neg (by omega), h, ok_bind, hpayload]

theorem segmentLoop_of_segment {wires : List Bytes} (hlong : mtu < packet.length)
    (h : segmentDataSessionIPv4TCPPacket packet mtu = .ok wires) :
    ∃ info, dataSessionIPv4TCPSegmentationMetaForPacket packet mtu = .ok info ∧
      wires = segmentLoop packet info (packet.drop info.payloadOffset)
        (packet.drop info.payloadOffset).length 0 0 := by
  have hunfolded := h
  unfold segmentDataSessionIPv4TCPPacket at hunfolded
  rw [if_neg (by omega)] at hunfolded
  obtain ⟨info, hmeta, -⟩ := bind_eq_ok.mp hunfolded
  rw [segment_of_meta hlong hmeta] at h
  exact ⟨info, hmeta, (Except.ok.inj h).symm⟩

end Loop

/-! ## Sending -/

/-- A packet that fits or can be segmented. -/
def Sendable (packet : Bytes) (mtu : ℕ) : Prop :=
  packet.length ≤ mtu ∨ ∃ info, dataSessionIPv4TCPSegmentationMetaForPacket packet mtu = .ok info

/-- What is sent for a packet: the packet itself, or segments that carry its payload. -/
def CarriedBy (packet : Bytes) (mtu : ℕ) (wires : List Bytes) : Prop :=
  (packet.length ≤ mtu ∧ wires = [packet]) ∨
    ∃ info, dataSessionIPv4TCPSegmentationMetaForPacket packet mtu = .ok info ∧
      (wires.map fun wire => wire.drop info.payloadOffset).flatten = packet.drop info.payloadOffset

/-- **The segments of a packet** fit and carry its payload; there are some exactly for the
packets that fit or can be segmented. -/
theorem segment_spec (packet : Bytes) (mtu : ℕ) :
    (Sendable packet mtu → ∃ wires, segmentDataSessionIPv4TCPPacket packet mtu = .ok wires ∧
      (∀ wire ∈ wires, wire.length ≤ mtu) ∧ CarriedBy packet mtu wires) ∧
    (¬Sendable packet mtu → ∃ text, segmentDataSessionIPv4TCPPacket packet mtu = .error text) := by
  by_cases hfits : packet.length ≤ mtu
  · refine ⟨fun _ => ⟨[packet], if_pos hfits, by simpa using hfits, .inl ⟨hfits, rfl⟩⟩, fun hnot => ?_⟩
    exact absurd (.inl hfits) hnot
  · refine ⟨fun hsendable => ?_, fun hnot => ?_⟩
    · obtain ⟨info, hmeta⟩ := hsendable.resolve_left hfits
      have hsegments := segmentsOf_segmentLoop hmeta
      exact ⟨_, segment_of_meta (by omega) hmeta, hsegments.fits,
        .inr ⟨info, hmeta, hsegments.payload⟩⟩
    · unfold segmentDataSessionIPv4TCPPacket
      rw [if_neg hfits]
      cases hmeta : dataSessionIPv4TCPSegmentationMetaForPacket packet mtu with
      | ok info => exact absurd (.inr ⟨info, hmeta⟩) hnot
      | error text => exact ⟨text, rfl⟩

end Datapath
