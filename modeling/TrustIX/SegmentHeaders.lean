/-
# Segments that are merged again

The coalescer makes a packet out of its segments again
(`segmentDataSessionIPv4TCPPacket` in `internal/daemon/datapath.go`).

* `segments_of_split` : the segments of a packet, and the packets that stay as they are;
* `coalesce_segments` : the coalescer undoes the segmentation.
-/
import TrustIX.SessionSend
import TrustIX.GsoCoalesce

namespace Datapath

open ByteEdit Fallible

/-! ## Coalescing packets that follow each other -/

section Coalescing

variable {options : CoalesceOptions} {maxBytes maxPackets : ℤ}

/-- A coalescer takes packets of its flow, one after the other. -/
inductive Extends (maxBytes maxPackets : ℤ) : Coalescer → List Bytes → Coalescer → Prop
  | nil (current : Coalescer) : Extends maxBytes maxPackets current [] current
  | cons {current final : Coalescer} {packet : Bytes} {info : CoalesceMeta} {rest : List Bytes}
      (read : tcpGSOCoalescePacketMeta packet = some info) (key : info.key = current.info.key)
      (can : tcpGSOCoalescerCanAppend current packet info maxBytes maxPackets = true)
      (next : Extends maxBytes maxPackets (appendPacket current packet info) rest final) :
      Extends maxBytes maxPackets current (packet :: rest) final

variable {current final : Coalescer}

variable {packets : List Bytes}

theorem Extends.count
    (h : Extends maxBytes maxPackets current packets final) :
    final.count = current.count + packets.length := by
  induction h with
  | nil => rfl
  | cons _ _ _ _ ih =>
    rw [ih, List.length_cons]
    simp only [appendPacket]
    omega

theorem foldl_singleFlow
    (h : Extends maxBytes maxPackets current packets final) (out : List Bytes) (stats : CoalesceStats) :
    packets.foldl (SingleFlow.step options maxBytes maxPackets) ⟨out, some current, stats⟩ =
      ⟨out, some final, stats⟩ := by
  induction h with
  | nil => rfl
  | cons read _ can _ ih => simp only [List.foldl_cons, SingleFlow.step, read, can, Bool.not_true,
      Bool.false_eq_true, if_false, ih]

/-- With many flows too, they all go to the one group that is open. -/
theorem foldl_multiFlow
    (h : Extends maxBytes maxPackets current packets final) (out : List Bytes) (stats : CoalesceStats)
    (active : AList fun _ : CoalesceKey => ℕ) (hactive : active.lookup current.info.key = some 0) :
    packets.foldl (MultiFlow.step options maxBytes maxPackets) ⟨out, active, [some current], stats⟩ =
      ⟨out, active, [some final], stats⟩ := by
  induction h with
  | nil => rfl
  | cons read key can _ ih =>
    have hlookup := hactive
    rw [← key] at hlookup
    rw [List.foldl_cons]
    simp only [MultiFlow.step, read, hlookup, List.getElem?_cons_zero, can, Bool.not_true,
      Bool.false_eq_true, if_false, List.set_cons_zero]
    exact ih hactive

/-- **Packets that follow each other** become one, in both ways of coalescing. -/
theorem coalesce_of_extends {first : Bytes} {info : CoalesceMeta} {rest : List Bytes}
    {final : Coalescer} (hread : tcpGSOCoalescePacketMeta first = some info)
    (h : Extends maxBytes maxPackets (startCoalescer first info) rest final) (hrest : rest ≠ [])
    (hbytes : 0 < maxBytes) (hpackets : 1 < maxPackets) :
    (coalesceDataSessionTCPLocalPackets (first :: rest) true maxBytes maxPackets options).1 =
      [finishTCPGSOCoalescedPacket final.packet final.info
        (tcpGSOCoalesceSkipTCPChecksum final.info.totalLen options)] := by
  have hlength := List.length_pos_of_ne_nil hrest
  have hcount : final.count = 1 + rest.length := h.count
  have hflushed : flushed options final = finishTCPGSOCoalescedPacket final.packet final.info
      (tcpGSOCoalesceSkipTCPChecksum final.info.totalLen options) := by
    rw [flushed, if_neg (by omega)]
  unfold coalesceDataSessionTCPLocalPackets
  rw [if_neg (by simp; omega), if_neg (by omega)]
  cases hmulti : options.multiFlow with
  | true =>
    have hstart : MultiFlow.step options maxBytes maxPackets ⟨[], ∅, [], ⟨0, 0, 0, 0⟩⟩ first =
        ⟨[], (∅ : AList fun _ : CoalesceKey => ℕ).insert info.key 0, [some (startCoalescer first info)],
          ⟨0, 0, 0, 0⟩⟩ := by
      simp [MultiFlow.step, hread, MultiFlow.startFlow, dataSessionGSOCoalesceMaxActiveFlows]
    have hlookup : ((∅ : AList fun _ : CoalesceKey => ℕ).insert info.key 0).lookup
        (startCoalescer first info).info.key = some 0 := AList.lookup_insert _
    simp only [if_true, coalesceMultiFlow, List.foldl_cons, hstart,
      foldl_multiFlow h [] ⟨0, 0, 0, 0⟩ _ hlookup]
    simp [MultiFlow.flushAll, MultiFlow.flushIndex, List.range_succ, CoalesceStats.flush, hflushed,
      show ¬final.count ≤ 1 by omega]
  | false =>
    have hstart : SingleFlow.step options maxBytes maxPackets ⟨[], none, ⟨0, 0, 0, 0⟩⟩ first =
        ⟨[], some (startCoalescer first info), ⟨0, 0, 0, 0⟩⟩ := by
      simp [SingleFlow.step, hread]
    simp only [Bool.false_eq_true, if_false, List.foldl_cons, hstart, foldl_singleFlow h]
    simp [SingleFlow.flush, CoalesceStats.flush, hflushed, show ¬final.count ≤ 1 by omega]

end Coalescing

/-! ## Coalescing segments -/

section Undo

variable {packet payload : Bytes} {mtu : ℕ} {info : SegmentationMeta} {maxBytes maxPackets : ℤ}

theorem getElem?_of_slice_eq {a b : Bytes} {place count i : ℕ}
    (h : slice a place count = slice b place count) (hle : place ≤ i) (hlt : i < place + count) :
    a[i]? = b[i]? := by
  have hget := congrArg (fun bytes : Bytes => bytes[i - place]?) h
  simp only [getElem?_slice] at hget
  rwa [if_pos (by omega), if_pos (by omega), show place + (i - place) = i by omega] at hget

/-- What the coalescer reads of a packet of which it has this much payload. -/
def heldMeta (packet : Bytes) (info : SegmentationMeta) (seq length : ℕ) (flags : UInt8) :
    CoalesceMeta :=
  { metaOf packet info.ihl info.tcpHeaderLen packet.length with
    seq := seq
    payloadLen := length
    totalLen := info.payloadOffset + length
    flags := flags }

theorem coalescible_segmentFlags : ∀ (flags : UInt8) (last : Bool),
    tcpGSOCoalescibleFlags flags = true → tcpGSOCoalescibleFlags (segmentFlags flags last) = true := by
  decide +kernel

theorem coalescedFlags_segmentFlags : ∀ (flags : UInt8) (last : Bool),
    tcpGSOCoalescibleFlags flags = true →
    tcpGSOCoalescedFlags (segmentFlags flags false) (segmentFlags flags last) =
      segmentFlags flags last := by
  decide +kernel

theorem Segmentable.mergeable (hable : Segmentable packet mtu info)
    (hflags : tcpGSOCoalescibleFlags (byteAt packet (info.ihl + 13)) = true) :
    Mergeable packet info.ihl info.tcpHeaderLen :=
  ⟨hable.bounds, hable.protocol, hable.whole, hable.tcp_eq, hable.tcp_ge,
    hable.offset ▸ hable.room, hflags⟩

/-- **What the coalescer reads in a segment** is what it reads in the packet, but for the part of
the payload. -/
theorem read_segment (hable : Segmentable packet mtu info)
    (hflags : tcpGSOCoalescibleFlags (byteAt packet (info.ihl + 13)) = true) {offset index : ℕ}
    {last : Bool} {chunk wire : Bytes} (h : IsSegment packet info offset index last chunk wire)
    (hchunk : chunk ≠ []) : tcpGSOCoalescePacketMeta wire =
      some (heldMeta packet info ((uint32At packet (info.ihl + 4) + offset) % 2 ^ 32) chunk.length
        (segmentFlags (byteAt packet (info.ihl + 13)) last)) := by
  have hoffset := hable.offset
  have hpos := List.length_pos_of_ne_nil hchunk
  have hlength := h.length
  have hflags' : tcpGSOCoalescibleFlags (byteAt wire (info.ihl + 13)) = true := by
    rw [h.flags]
    exact coalescible_segmentFlags _ _ hflags
  have hcopied := h.copied
  rw [hoffset] at hcopied
  obtain ⟨hwire, hmeta⟩ := (hable.mergeable hflags).agree hcopied h.totalLen (by omega) hflags'
  have hseq : uint32At wire (info.ihl + 4) = (uint32At packet (info.ihl + 4) + offset) % 2 ^ 32 := by
    rw [uint32At, h.seq, BigEndian.get_put]
    rfl
  refine tcpGSOCoalescePacketMeta_eq_some.mpr ⟨_, _, hwire, ?_⟩
  rw [hmeta, hseq, h.flags, hlength, heldMeta, hoffset, Nat.add_sub_cancel_left]

/-- The coalescer when it has taken the payload up to an offset. -/
def heldCoalescer (packet : Bytes) (info : SegmentationMeta) (payload header : Bytes)
    (offset index : ℕ) : Coalescer where
  info := heldMeta packet info (uint32At packet (info.ihl + 4)) (min offset payload.length)
    (segmentFlags (byteAt packet (info.ihl + 13)) (payload.length ≤ offset))
  packet := header ++ payload.take offset
  count := index

section Loop

variable (h : dataSessionIPv4TCPSegmentationMetaForPacket packet mtu = .ok info)
  (hflags : tcpGSOCoalescibleFlags (byteAt packet (info.ihl + 13)) = true)
  (hpayload : payload.length + info.payloadOffset = packet.length)
  (hbytes : (packet.length : ℤ) ≤ maxBytes) {header : Bytes} (hheader : header.length = info.payloadOffset)
  (hcopied : slice header (info.ihl + 20) (info.tcpHeaderLen - 20) =
    slice packet (info.ihl + 20) (info.tcpHeaderLen - 20))

include h hflags hpayload hbytes hheader hcopied

/-- One more segment can be appended, and is. -/
theorem canAppend_segment {offset index : ℕ}
    (hoffset : offset < payload.length) (hindex : (index : ℤ) < maxPackets) {wire : Bytes}
    (hsegment : IsSegment packet info offset index (lastAt info payload offset)
      (chunkAt info payload offset) wire) :
    let read := heldMeta packet info ((uint32At packet (info.ihl + 4) + offset) % 2 ^ 32)
      (chunkAt info payload offset).length
      (segmentFlags (byteAt packet (info.ihl + 13)) (lastAt info payload offset))
    tcpGSOCoalescerCanAppend (heldCoalescer packet info payload header offset index) wire read
        maxBytes maxPackets = true ∧
      appendPacket (heldCoalescer packet info payload header offset index) wire read =
        heldCoalescer packet info payload header (offset + info.maxPayload) (index + 1) := by
  intro read
  have hable := segmentable_of_meta h
  have htcp := hable.tcp_ge
  have hplace := hable.offset
  have hpos := hable.maxPayload_pos
  have htotal := uint16At_lt packet 2
  rw [← hable.bounds.total_eq] at htotal
  have hchunk := @length_chunkAt payload info offset
  have hlength := hsegment.length
  have hoptions : slice wire (info.ihl + 20) (info.tcpHeaderLen - 20) =
      slice packet (info.ihl + 20) (info.tcpHeaderLen - 20) := by
    refine slice_congr fun i hge hlt => hsegment.copied i (by omega) ?_
    unfold segmentPlaces segmentIPv4Places segmentTCPPlaces
    omega
  constructor
  · have hroom : (header ++ payload.take offset).length + (chunkAt info payload offset).length ≤
        packet.length := by
      rw [List.length_append, List.length_take, hheader]
      omega
    have hheld : slice (header ++ payload.take offset) (info.ihl + 20) (info.tcpHeaderLen - 20) =
        slice packet (info.ihl + 20) (info.tcpHeaderLen - 20) := by
      rw [slice_append_left (by omega), hcopied]
    unfold tcpGSOCoalescerCanAppend
    simp only [heldCoalescer, read, heldMeta, metaOf]
    rw [if_neg (by omega), if_neg (by simp [Nat.min_eq_left hoffset.le]), if_neg, if_neg]
    · rw [coalescible_segmentFlags _ _ hflags, coalescible_segmentFlags _ _ hflags]
      simp
      omega
    · rw [hheld, hoptions]
      exact fun hne => hne rfl
    · rw [not_or]
      refine ⟨by omega, ?_⟩
      split_ifs <;> omega
  · have hpart : slice wire (info.ihl + info.tcpHeaderLen)
        (info.payloadOffset + (chunkAt info payload offset).length -
          (info.ihl + info.tcpHeaderLen)) = slice payload offset info.maxPayload := by
      rw [← hplace, Nat.add_sub_cancel_left, slice, hsegment.payload, List.take_length, chunkAt_eq]
    have hlast : lastAt info payload offset =
        decide (payload.length ≤ offset + info.maxPayload) := by
      unfold lastAt
      rw [Bool.eq_iff_iff, decide_eq_true_iff]
      simp only [Bool.not_eq_true', decide_eq_false_iff_not]
      omega
    have hfirst : (decide (payload.length ≤ offset)) = false := by
      simpa using hoffset
    have hsum : min offset payload.length + min info.maxPayload (payload.length - offset) =
        min (offset + info.maxPayload) payload.length := by
      omega
    unfold appendPacket heldCoalescer
    simp only [read, heldMeta, metaOf]
    rw [hpart, hfirst, coalescedFlags_segmentFlags _ _ hflags, hlast, hchunk, Nat.add_assoc, hsum,
      List.append_assoc, List.take_add]
    rfl

/-- The segments are appended one after the other. -/
theorem extends_segmentLoop (room : ℕ) :
    ∀ offset index : ℕ, payload.length ≤ offset + room →
      (index : ℤ) + (segmentLoop packet info payload room offset index).length ≤ maxPackets →
      ∃ final, payload.length ≤ final ∧
        Extends maxBytes maxPackets (heldCoalescer packet info payload header offset index)
          (segmentLoop packet info payload room offset index)
          (heldCoalescer packet info payload header final
            (index + (segmentLoop packet info payload room offset index).length)) := by
  have hable := segmentable_of_meta h
  have hpos := hable.maxPayload_pos
  induction room with
  | zero => exact fun offset index hroom _ => ⟨offset, hroom, .nil _⟩
  | succ room ih =>
    intro offset index hroom hcount
    rw [segmentLoop] at hcount ⊢
    split_ifs at hcount ⊢ with hoffset
    · have hsegment := @isSegment_segmentAt packet payload mtu info offset index h hpayload
      rw [List.length_cons] at hcount ⊢
      have hindex : (index : ℤ) < maxPackets := by
        omega
      obtain ⟨hcan, happend⟩ := canAppend_segment h hflags hpayload hbytes hheader hcopied
        hoffset hindex hsegment
      obtain ⟨final, hfinal, hextends⟩ := ih (offset + info.maxPayload) (index + 1) (by omega)
        (by push_cast at hcount ⊢; omega)
      have hchunk : chunkAt info payload offset ≠ [] := by
        refine List.ne_nil_of_length_pos ?_
        rw [length_chunkAt]
        omega
      refine ⟨final, hfinal, .cons (read_segment hable hflags hsegment hchunk) rfl hcan ?_⟩
      rw [happend]
      rwa [show index + 1 + (segmentLoop packet info payload room (offset + info.maxPayload)
        (index + 1)).length = index + ((segmentLoop packet info payload room
        (offset + info.maxPayload) (index + 1)).length + 1) by omega] at hextends
    · exact ⟨offset, not_lt.mp hoffset, .nil _⟩

end Loop

/-- The checksums of a packet. -/
def checksumPlaces (ihl i : ℕ) : Prop := 10 ≤ i ∧ i < 12 ∨ ihl + 16 ≤ i ∧ i < ihl + 18

/-- A packet whose headers come from its first segment gets its own header fields back. -/
theorem finish_segments (hable : Segmentable packet mtu info)
    {last : Bool} {chunk first : Bytes} (h : IsSegment packet info 0 0 last chunk first)
    {final count : ℕ} (hfinal : (packet.drop info.payloadOffset).length ≤ final) (skip : Bool) :
    let held := heldCoalescer packet info (packet.drop info.payloadOffset)
      (first.take info.payloadOffset) final count
    Off (checksumPlaces info.ihl) packet
      (finishTCPGSOCoalescedPacket held.packet held.info skip) := by
  intro held
  have hihl := hable.bounds.ihl_ge
  have htcp := hable.tcp_ge
  have hoffset := hable.offset
  have hroom := hable.room
  have htotal := uint16At_lt packet 2
  rw [← hable.bounds.total_eq] at htotal
  have hheader : (first.take info.payloadOffset).length = info.payloadOffset := by
    rw [List.length_take, h.length]
    omega
  have hpacket : held.packet = first.take info.payloadOffset ++ packet.drop info.payloadOffset := by
    simp only [held, heldCoalescer]
    rw [List.take_of_length_le hfinal]
  have hmeta : held.info = heldMeta packet info (uint32At packet (info.ihl + 4))
      (packet.length - info.payloadOffset) (byteAt packet (info.ihl + 13)) := by
    rw [List.length_drop] at hfinal
    simp only [held, heldCoalescer, List.length_drop, Nat.min_eq_right hfinal, decide_eq_true hfinal,
      segmentFlags, if_true]
  have hlength : held.packet.length = packet.length := by
    rw [hpacket, List.length_append, hheader, List.length_drop]
    omega
  have hinfo : held.info.ihl = info.ihl ∧ held.info.totalLen = packet.length ∧
      held.info.flags = byteAt packet (info.ihl + 13) := by
    rw [hmeta]
    refine ⟨rfl, ?_, rfl⟩
    simp only [heldMeta]
    omega
  -- the header of the first segment, then the payload
  have hget : ∀ i, i < info.payloadOffset → held.packet[i]? = first[i]? := by
    intro i hi
    rw [hpacket, List.getElem?_append_left (by omega), List.getElem?_take_of_lt hi]
  have hcopy : ∀ i, ¬segmentPlaces info.ihl i → held.packet[i]? = packet[i]? := by
    intro i hnot
    by_cases hi : i < info.payloadOffset
    · rw [hget i hi, h.copied i hi hnot]
    · rw [hpacket, List.getElem?_append_right (by omega), hheader, List.getElem?_drop]
      congr 1
      omega
  obtain ⟨hoff, hlen, hsix, hbyte, -, -⟩ := @finish_spec held.packet held.info
    (by rw [hlength, hinfo.2.1]) (by omega) (by omega) (by omega) skip
  rw [hinfo.2.2] at hbyte
  rw [hinfo.2.1] at hlen
  generalize finishTCPGSOCoalescedPacket held.packet held.info skip = out at *
  have hout : out.length = packet.length := hoff.1.trans hlength
  have hput : ∀ {place count}, place + count ≤ packet.length →
      BigEndian.put count (BigEndian.get (slice packet place count)) = slice packet place count := by
    intro place count hle
    have hput := BigEndian.put_get (slice packet place count)
    rwa [length_slice hle] at hput
  -- fields that the segment and the coalescer both write
  have hread : slice out 2 2 = slice packet 2 2 := by
    rw [hlen, hable.bounds.total_eq]
    exact hput (by omega)
  have hid : slice held.packet 4 2 = slice packet 4 2 := by
    rw [slice_congr fun i _ hi => hget i (by omega), h.identification, Nat.add_zero]
    exact hput (by omega)
  have hseq : slice held.packet (info.ihl + 4) 4 = slice packet (info.ihl + 4) 4 := by
    rw [slice_congr fun i _ hi => hget i (by omega), h.seq, Nat.add_zero]
    exact hput (by omega)
  have hfragment : byteAt out 6 = byteAt packet 6 := by
    have hsame : byteAt held.packet 6 = byteAt packet 6 := by
      simp only [byteAt, List.getD_eq_getElem?_getD]
      rw [hcopy 6 (by unfold segmentPlaces segmentIPv4Places segmentTCPPlaces; omega)]
    rw [hsix, hsame, clear_fragment (by omega) hable.whole]
  refine ⟨hout, fun i hi => ?_⟩
  unfold checksumPlaces at hi
  by_cases htwo : 2 ≤ i ∧ i < 4
  · exact getElem?_of_slice_eq hread htwo.1 htwo.2
  by_cases hsixth : i = 6
  · subst hsixth
    exact getElem?_of_byteAt_eq hfragment (by omega) (by omega)
  by_cases hflag : i = info.ihl + 13
  · subst hflag
    exact getElem?_of_byteAt_eq hbyte (by omega) (by omega)
  rw [hoff.2 i (by unfold ipv4Places tcpPlaces; omega)]
  by_cases hfour : 4 ≤ i ∧ i < 6
  · exact getElem?_of_slice_eq hid hfour.1 hfour.2
  by_cases hplace : info.ihl + 4 ≤ i ∧ i < info.ihl + 8
  · exact getElem?_of_slice_eq hseq hplace.1 hplace.2
  exact hcopy i (by unfold segmentPlaces segmentIPv4Places segmentTCPPlaces; omega)

/-- **Coalescing undoes segmentation**, but for the checksums, if the limits leave room. -/
theorem coalesce_segments
    (h : dataSessionIPv4TCPSegmentationMetaForPacket packet mtu = .ok info)
    (hlong : mtu < packet.length)
    (hflags : tcpGSOCoalescibleFlags (byteAt packet (info.ihl + 13)) = true)
    (hbytes : (packet.length : ℤ) ≤ maxBytes)
    (hpackets : ((segmentLoop packet info (packet.drop info.payloadOffset)
      (packet.drop info.payloadOffset).length 0 0).length : ℤ) ≤ maxPackets) (options : CoalesceOptions) :
    ∃ merged, (coalesceDataSessionTCPLocalPackets
        (segmentLoop packet info (packet.drop info.payloadOffset)
          (packet.drop info.payloadOffset).length 0 0) true maxBytes maxPackets options).1 = [merged] ∧
      Off (checksumPlaces info.ihl) packet merged := by
  have hable := segmentable_of_meta h
  have hpos := hable.maxPayload_pos
  have hlimit := hable.limit
  have hpayload : (packet.drop info.payloadOffset).length + info.payloadOffset = packet.length := by
    rw [List.length_drop]
    omega
  obtain ⟨payload, hdrop⟩ : ∃ payload, packet.drop info.payloadOffset = payload := ⟨_, rfl⟩
  rw [hdrop] at hpayload hpackets ⊢
  obtain ⟨room, hlength⟩ : ∃ room, payload.length = room + 1 := ⟨payload.length - 1, by omega⟩
  rw [hlength, segmentLoop, if_pos (by omega), Nat.zero_add, Nat.zero_add] at hpackets ⊢
  have hsegment := @isSegment_segmentAt packet payload mtu info 0 0 h hpayload
  generalize segmentAt packet info payload 0 0 = first at hsegment hpackets ⊢
  have hfull : (chunkAt info payload 0).length = info.maxPayload := by
    rw [length_chunkAt]
    omega
  have hchunk : chunkAt info payload 0 ≠ [] := by
    refine List.ne_nil_of_length_pos ?_
    rw [hfull]
    exact hpos
  have hlast : lastAt info payload 0 = false := by
    simp only [lastAt, Bool.not_eq_false', decide_eq_true_iff]
    omega
  have hread := read_segment hable hflags hsegment hchunk
  have hheader : (first.take info.payloadOffset).length = info.payloadOffset := by
    rw [List.length_take, hsegment.length]
    omega
  have hcopied : slice (first.take info.payloadOffset) (info.ihl + 20) (info.tcpHeaderLen - 20) =
      slice packet (info.ihl + 20) (info.tcpHeaderLen - 20) := by
    have hplace := hable.offset
    have htcp := hable.tcp_ge
    rw [slice_take (by omega)]
    refine slice_congr fun i hge hlt => hsegment.copied i (by omega) ?_
    unfold segmentPlaces segmentIPv4Places segmentTCPPlaces
    omega
  -- the coalescer begins with the first segment
  have hstart : startCoalescer first
      (heldMeta packet info ((uint32At packet (info.ihl + 4) + 0) % 2 ^ 32)
        (chunkAt info payload 0).length
        (segmentFlags (byteAt packet (info.ihl + 13)) (lastAt info payload 0))) =
      heldCoalescer packet info payload (first.take info.payloadOffset) info.maxPayload 1 := by
    have hseq := uint32At_lt packet (info.ihl + 4)
    have hnot : decide (payload.length ≤ info.maxPayload) = false := by
      rw [decide_eq_false_iff_not]
      omega
    have hwhole : first = first.take info.payloadOffset ++ payload.take info.maxPayload := by
      have hpart := hsegment.payload
      rw [chunkAt_eq, slice, List.drop_zero] at hpart
      rw [← hpart, List.take_append_drop]
    unfold startCoalescer heldCoalescer
    rw [hlast, hfull, hnot, Nat.min_eq_left (by omega), Nat.add_zero, Nat.mod_eq_of_lt hseq,
      ← hwhole, List.take_of_length_le]
    simp only [heldMeta]
    rw [hsegment.length, hfull]
  rw [List.length_cons] at hpackets
  have hcount : ((1 : ℕ) : ℤ) + (segmentLoop packet info payload room info.maxPayload 1).length ≤
      maxPackets := by
    omega
  obtain ⟨final, hfinal, hextends⟩ := extends_segmentLoop h hflags hpayload hbytes hheader hcopied room
    info.maxPayload 1 (by omega) hcount
  rw [← hstart] at hextends
  have hrest : segmentLoop packet info payload room info.maxPayload 1 ≠ [] := by
    intro hnil
    have hget := @getElem?_segmentLoop packet payload info hpos room info.maxPayload 1 0 (by omega)
    rw [hnil, if_pos (by omega)] at hget
    cases hget
  have hseveral : 1 < maxPackets := by
    have hlen := List.length_pos_of_ne_nil hrest
    omega
  subst hdrop
  exact ⟨_, coalesce_of_extends hread hextends hrest (by omega) hseveral,
    finish_segments hable hsegment hfinal _⟩

end Undo

/-! ## Batches -/

/-- The packet is too long for the session, which cuts such packets. -/
def DataSession.Cuts (session : DataSession) (packet : Bytes) : Prop :=
  session.stats.datagram = true ∧ 0 < session.stats.maxPacketSize ∧
    session.stats.maxPacketSize ≤ maxInt ∧ session.Segments ∧
    session.stats.maxPacketSize < packet.length

/-- With limits that leave room, the coalescer gives the packet back, but for its checksums. -/
def Undone (packet : Bytes) (info : SegmentationMeta) (wires : List Bytes) : Prop :=
  tcpGSOCoalescibleFlags (byteAt packet (info.ihl + 13)) = true →
    ∀ (maxBytes maxPackets : ℤ) (options : CoalesceOptions), (packet.length : ℤ) ≤ maxBytes →
      (wires.length : ℤ) ≤ maxPackets →
      ∃ merged, (coalesceDataSessionTCPLocalPackets wires true maxBytes maxPackets options).1 = [merged] ∧
        Off (checksumPlaces info.ihl) packet merged

/-- What a packet becomes. -/
def SplitInto (session : DataSession) (packet : Bytes) (wires : List Bytes) : Prop :=
  (session.Cuts packet → ∃ info,
    dataSessionIPv4TCPSegmentationMetaForPacket packet session.stats.maxPacketSize = .ok info ∧
      SegmentsOf packet session.stats.maxPacketSize info wires ∧ Undone packet info wires) ∧
    (¬session.Cuts packet → wires = [packet])

section Batch

variable {session : DataSession}

theorem splitInto_segment {packet : Bytes} {wires : List Bytes}
    (hlong : session.stats.maxPacketSize < packet.length) (hcuts : session.Cuts packet)
    (h : segmentDataSessionIPv4TCPPacket packet session.stats.maxPacketSize = .ok wires) :
    SplitInto session packet wires := by
  obtain ⟨info, hmeta, rfl⟩ := segmentLoop_of_segment hlong h
  refine ⟨fun _ => ⟨info, hmeta, segmentsOf_segmentLoop hmeta, ?_⟩, fun hnot => absurd hcuts hnot⟩
  intro hflags maxBytes maxPackets options hbytes hpackets
  exact coalesce_segments hmeta hlong hflags hbytes hpackets options

theorem splitInto_splitPacket {packet : Bytes} {wires : List Bytes}
    (hdatagram : session.stats.datagram = true) (hpos : 0 < session.stats.maxPacketSize)
    (hmax : session.stats.maxPacketSize ≤ maxInt) (h : splitPacket session packet = .ok wires) :
    SplitInto session packet wires := by
  unfold splitPacket at h
  split_ifs at h with hfits hwhole
  · cases h
    refine ⟨fun hcuts => ?_, fun _ => rfl⟩
    have hlong := hcuts.2.2.2.2
    omega
  · cases h
    refine ⟨fun hcuts => ?_, fun _ => rfl⟩
    rcases hcuts.2.2.2.1 with hseg | hseg <;> simp [hseg] at hwhole
  · have hsegments : session.Segments := by
      unfold DataSession.Segments
      cases hfragmenting : session.stats.fragmentingDatagram with
      | false => exact .inl rfl
      | true => exact .inr (by simpa [hfragmenting] using hwhole)
    exact splitInto_segment (by omega) ⟨hdatagram, hpos, hmax, hsegments, by omega⟩ h

/-- What a batch becomes, packet by packet. -/
theorem splitInto_of_split {packets out : List Bytes}
    (h : splitDataSessionPacketsForMTU session packets = .ok out) :
    ∃ parts, out = parts.flatten ∧ List.Forall₂ (SplitInto session) packets parts := by
  unfold splitDataSessionPacketsForMTU at h
  split_ifs at h with hnone
  · cases h
    refine ⟨packets.map fun packet => [packet], ?_, ?_⟩
    · rw [← List.flatMap_def, List.flatMap_singleton']
    rw [List.forall₂_map_right_iff, List.forall₂_same]
    intro packet _
    refine ⟨fun hcuts => ?_, fun _ => rfl⟩
    obtain ⟨hdatagram, hpos, hmax, -, -⟩ := hcuts
    simp [hdatagram] at hnone
    omega
  · have hdatagram : session.stats.datagram = true := by
      simpa using (not_or.mp hnone).1
    induction packets generalizing out with
    | nil =>
      cases h
      exact ⟨[], rfl, .nil⟩
    | cons packet rest ih =>
      obtain ⟨wires, hwires, h⟩ := bind_eq_ok.mp h
      obtain ⟨others, hothers, h⟩ := bind_eq_ok.mp h
      cases h
      obtain ⟨parts, rfl, hparts⟩ := ih hothers
      exact ⟨wires :: parts, rfl,
        .cons (splitInto_splitPacket hdatagram (by omega) (by omega) hwires) hparts⟩

/-- **Segmentation for a session**: every packet that needs it becomes correct segments that the
coalescer can put together again, and the others stay as they are, all in their order. -/
theorem split_into_segments (session : DataSession) (packets out : List Bytes)
    (h : splitDataSessionPacketsForMTU session packets = .ok out) :
    ∃ parts, out = parts.flatten ∧ List.Forall₂ (SplitInto session) packets parts :=
  splitInto_of_split h

end Batch

/-! ## A packet of two segments -/

/-- A datagram session with packets of at most 42 bytes. -/
def narrow : DataSession where
  stats := ⟨true, false, 42⟩
  batching := ⟨false, 0, 1, 0⟩
  native := false
  segmentFragmenting := false
  answer := fun _ => none

/-- Four bytes of payload, identification 7. -/
def fourBytes : Bytes :=
  [0x45, 0, 0, 44, 0, 7, 0x40, 0, 64, 6, 0, 0, 10, 0, 0, 1, 10, 0, 0, 2,
    0, 80, 0, 90, 0, 0, 0, 1, 0, 0, 0, 1, 0x50, 0x18, 1, 0, 0, 0, 0, 0, 1, 2, 3, 4]

/-- The second segment does not have the identification of the packet. -/
theorem second_segment_has_own_identification :
    ∃ first second, splitDataSessionPacketsForMTU narrow [fourBytes] = .ok [first, second] ∧
      uint16At fourBytes 4 = 7 ∧ uint16At second 4 = 8 := by
  have hsplit : (splitDataSessionPacketsForMTU narrow [fourBytes]).toOption.any
      (fun out => decide (out.length = 2 ∧ (out.getD 1 []).length = 42 ∧
        uint16At (out.getD 1 []) 4 = 8)) = true := by
    decide +kernel
  obtain ⟨out, hout, hstate⟩ := (Option.any_eq_true _ _).mp hsplit
  obtain ⟨htwo, -, hid⟩ := of_decide_eq_true hstate
  obtain ⟨first, second, rfl⟩ := List.length_eq_two.mp htwo
  exact ⟨first, second, toOption_eq_some.mp hout, by decide, hid⟩

/-- Two segments, of a packet with another one before it that fits. -/
theorem split_into_segments_two : ∃ first second,
    splitDataSessionPacketsForMTU narrow [[1, 2], fourBytes] = .ok [[1, 2], first, second] ∧
      ∃ parts, [[1, 2], first, second] = parts.flatten ∧
        List.Forall₂ (SplitInto narrow) [[1, 2], fourBytes] parts := by
  have hsplit : (splitDataSessionPacketsForMTU narrow [[1, 2], fourBytes]).toOption.any
      (fun out => decide (out.length = 3 ∧ out.getD 0 [] = [1, 2])) = true := by
    decide +kernel
  obtain ⟨out, hout, hstate⟩ := (Option.any_eq_true _ _).mp hsplit
  obtain ⟨hthree, hfirst⟩ := of_decide_eq_true hstate
  obtain ⟨same, first, second, rfl⟩ := List.length_eq_three.mp hthree
  obtain rfl : same = [1, 2] := hfirst
  have hok := toOption_eq_some.mp hout
  exact ⟨first, second, hok, split_into_segments narrow _ _ hok⟩

end Datapath
