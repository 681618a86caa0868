/-
# What merging and cutting keep of the headers

Packets that are merged go on under one header, and a packet that is cut goes on under several
(`tcpGSOCoalescerCanAppend` in `internal/daemon/gso_coalesce.go`,
`segmentDataSessionIPv4TCPPacket` in `internal/daemon/datapath.go`, and
`lanIPv4TCPSegmentationMeta` in `internal/dataplane/ebpf/neighbor_linux.go`).

* `Gathered.compared` : packets that are merged agree in the fields that are compared;
* `fields_of_gathered` : the merged packet has the header of the first one;
* `urgentByte_segments` : where the urgent pointers of the segments of a packet lead.
-/
import TrustIX.SegmentHeaders

namespace Datapath

open ByteEdit Fallible

def tcpFlagURG : UInt8 := 0x20

/-! ## The fields of the headers -/

def ipv4Length (packet : Bytes) : ℕ := (byteAt packet 0 &&& 0x0f).toNat * 4

def tcpLength (packet : Bytes) : ℕ := (byteAt packet (ipv4Length packet + 12) >>> 4).toNat * 4

/-- The fields that two packets are compared by before they are merged. -/
structure ComparedFields where
  tos : UInt8
  ttl : UInt8
  dontFragment : ℕ
  ack : ℕ
  window : ℕ
  dataOffset : ℕ
  tcpOptions : Bytes
  deriving DecidableEq

/-- The fields that they are not compared by: the options of the IPv4 header, and the bits of
the TCP header beside its length. -/
structure OtherFields where
  ipOptions : Bytes
  reserved : UInt8
  deriving DecidableEq

def comparedFields (packet : Bytes) : ComparedFields where
  tos := byteAt packet 1
  ttl := byteAt packet 8
  dontFragment := uint16At packet 6 &&& 0x4000
  ack := uint32At packet (ipv4Length packet + 8)
  window := uint16At packet (ipv4Length packet + 14)
  dataOffset := tcpLength packet
  tcpOptions := slice packet (ipv4Length packet + 20) (tcpLength packet - 20)

def otherFields (packet : Bytes) : OtherFields where
  ipOptions := slice packet 20 (ipv4Length packet - 20)
  reserved := byteAt packet (ipv4Length packet + 12) &&& 0x0f

def SameHeader (a b : Bytes) : Prop :=
  comparedFields a = comparedFields b ∧ otherFields a = otherFields b

theorem Mergeable.lengths {packet : Bytes} {ihl tcpHeaderLen : ℕ}
    (h : Mergeable packet ihl tcpHeaderLen) :
    ipv4Length packet = ihl ∧ tcpLength packet = tcpHeaderLen := by
  have hihl : ipv4Length packet = ihl := h.bounds.ihl_eq.symm
  refine ⟨hihl, ?_⟩
  rw [tcpLength, hihl]
  exact h.tcp_eq.symm

/-- What the coalescer writes is no part of these fields. -/
theorem Mergeable.sameHeader {a b : Bytes} {ihl tcpHeaderLen : ℕ} (h : Mergeable a ihl tcpHeaderLen)
    (hsame : ∀ i < ihl + tcpHeaderLen, ¬ownPlaces ihl i → b[i]? = a[i]?) : SameHeader a b := by
  obtain ⟨hihl, htcp⟩ := h.lengths
  have hge := h.bounds.ihl_ge
  have htcpGe := h.tcp_ge
  obtain ⟨hbyte, hslice⟩ := reads_of_agree hsame
  simp only [ownPlaces] at hbyte hslice
  have hihlB : ipv4Length b = ihl := by
    rw [ipv4Length, hbyte 0 (by omega) (by omega)]
    exact hihl
  have htwelve := hbyte (ihl + 12) (by omega) (by omega)
  have htcpB : tcpLength b = tcpHeaderLen := by
    rw [← htcp, tcpLength, tcpLength, hihlB, hihl, htwelve]
  constructor
  · simp only [comparedFields, uint16At, uint32At, hihl, hihlB, htcp, htcpB]
    rw [hbyte 1 (by omega) (by omega), hbyte 8 (by omega) (by omega),
      hslice 6 2 (by omega) (by omega), hslice (ihl + 8) 4 (by omega) (by omega),
      hslice (ihl + 14) 2 (by omega) (by omega),
      hslice (ihl + 20) (tcpHeaderLen - 20) (by omega) (by omega)]
  · simp only [otherFields, hihl, hihlB, htwelve]
    rw [hslice 20 (ihl - 20) (by omega) (by omega)]

/-! ## Merging -/

section Merging

variable {maxBytes maxPackets : ℤ} {current : Coalescer} {members : List Bytes}

/-- A packet that is appended agrees with the first one in the fields that are compared. -/
theorem comparedFields_of_canAppend {first : Bytes × CoalesceMeta}
    {rest : List (Bytes × CoalesceMeta)} {packet : Bytes} {info : CoalesceMeta}
    (h : Holding maxBytes maxPackets first rest current)
    (hread : tcpGSOCoalescePacketMeta packet = some info)
    (hcan : tcpGSOCoalescerCanAppend current packet info maxBytes maxPackets = true) :
    comparedFields packet = comparedFields first.1 := by
  obtain ⟨ihl, tcpHeaderLen, hfirst, hinfo⟩ :=
    tcpGSOCoalescePacketMeta_eq_some.mp (h.reads first List.mem_cons_self)
  obtain ⟨ihl', tcpHeaderLen', hpacket, rfl⟩ := tcpGSOCoalescePacketMeta_eq_some.mp hread
  have happends := appends_of_canAppend hcan
  obtain ⟨htos, hflags, httl, hihl⟩ := happends.ipv4
  obtain ⟨htcp, -, hack, hwindow⟩ := happends.tcp
  have hoptions := happends.options
  have hroom := hfirst.payload
  have htcpGe := hfirst.tcp_ge
  rw [h.info, hinfo] at htos hflags httl hihl htcp hack hwindow hoptions
  simp only [metaOf] at htos hflags httl hihl htcp hack hwindow hoptions
  subst hihl htcp
  rw [h.packet, slice_append_left (by omega)] at hoptions
  simp [comparedFields, hfirst.lengths, hpacket.lengths, htos, hflags, httl, hack, hwindow, hoptions]

/-- **Packets that are merged agree in the fields that are compared.** -/
theorem Gathered.compared (h : Gathered maxBytes maxPackets members current) :
    ∀ member ∈ members, comparedFields member = comparedFields (members.headD []) := by
  induction h with
  | start =>
    intro member hmember
    rw [List.mem_singleton.mp hmember]
    rfl
  | @append members current packet info hold hread hcan ih =>
    obtain ⟨first, rest, rfl, hholding⟩ := hold.spec
    intro member hmember
    show comparedFields member = comparedFields first.1
    rcases List.mem_append.mp hmember with hmember | hmember
    · exact ih member hmember
    · rw [List.mem_singleton.mp hmember]
      exact comparedFields_of_canAppend hholding hread hcan

/-- **A merged packet has the header of the first one.** -/
theorem fields_of_gathered (h : Gathered maxBytes maxPackets members current)
    (hseveral : 1 < current.count) (skip : Bool) : SameHeader (members.headD [])
      (finishTCPGSOCoalescedPacket current.packet current.info skip) := by
  obtain ⟨first, rest, rfl, hholding⟩ := h.spec
  have hrest : rest ≠ [] := by
    rintro rfl
    rw [hholding.count] at hseveral
    exact lt_irrefl _ hseveral
  obtain ⟨ihl, tcpHeaderLen, hmergeable, hinfo⟩ :=
    tcpGSOCoalescePacketMeta_eq_some.mp (hholding.reads first List.mem_cons_self)
  have hihl : first.2.ihl = ihl := by
    rw [hinfo]
    rfl
  show SameHeader first.1 _
  apply hmergeable.sameHeader
  intro i hi hnot
  have hroom := hmergeable.payload
  rw [(hholding.off_finish hrest skip).2 i (by unfold ownPlaces at hnot; unfold tcpPlaces; omega),
    hholding.packet, List.getElem?_append_left (by omega)]

end Merging

/-- A packet is one of a group. -/
def InGroup (packets : List Bytes) (group : List ℕ) (packet : Bytes) : Prop :=
  ∃ i ∈ group, packets[i]? = some packet

/-- Every packet of a group has the header of what comes out for it. -/
def KeepsHeaders (packets : List Bytes) (group : List ℕ) (out : Bytes) : Prop :=
  ∀ packet, InGroup packets group packet → SameHeader packet out

/-- The packets of a group agree in the fields that are not compared. -/
def Alike (packets : List Bytes) (group : List ℕ) : Prop :=
  ∀ a b, InGroup packets group a → InGroup packets group b → otherFields a = otherFields b

theorem Members.inGroup {packets : List Bytes} {group : List ℕ} {members : List Bytes}
    (h : Members packets group members) (packet : Bytes) :
    InGroup packets group packet ↔ packet ∈ members := by
  have hmem : packet ∈ members ↔ some packet ∈ group.map fun i => packets[i]? := by
    rw [h]
    simp
  rw [hmem, List.mem_map]
  rfl

/-- **The headers of a group are kept** if its packets agree also in the other fields. -/
theorem IsFlushed.keepsHeaders_iff {packets : List Bytes} {options : CoalesceOptions}
    {maxBytes maxPackets : ℤ} {group : List ℕ} {out : Bytes}
    (h : IsFlushed packets options maxBytes maxPackets group out) :
    KeepsHeaders packets group out ↔ Alike packets group := by
  obtain ⟨members, hmembers, hout⟩ := h
  -- what comes out has the header of a packet of the group, and the compared fields of all
  obtain ⟨first, hfirst, hsame, hcompared⟩ : ∃ first ∈ members, SameHeader first out ∧
      ∀ member ∈ members, comparedFields member = comparedFields first := by
    rcases hout with rfl | ⟨current, hgathered, hseveral, rfl⟩
    · refine ⟨out, List.mem_singleton_self out, ⟨rfl, rfl⟩, fun member hmember => ?_⟩
      rw [List.mem_singleton.mp hmember]
    · refine ⟨members.headD [], ?_, fields_of_gathered hgathered hseveral _, hgathered.compared⟩
      obtain ⟨first, rest, rfl, -⟩ := hgathered.spec
      exact List.mem_cons_self
  constructor
  · intro hkeeps a b ha hb
    rw [(hkeeps a ha).2, (hkeeps b hb).2]
  · intro halike packet hpacket
    refine ⟨(hcompared packet ((hmembers.inGroup packet).mp hpacket)).trans hsame.1, ?_⟩
    exact (halike packet first hpacket ((hmembers.inGroup first).mpr hfirst)).trans hsame.2

theorem forall₂_iff_forall {α β : Type} {R S : α → β → Prop} {P : α → Prop} {as : List α}
    {bs : List β} (h : List.Forall₂ R as bs) (hiff : ∀ a b, R a b → (S a b ↔ P a)) :
    List.Forall₂ S as bs ↔ ∀ a ∈ as, P a := by
  induction h with
  | nil => simp
  | cons hfirst _ ih => rw [List.forall₂_cons, hiff _ _ hfirst, ih, List.forall_mem_cons]

/-! ## Cutting -/

/-- The urgent pointer counts. -/
def Urgent (packet : Bytes) : Prop :=
  byteAt packet (ipv4Length packet + 13) &&& tcpFlagURG ≠ 0

instance (packet : Bytes) : Decidable (Urgent packet) := inferInstanceAs (Decidable (_ ≠ _))

/-- The place in the stream to which it leads. -/
def urgentByte (packet : Bytes) : ℕ :=
  (uint32At packet (ipv4Length packet + 4) + uint16At packet (ipv4Length packet + 18)) % 2 ^ 32

theorem urgent_segmentFlags : ∀ (flags : UInt8) (last : Bool),
    segmentFlags flags last &&& tcpFlagURG = flags &&& tcpFlagURG := by
  decide +kernel

section Cutting

variable {packet : Bytes} {mtu : ℕ} {info : SegmentationMeta} {wires : List Bytes}

/-- What a segment says about urgent data. -/
theorem urgentByte_segment (hable : Segmentable packet mtu info)
    (h : SegmentsOf packet mtu info wires) {k : ℕ} {wire : Bytes} (hwire : wires[k]? = some wire) :
    (Urgent wire ↔ Urgent packet) ∧ urgentByte wire = (urgentByte packet +
      ((wires.take k).map fun wire => wire.drop info.payloadOffset).flatten.length) % 2 ^ 32 := by
  have hcopied := h.copied wire (List.mem_of_getElem? hwire)
  have htcp := hable.tcp_ge
  have hoffset := hable.offset
  simp only [segmentPlaces, segmentIPv4Places, segmentTCPPlaces] at hcopied
  have hihl : ipv4Length packet = info.ihl := hable.bounds.ihl_eq.symm
  have hihlWire : ipv4Length wire = info.ihl := by
    rw [← hihl, ipv4Length, byteAt, List.getD_eq_getElem?_getD, hcopied 0 (by omega) (by omega),
      ← List.getD_eq_getElem?_getD]
    rfl
  have hpointer : slice wire (info.ihl + 18) 2 = slice packet (info.ihl + 18) 2 :=
    slice_congr fun i hle hlt => hcopied i (by omega) (by omega)
  constructor
  · rw [Urgent, Urgent, hihl, hihlWire, h.flags k wire hwire, urgent_segmentFlags]
  · rw [urgentByte, urgentByte, hihl, hihlWire, h.seq k wire hwire, uint16At, uint16At, hpointer]
    omega

/-- **The urgent pointers of the segments** lead to the same byte only if none is set: the last
segment does not start where the packet does. -/
theorem urgentByte_segments (hable : Segmentable packet mtu info) (hlong : mtu < packet.length)
    (h : SegmentsOf packet mtu info wires) :
    (∀ wire ∈ wires, Urgent wire → urgentByte wire = urgentByte packet) ↔ ¬Urgent packet := by
  constructor
  · intro hall hurgent
    have htotal := congrArg List.length h.payload
    have hroom := hable.room
    have hbound := uint16At_lt packet 2
    rw [← hable.bounds.total_eq] at hbound
    rw [List.length_drop] at htotal
    rcases List.eq_nil_or_concat wires with rfl | ⟨front, last, hwires⟩
    · simp only [List.map_nil, List.flatten_nil, List.length_nil] at htotal
      omega
    · rw [List.concat_eq_append] at hwires
      subst hwires
      have hget : (front ++ [last])[front.length]? = some last := by simp
      obtain ⟨hiff, hbyte⟩ := urgentByte_segment hable h hget
      have hmem : last ∈ front ++ [last] := List.mem_of_getElem? hget
      have hfits := h.fits last hmem
      rw [hall last hmem (hiff.mpr hurgent), List.take_left] at hbyte
      simp only [List.map_append, List.flatten_append, List.length_append, List.map_cons,
        List.map_nil, List.flatten_cons, List.flatten_nil, List.append_nil, List.length_drop] at htotal
      omega
  · intro hnot wire hwire hurgent
    obtain ⟨k, hk⟩ := List.mem_iff_getElem?.mp hwire
    exact absurd ((urgentByte_segment hable h hk).1.mp hurgent) hnot

end Cutting

/-! ## The segmenter of the LAN -/

/-- `lanIPv4TCPSegmentMeta`. -/
structure LanSegmentMeta where
  ihl : ℕ
  tcpOffset : ℕ
  tcpHeaderLen : ℕ
  payloadOffset : ℕ
  maxPayload : ℤ

def lanExceeds (packet : Bytes) (mtu : ℤ) (reason : String) : String :=
  "mtu exceeded: LAN packet size " ++ toString packet.length ++ " exceeds MTU " ++ toString mtu ++
    reason

def lanIPv4TCPSegmentationMeta (packet : Bytes) (mtu : ℤ) : Except String LanSegmentMeta := do
  rejectIf (mtu ≤ 20 + 20)
    ("mtu exceeded: LAN MTU " ++ toString mtu ++ " cannot carry an IPv4/TCP header")
  rejectIf (packet.length < 20) (lanExceeds packet mtu " and is too short for IPv4")
  rejectIf (byteAt packet 0 >>> 4 ≠ 4) (lanExceeds packet mtu " and is not IPv4")
  let ihl := (byteAt packet 0 &&& 0x0f).toNat * 4
  rejectIf (ihl ≠ 20 ∨ packet.length < ihl)
    (lanExceeds packet mtu (" and has unsupported IPv4 header length " ++ toString ihl))
  let totalLen := uint16At packet 2
  rejectIf (totalLen ≠ packet.length)
    (lanExceeds packet mtu (" with IPv4 total length " ++ toString totalLen))
  rejectIf (byteAt packet 9 ≠ ipProtocolTCP)
    (lanExceeds packet mtu (" and protocol " ++ toString (byteAt packet 9) ++ " is not TCP"))
  rejectIf (uint16At packet 6 &&& (0x2000 ||| 0x1fff) ≠ 0)
    (lanExceeds packet mtu " and is already fragmented")
  let tcpOffset := ihl
  rejectIf (packet.length < tcpOffset + 20) (lanExceeds packet mtu " and is too short for TCP")
  let tcpHeaderLen := (byteAt packet (tcpOffset + 12) >>> 4).toNat * 4
  rejectIf (tcpHeaderLen < 20 ∨ packet.length < tcpOffset + tcpHeaderLen)
    (lanExceeds packet mtu (" and has invalid TCP header length " ++ toString tcpHeaderLen))
  let tcpFlags := byteAt packet (tcpOffset + 13)
  rejectIf (tcpFlags &&& (0x02 ||| 0x04 ||| 0x20) ≠ 0)
    (lanExceeds packet mtu (" and has unsupported TCP flags 0x" ++
      String.ofList (Nat.toDigits 16 tcpFlags.toNat)))
  let payloadOffset := tcpOffset + tcpHeaderLen
  rejectIf (packet.length - payloadOffset = 0)
    (lanExceeds packet mtu " without TCP payload to segment")
  let maxPayload := mtu - ihl - tcpHeaderLen
  rejectIf (maxPayload ≤ 0) ("mtu exceeded: LAN MTU " ++ toString mtu ++
    " cannot carry IPv4/TCP headers of " ++ toString (ihl + tcpHeaderLen) ++ " bytes")
  .ok ⟨ihl, tcpOffset, tcpHeaderLen, payloadOffset, maxPayload⟩

/-- A packet with urgent data is not cut there. -/
theorem lan_refuses_urgent {packet : Bytes} (h : Urgent packet) (mtu : ℤ) :
    ∃ text, lanIPv4TCPSegmentationMeta packet mtu = .error text := by
  cases hmeta : lanIPv4TCPSegmentationMeta packet mtu with
  | error text => exact ⟨text, rfl⟩
  | ok info =>
    simp only [lanIPv4TCPSegmentationMeta, seq_eq_ok] at hmeta
    obtain ⟨-, -, -, -, -, -, -, -, -, hflags, -⟩ := hmeta
    rw [rejectIf_eq_ok, not_not] at hflags
    have hclear : ∀ flags : UInt8, flags &&& (0x02 ||| 0x04 ||| 0x20) = 0 →
        flags &&& tcpFlagURG = 0 := by decide +kernel
    exact absurd (hclear _ hflags) h

/-! ## Headers that are kept -/

/-- **Where no header information is lost.**  Merging keeps the headers of a group of packets if
and only if they agree in the options of the IPv4 header and the reserved bits, which are not
compared.  Cutting keeps the place of urgent data only for packets without any; the segmenter of
the LAN refuses the others. -/
theorem headers_kept_iff (packets : List Bytes) (enabled : Bool) (maxBytes maxPackets : ℤ)
    (options : CoalesceOptions) (packet : Bytes) (mtu : ℕ) (wires : List Bytes)
    (hlong : mtu < packet.length) (hcut : segmentDataSessionIPv4TCPPacket packet mtu = .ok wires) :
    (∃ groups, Regroups packets groups ∧
      List.Forall₂ (IsOutput packets options maxBytes maxPackets) groups
        (coalesceDataSessionTCPLocalPackets packets enabled maxBytes maxPackets options).1 ∧
      (List.Forall₂ (KeepsHeaders packets) groups
          (coalesceDataSessionTCPLocalPackets packets enabled maxBytes maxPackets options).1 ↔
        ∀ group ∈ groups, Alike packets group)) ∧
    ((∀ wire ∈ wires, Urgent wire → urgentByte wire = urgentByte packet) ↔ ¬Urgent packet) ∧
    (Urgent packet → ∀ lanMTU, ∃ text, lanIPv4TCPSegmentationMeta packet lanMTU = .error text) := by
  refine ⟨?_, ?_, fun hurgent lanMTU => lan_refuses_urgent hurgent lanMTU⟩
  · obtain ⟨groups, hgroups, hout⟩ :=
      (represents_coalesce packets enabled maxBytes maxPackets options).regroups
    exact ⟨groups, hgroups, hout.imp fun _ _ => IsFlushed.isOutput,
      forall₂_iff_forall hout fun _ _ => IsFlushed.keepsHeaders_iff⟩
  · obtain ⟨info, hmeta, rfl⟩ := segmentLoop_of_segment hlong hcut
    exact urgentByte_segments (segmentable_of_meta hmeta) hlong (segmentsOf_segmentLoop hmeta)

/-- A packet with an option in the IPv4 header. -/
def optionPacket (option seq offset : UInt8) (payload : Bytes) : Bytes :=
  [0x46, 0, 0, 44 + UInt8.ofNat payload.length, 0, 1, 0x40, 0, 64, 6, 0, 0, 10, 0, 0, 1, 10, 0, 0, 2,
    option, 0, 0, 0, 0, 80, 0, 81, 0, 0, 0, seq, 0, 0, 0, 9, offset, 0x10, 0x20, 0, 0, 0, 0, 0] ++
    payload

/-- Two packets of one flow are merged, and the option and the reserved bits of the second one are
lost; and of a packet with urgent data the second segment points elsewhere. -/
theorem headers_lost :
    (coalesceDataSessionTCPLocalPackets
        [optionPacket 1 1 0x50 [7], optionPacket 0x94 2 0x51 [8]] true 65535 128 ⟨0, true⟩).1.map
      (fun out => (otherFields out, out.drop 44)) = [(⟨[1, 0, 0, 0], 0⟩, [7, 8])] ∧
    otherFields (optionPacket 0x94 2 0x51 [8]) = ⟨[0x94, 0, 0, 0], 1⟩ ∧
    (segmentDataSessionIPv4TCPPacket (samplePacket 1 0x30 [5, 6]) 41).toOption.map
      (fun wires => wires.map fun wire => (decide (Urgent wire), urgentByte wire)) =
        some [(true, 1), (true, 2)] ∧
    urgentByte (samplePacket 1 0x30 [5, 6]) = 1 := by
  decide +kernel

/-- A packet without urgent data that is cut. -/
theorem headers_kept_iff_plain :
    ¬Urgent (samplePacket 1 0x10 [5, 6]) ∧
    ∃ wires, segmentDataSessionIPv4TCPPacket (samplePacket 1 0x10 [5, 6]) 41 = .ok wires ∧
      ((∀ wire ∈ wires, Urgent wire → urgentByte wire = urgentByte (samplePacket 1 0x10 [5, 6])) ↔
        ¬Urgent (samplePacket 1 0x10 [5, 6])) := by
  refine ⟨by decide +kernel, ?_⟩
  cases hcut : segmentDataSessionIPv4TCPPacket (samplePacket 1 0x10 [5, 6]) 41 with
  | error text =>
    have hok : (segmentDataSessionIPv4TCPPacket (samplePacket 1 0x10 [5, 6]) 41).toBool = true := by
      decide +kernel
    rw [hcut] at hok
    cases hok
  | ok wires =>
    exact ⟨wires, rfl, (headers_kept_iff [] true 1 2 ⟨0, true⟩ _ 41 wires (by decide) hcut).2.1⟩

end Datapath
