/-
# IPv4 packets in the data path

The fields that the data path reads in an IPv4 packet, and the checksums that it writes
(`internal/daemon/flows.go`).

* `ipv4HeaderBounds_eq_ok` : what a packet with a readable header looks like;
* `valid_ipv4Checksum`, `valid_transportChecksum` : the checksums that are written are right.
-/
import TrustIX.Fallible
import TrustIX.InternetChecksum

namespace Datapath

open ByteEdit Fallible InternetChecksum

abbrev Bytes := List UInt8

def ethPIPv4 : ℕ := 0x0800
def ipv4MoreFragments : ℕ := 0x2000
def ipv4FragmentOffsetMask : ℕ := 0x1fff
def ipProtocolTCP : UInt8 := 6

def tcpFlagFIN : UInt8 := 0x01
def tcpFlagSYN : UInt8 := 0x02
def tcpFlagRST : UInt8 := 0x04
def tcpFlagPSH : UInt8 := 0x08
def tcpFlagACK : UInt8 := 0x10

/-! ## Fields -/

def byteAt (packet : Bytes) (i : ℕ) : UInt8 := packet.getD i 0

def uint16At (packet : Bytes) (i : ℕ) : ℕ := BigEndian.get (slice packet i 2)

def uint32At (packet : Bytes) (i : ℕ) : ℕ := BigEndian.get (slice packet i 4)

theorem byteAt_eq_slice (packet : Bytes) (i : ℕ) : byteAt packet i = byteAt (slice packet i 1) 0 := by
  simp only [byteAt, List.getD_eq_getElem?_getD]
  rw [getElem?_slice, if_pos Nat.one_pos, Nat.add_zero]

theorem byteAt_congr {a b : Bytes} {i : ℕ} (h : a[i]? = b[i]?) : byteAt a i = byteAt b i := by
  simp [byteAt, h]

theorem getElem?_of_byteAt_eq {a b : Bytes} {i : ℕ} (h : byteAt a i = byteAt b i)
    (ha : i < a.length) (hb : i < b.length) : a[i]? = b[i]? := by
  simp only [byteAt, List.getD_eq_getElem?_getD, List.getElem?_eq_getElem ha,
    List.getElem?_eq_getElem hb, Option.getD_some] at h
  rw [List.getElem?_eq_getElem ha, List.getElem?_eq_getElem hb, h]

theorem get_slice_lt (packet : Bytes) (i count : ℕ) :
    BigEndian.get (slice packet i count) < 256 ^ count := by
  have hlen : (slice packet i count).length ≤ count := by
    rw [slice, List.length_take]
    exact Nat.min_le_left _ _
  exact (BigEndian.get_lt _).trans_le (Nat.pow_le_pow_right (by decide) hlen)

theorem uint16At_lt (packet : Bytes) (i : ℕ) : uint16At packet i < 65536 := get_slice_lt packet i 2

theorem uint32At_lt (packet : Bytes) (i : ℕ) : uint32At packet i < 2 ^ 32 := get_slice_lt packet i 4

section Writes

variable {packet : Bytes}

theorem off_put {start value : ℕ} (h : start + 2 ≤ packet.length) :
    Off (fun i => start ≤ i ∧ i < start + 2) packet
      (overwrite packet start (BigEndian.put 2 value)) := by
  have hoff := @off_overwrite _ packet (BigEndian.put 2 value) start (by rwa [BigEndian.length_put])
  rwa [BigEndian.length_put] at hoff

theorem off_byte {start : ℕ} {byte : UInt8} (h : start < packet.length) :
    Off (fun i => i = start) packet (overwrite packet start [byte]) := by
  apply (off_overwrite (by simp only [List.length_singleton]; omega)).mono
  intro i hi
  simp only [List.length_singleton] at hi
  omega

theorem slice_put {start value : ℕ} (h : start + 2 ≤ packet.length) :
    slice (overwrite packet start (BigEndian.put 2 value)) start 2 = BigEndian.put 2 value := by
  have hslice := @slice_overwrite _ packet (BigEndian.put 2 value) start
    (by rwa [BigEndian.length_put])
  rwa [BigEndian.length_put] at hslice

theorem byteAt_off {written : ℕ → Prop} {packet' : Bytes} {i : ℕ} (h : Off written packet packet')
    (hi : ¬written i) : byteAt packet' i = byteAt packet i := by
  simp [byteAt, h.2 i hi]

theorem byteAt_byte {start : ℕ} {byte : UInt8} (h : start < packet.length) :
    byteAt (overwrite packet start [byte]) start = byte := by
  rw [byteAt, List.getD_eq_getElem?_getD,
    getElem?_overwrite (by simp only [List.length_singleton]; omega), if_pos (by simp)]
  simp

theorem slice_drop (packet : Bytes) (n start count : ℕ) :
    slice (packet.drop n) start count = slice packet (n + start) count := by
  rw [slice, slice, List.drop_drop]

end Writes

/-- The place of the IPv4 header, its length and the length of the packet. -/
def ipv4HeaderBounds (packet : Bytes) : Except String (ℕ × ℕ × ℕ) := do
  let ipOffset := if packet.length ≥ 14 ∧ uint16At packet 12 = ethPIPv4 then 14 else 0
  rejectIf (packet.length < ipOffset + 20)
    ("packet is too short for IPv4: " ++ toString ((packet.length : ℤ) - ipOffset) ++ " bytes")
  let ip := packet.drop ipOffset
  rejectIf (byteAt ip 0 >>> 4 ≠ 4) "packet is not IPv4"
  let ihl := (byteAt ip 0 &&& 0x0f).toNat * 4
  rejectIf (ihl < 20 ∨ ip.length < ihl) ("invalid IPv4 header length " ++ toString ihl)
  let totalLen := uint16At ip 2
  rejectIf (totalLen < ihl ∨ totalLen > ip.length)
    ("invalid IPv4 total length " ++ toString totalLen ++ " for " ++ toString ip.length ++
      "-byte packet")
  .ok (ipOffset, ihl, totalLen)

/-- The IPv4 header stands at a place of a packet. -/
structure HeaderAt (packet : Bytes) (ipOffset ihl totalLen : ℕ) : Prop where
  offset : (if packet.length ≥ 14 ∧ uint16At packet 12 = ethPIPv4 then 14 else 0) = ipOffset
  version : byteAt packet ipOffset >>> 4 = 4
  ihl_eq : ihl = (byteAt packet ipOffset &&& 0x0f).toNat * 4
  ihl_ge : 20 ≤ ihl
  total_eq : totalLen = uint16At packet (ipOffset + 2)
  header_le : ihl ≤ totalLen
  total_le : ipOffset + totalLen ≤ packet.length

theorem byteAt_drop (packet : Bytes) (n i : ℕ) : byteAt (packet.drop n) i = byteAt packet (n + i) := by
  rw [byteAt_eq_slice, slice_drop, ← byteAt_eq_slice]

theorem uint16At_drop (packet : Bytes) (n i : ℕ) :
    uint16At (packet.drop n) i = uint16At packet (n + i) := by
  rw [uint16At, slice_drop, uint16At]

theorem headerAt_iff {packet : Bytes} {ipOffset ihl totalLen : ℕ} :
    ipv4HeaderBounds packet = .ok (ipOffset, ihl, totalLen) ↔
      HeaderAt packet ipOffset ihl totalLen := by
  constructor
  · intro h
    unfold ipv4HeaderBounds at h
    simp only [byteAt_drop, uint16At_drop, List.length_drop, Nat.add_zero] at h
    obtain ⟨hlen, h⟩ := seq_eq_ok.mp h
    obtain ⟨hversion, h⟩ := seq_eq_ok.mp h
    obtain ⟨hihl, h⟩ := seq_eq_ok.mp h
    obtain ⟨htotal, h⟩ := seq_eq_ok.mp h
    rw [rejectIf_eq_ok] at hlen hversion hihl htotal
    obtain ⟨hoffset, h⟩ := Prod.mk.inj (Except.ok.inj h)
    obtain ⟨rfl, rfl⟩ := Prod.mk.inj h
    rw [hoffset] at hlen hversion hihl htotal ⊢
    exact ⟨hoffset, not_not.mp hversion, rfl, by omega, rfl, by omega, by omega⟩
  · rintro ⟨hoffset, hversion, rfl, hihl, rfl, hheader, htotal⟩
    unfold ipv4HeaderBounds
    simp only [hoffset, byteAt_drop, uint16At_drop, List.length_drop, Nat.add_zero]
    rw [rejectIf_eq_ok.mpr (by omega), ok_bind, rejectIf_eq_ok.mpr (not_not.mpr hversion), ok_bind,
      rejectIf_eq_ok.mpr (by omega), ok_bind, rejectIf_eq_ok.mpr (by omega), ok_bind]

/-- What begins with its header has no type of a frame where that would stand. -/
theorem HeaderAt.bare {packet : Bytes} {ipOffset ihl totalLen : ℕ}
    (h : HeaderAt packet ipOffset ihl totalLen) (hraw : ipOffset = 0) :
    uint16At packet 12 ≠ ethPIPv4 := by
  intro hether
  have hoffset := h.offset
  have htotal := h.total_le
  have hheader := h.header_le
  have hihl := h.ihl_ge
  rw [if_pos ⟨by omega, hether⟩] at hoffset
  omega

/-- **The header stands where it stood** when first byte and length are not written; a packet
without a frame must not look like a frame now. -/
theorem HeaderAt.of_off {packet out : Bytes} {ipOffset ihl totalLen : ℕ} {written : ℕ → Prop}
    (h : HeaderAt packet ipOffset ihl totalLen)
    (hoff : Off (fun i => ipOffset ≤ i ∧ written (i - ipOffset)) packet out)
    (hkept : ¬written 0 ∧ ¬written 2 ∧ ¬written 3) (hraw : ipOffset = 0 → uint16At out 12 ≠ ethPIPv4) :
    HeaderAt out ipOffset ihl totalLen := by
  obtain ⟨hoffset, hversion, hihl, hmin, htotal, hle, hroom⟩ := h
  have hfirst : byteAt out ipOffset = byteAt packet ipOffset :=
    byteAt_off hoff (by rw [Nat.sub_self]; exact fun hwritten => hkept.1 hwritten.2)
  have hlength : uint16At out (ipOffset + 2) = uint16At packet (ipOffset + 2) := by
    unfold uint16At
    rw [hoff.slice]
    rintro i hlow hhigh ⟨-, hwritten⟩
    obtain hi | hi : i - ipOffset = 2 ∨ i - ipOffset = 3 := by omega
    · exact hkept.2.1 (hi ▸ hwritten)
    · exact hkept.2.2 (hi ▸ hwritten)
  refine ⟨?_, ?_, ?_, hmin, ?_, hle, ?_⟩
  · by_cases hframe : packet.length ≥ 14 ∧ uint16At packet 12 = ethPIPv4
    · rw [if_pos hframe] at hoffset
      subst hoffset
      have hether : uint16At out 12 = ethPIPv4 := by
        rw [uint16At, hoff.slice (by omega)]
        exact hframe.2
      exact if_pos ⟨by rw [hoff.1]; exact hframe.1, hether⟩
    · rw [if_neg hframe] at hoffset
      rw [if_neg fun hframed => hraw hoffset.symm hframed.2]
      exact hoffset
  · rw [hfirst]
    exact hversion
  · rw [hfirst]
    exact hihl
  · rw [hlength]
    exact htotal
  · rw [hoff.1]
    exact hroom

/-- A packet that begins with its IPv4 header. -/
structure Bounds (packet : Bytes) (ihl totalLen : ℕ) : Prop where
  bare : uint16At packet 12 ≠ ethPIPv4
  version : byteAt packet 0 >>> 4 = 4
  ihl_eq : ihl = (byteAt packet 0 &&& 0x0f).toNat * 4
  ihl_ge : 20 ≤ ihl
  total_eq : totalLen = uint16At packet 2
  header_le : ihl ≤ totalLen
  total_le : totalLen ≤ packet.length

theorem ipv4HeaderBounds_eq_ok {packet : Bytes} {ihl totalLen : ℕ} :
    ipv4HeaderBounds packet = .ok (0, ihl, totalLen) ↔ Bounds packet ihl totalLen := by
  rw [headerAt_iff]
  constructor
  · rintro ⟨hoffset, hversion, hihl, hmin, htotal, hheader, hlen⟩
    refine ⟨fun heq => ?_, hversion, hihl, hmin, htotal, hheader, by omega⟩
    rw [if_pos ⟨by omega, heq⟩] at hoffset
    cases hoffset
  · rintro ⟨hbare, hversion, hihl, hmin, htotal, hheader, hlen⟩
    exact ⟨if_neg fun hframed => hbare hframed.2, hversion, hihl, hmin, htotal, hheader, by omega⟩

/-! ## Checksums -/

/-- `checksumAddBytes`: the words are added in 32 bits. -/
def checksumAddBytes (sum : ℕ) (payload : Bytes) : ℕ :=
  (sum + InternetChecksum.wordSum payload) % 2 ^ 32

def checksumFold (sum : ℕ) : ℕ := InternetChecksum.checksum sum

def ipv4Checksum (payload : Bytes) : ℕ := checksumFold (checksumAddBytes 0 payload)

def transportChecksum (src dst : Bytes) (protocol : UInt8) (segment : Bytes) : ℕ :=
  let sum := checksumAddBytes 0 src
  let sum := checksumAddBytes sum dst
  let sum := (sum + protocol.toNat) % 2 ^ 32
  let sum := (sum + segment.length % 2 ^ 32) % 2 ^ 32
  let sum := checksumAddBytes sum segment
  let checksum := checksumFold sum
  if checksum = 0 then 0xffff else checksum

/-- The IPv4 header has a right checksum. -/
def ValidIpv4Checksum (packet : Bytes) (ihl : ℕ) : Prop :=
  InternetChecksum.Valid (InternetChecksum.wordSum (packet.take ihl))

/-- The segment behind the header has a right checksum, with the pseudo header. -/
def ValidTCPChecksum (packet : Bytes) (ihl : ℕ) : Prop :=
  InternetChecksum.Valid (InternetChecksum.wordSum (slice packet 12 4) +
    InternetChecksum.wordSum (slice packet 16 4) + ipProtocolTCP.toNat + (packet.length - ihl) +
    InternetChecksum.wordSum (packet.drop ihl))

variable {packet : Bytes} {ihl : ℕ}

/-- **The checksum of a header** whose checksum field is zero makes it right. -/
theorem valid_ipv4Checksum (hihl : 20 ≤ ihl) (hlen : ihl ≤ packet.length)
    (hbound : packet.length ≤ 65535) (hzero : slice packet 10 2 = BigEndian.put 2 0) :
    ValidIpv4Checksum
      (overwrite packet 10 (BigEndian.put 2 (ipv4Checksum (packet.take ihl)))) ihl := by
  have htake : (packet.take ihl).length = ihl := by
    rw [List.length_take]
    omega
  have hle := wordSum_le (packet.take ihl)
  have hlt : wordSum (packet.take ihl) < 2 ^ 32 := by omega
  have hsum : checksumAddBytes 0 (packet.take ihl) = wordSum (packet.take ihl) := by
    rw [checksumAddBytes, Nat.zero_add, Nat.mod_eq_of_lt hlt]
  have hchecksum := checksum_le (wordSum (packet.take ihl))
  have hwith : Valid (0 + wordSum (packet.take ihl) + checksum (wordSum (packet.take ihl))) := by
    rw [Nat.zero_add]
    exact valid_add_checksum hlt
  have hvalid := @valid_overwrite _ 10 _ _ (by omega) (by decide)
    ((slice_take (by omega)).trans hzero) (Nat.lt_succ_of_le hchecksum) hwith
  unfold ValidIpv4Checksum ipv4Checksum checksumFold
  rw [take_overwrite_of_le (by rw [BigEndian.length_put]; omega)
    (by rw [BigEndian.length_put]; omega), hsum]
  rwa [Nat.zero_add] at hvalid

/-- The words of the pseudo header of a segment. -/
def pseudoSum (packet : Bytes) (protocol : UInt8) (count : ℕ) : ℕ :=
  InternetChecksum.wordSum (slice packet 12 4) + InternetChecksum.wordSum (slice packet 16 4) +
    protocol.toNat + count

/-- The checksum that is stored completes the sum of the pseudo header and the segment, and it is
not zero. -/
theorem transportChecksum_spec {protocol : UInt8} {segment : Bytes} (hlen : 20 ≤ packet.length)
    (hbound : segment.length ≤ 65535) (hprotocol : 0 < protocol.toNat) :
    ∃ value, transportChecksum (slice packet 12 4) (slice packet 16 4) protocol segment = value ∧
      0 < value ∧ value < 65536 ∧
      Valid (pseudoSum packet protocol segment.length + wordSum segment + value) := by
  have hsrc := wordSum_le (slice packet 12 4)
  have hdst := wordSum_le (slice packet 16 4)
  have hseg := wordSum_le segment
  have hbyte := protocol.toNat_lt
  rw [length_slice (by omega)] at hsrc hdst
  unfold transportChecksum checksumAddBytes checksumFold pseudoSum
  generalize wordSum (slice packet 12 4) = src at hsrc ⊢
  generalize wordSum (slice packet 16 4) = dst at hdst ⊢
  generalize wordSum segment = body at hseg ⊢
  have hsum : (((((0 + src) % 2 ^ 32 + dst) % 2 ^ 32 + protocol.toNat) % 2 ^ 32 +
      segment.length % 2 ^ 32) % 2 ^ 32 + body) % 2 ^ 32 =
      src + dst + protocol.toNat + segment.length + body := by
    omega
  simp only [hsum]
  have hle := checksum_le (src + dst + protocol.toNat + segment.length + body)
  split_ifs with hnone
  · exact ⟨_, rfl, by omega, by omega, valid_add_of_checksum_eq_zero (by omega) (by omega) hnone⟩
  · exact ⟨_, rfl, by omega, by omega, valid_add_checksum (by omega)⟩

/-- **The checksum of a segment** whose checksum field is zero makes it right; the packet may be
longer than the segment. -/
theorem valid_segmentChecksum {protocol : UInt8} {count place : ℕ} (hihl : 20 ≤ ihl)
    (hroom : ihl + count ≤ packet.length) (hbound : packet.length ≤ 65535)
    (hprotocol : 0 < protocol.toNat) (hplace : place + 2 ≤ count) (heven : place % 2 = 0)
    (hzero : slice packet (ihl + place) 2 = BigEndian.put 2 0) :
    ∃ value, transportChecksum (slice packet 12 4) (slice packet 16 4) protocol
        (slice packet ihl count) = value ∧ 0 < value ∧ value < 65536 ∧
      Valid
        (pseudoSum (overwrite packet (ihl + place) (BigEndian.put 2 value)) protocol count +
          wordSum
            (slice (overwrite packet (ihl + place) (BigEndian.put 2 value)) ihl count)) := by
  have hcount : (slice packet ihl count).length = count := length_slice hroom
  obtain ⟨value, heq, hpos, hvalue, hvalid⟩ := @transportChecksum_spec packet protocol
    (slice packet ihl count) (by omega) (by omega) hprotocol
  refine ⟨value, heq, hpos, hvalue, ?_⟩
  have hwrite : ihl + place + (BigEndian.put 2 value).length ≤ packet.length := by
    rw [BigEndian.length_put]
    omega
  have hpseudo : pseudoSum (overwrite packet (ihl + place) (BigEndian.put 2 value)) protocol count =
      pseudoSum packet protocol count := by
    unfold pseudoSum
    rw [slice_overwrite_of_disjoint hwrite (.inl (by omega)),
      slice_overwrite_of_disjoint hwrite (.inl (by omega))]
  have hsegment : slice (overwrite packet (ihl + place) (BigEndian.put 2 value)) ihl count =
      overwrite (slice packet ihl count) place (BigEndian.put 2 value) := by
    rw [slice, drop_overwrite hwrite, take_overwrite_of_le _ (by rw [BigEndian.length_put]; omega)]
    · rfl
    · rw [BigEndian.length_put, List.length_drop]
      omega
  rw [hpseudo, hsegment]
  rw [hcount] at hvalid
  apply valid_overwrite _ heven _ hvalue hvalid
  · omega
  · rw [← hzero, ← slice_drop]
    exact slice_take hplace

/-- The same for a TCP segment, which ends with the packet. -/
theorem valid_transportChecksum (hihl : 20 ≤ ihl) (hlen : ihl + 18 ≤ packet.length)
    (hbound : packet.length ≤ 65535)
    (hzero : slice packet (ihl + 16) 2 = BigEndian.put 2 0) :
    ValidTCPChecksum (overwrite packet (ihl + 16) (BigEndian.put 2
      (transportChecksum (slice packet 12 4) (slice packet 16 4) ipProtocolTCP
        (packet.drop ihl)))) ihl := by
  have hwhole : ∀ other : Bytes, other.length = packet.length →
      slice other ihl (packet.length - ihl) = other.drop ihl := by
    intro other hother
    exact List.take_of_length_le (by rw [List.length_drop]; omega)
  obtain ⟨value, heq, -, -, hvalid⟩ := @valid_segmentChecksum packet ihl ipProtocolTCP
    (packet.length - ihl) 16 hihl (by omega) hbound (by decide) (by omega) (by decide) hzero
  have hlength : (overwrite packet (ihl + 16) (BigEndian.put 2 value)).length = packet.length :=
    length_overwrite (by rw [BigEndian.length_put]; omega)
  rw [hwhole packet rfl] at heq
  rw [hwhole _ hlength] at hvalid
  rw [heq]
  unfold ValidTCPChecksum
  rw [hlength]
  exact hvalid

end Datapath
