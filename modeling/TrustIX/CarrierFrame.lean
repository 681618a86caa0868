/-
# Frames of the tunnel carrier

A tunnel carries packets in UDP datagrams: whole, or in fragments with a second header
(`internal/transport/iptunnel/carrier.go`).

* `build_eq_ok` : the frames of a packet are the pieces of one size, each behind its header;
* `length_wire_frameAt` : they fit the datagrams that the MTU allows;
* `decode_frameAt` : they are read back as they were built.
-/
import TrustIX.BigEndian
import TrustIX.Fallible

namespace IPTunnel

open Fallible

abbrev Bytes := List UInt8

/-! ## The format -/

def carrierHeaderLen : ℕ := 16
def carrierFragmentHeaderLen : ℕ := 8
def carrierIPv4UDPHeaderLen : ℕ := 20 + 8
def carrierVersion : UInt8 := 1
def carrierTypeData : UInt8 := 1
def carrierTypeFragment : UInt8 := 2
def carrierMaxPacket : ℕ := 512 * 1024
def carrierMaxUDPPayload : ℕ := 65507
def carrierMaxUnfragmentedPacket : ℕ := carrierMaxUDPPayload - carrierHeaderLen
def carrierMagic : Bytes := [0x54, 0x49, 0x58, 0x47]

/-- `carrierBatchPacket`: what is sent as one datagram. -/
structure BatchPacket where
  header : Bytes
  payload : Bytes
  deriving DecidableEq

def BatchPacket.wire (packet : BatchPacket) : Bytes := packet.header ++ packet.payload

/-- `carrierReceivedPacket`, without its buffers and address. -/
structure ReceivedPacket where
  payload : Bytes
  wireLen : ℕ
  sequence : ℕ
  frameType : UInt8
  totalLen : ℕ
  offset : ℕ
  deriving DecidableEq

/-- `encodeCarrierTypedHeaderInto`, for a buffer that is long enough. -/
def encodeCarrierTypedHeader (frameType : UInt8) (payloadLen sequence : ℕ) :
    Except String Bytes := do
  rejectIf (payloadLen > carrierMaxPacket)
    ("tunnel carrier packet size " ++ toString payloadLen ++ " exceeds max " ++
      toString carrierMaxPacket)
  rejectIf (payloadLen > carrierMaxUnfragmentedPacket)
    ("tunnel carrier packet size " ++ toString payloadLen ++ " exceeds header capacity")
  .ok (carrierMagic ++ [carrierVersion, frameType] ++ BigEndian.put 2 payloadLen ++
    BigEndian.put 8 sequence)

def encodeCarrierFragmentHeader (fragmentLen sequence totalLen offset : ℕ) :
    Except String Bytes := do
  rejectIf (totalLen = 0 ∨ totalLen > carrierMaxPacket)
    ("tunnel carrier fragment total size " ++ toString totalLen ++ " exceeds max " ++
      toString carrierMaxPacket)
  rejectIf (fragmentLen = 0 ∨ offset + fragmentLen > totalLen)
    ("invalid tunnel carrier fragment offset=" ++ toString offset ++ " len=" ++
      toString fragmentLen ++ " total=" ++ toString totalLen)
  let header ← encodeCarrierTypedHeader carrierTypeFragment (carrierFragmentHeaderLen + fragmentLen)
    sequence
  .ok (header ++ BigEndian.put 4 totalLen ++ BigEndian.put 4 offset)

def decodeCarrierFrameView (wire : Bytes) : Except String ReceivedPacket := do
  rejectIf (wire.length < carrierHeaderLen)
    ("tunnel carrier frame too short: " ++ toString wire.length)
  rejectIf (wire.take 4 ≠ carrierMagic ∨ wire.getD 4 0 ≠ carrierVersion)
    "invalid tunnel carrier header"
  let frameType := wire.getD 5 0
  let payloadLen := BigEndian.get ((wire.drop 6).take 2)
  rejectIf (payloadLen ≠ wire.length - carrierHeaderLen)
    ("tunnel carrier payload length " ++ toString payloadLen ++ " != wire payload " ++
      toString (wire.length - carrierHeaderLen))
  let sequence := BigEndian.get ((wire.drop 8).take 8)
  let payload := wire.drop carrierHeaderLen
  if frameType = carrierTypeData then
    .ok ⟨payload, wire.length, sequence, frameType, 0, 0⟩
  else if frameType = carrierTypeFragment then do
    rejectIf (payloadLen < carrierFragmentHeaderLen)
      ("tunnel carrier fragment payload too short: " ++ toString payloadLen)
    let totalLen := BigEndian.get (payload.take 4)
    let offset := BigEndian.get ((payload.drop 4).take 4)
    let fragment := payload.drop carrierFragmentHeaderLen
    rejectIf (totalLen = 0 ∨ totalLen > carrierMaxPacket)
      ("tunnel carrier fragment total size " ++ toString totalLen ++ " exceeds max " ++
        toString carrierMaxPacket)
    rejectIf (fragment = [] ∨ offset + fragment.length > totalLen)
      ("invalid tunnel carrier fragment offset=" ++ toString offset ++ " len=" ++
        toString fragment.length ++ " total=" ++ toString totalLen)
    .ok ⟨fragment, wire.length, sequence, frameType, totalLen, offset⟩
  else .error ("unsupported tunnel carrier frame type " ++ toString frameType)

/-! ## Sizes -/

def carrierUDPPayloadSizeForMTU (mtu : ℤ) : ℤ :=
  if mtu ≤ carrierIPv4UDPHeaderLen then 0
  else min (mtu - carrierIPv4UDPHeaderLen) carrierMaxUDPPayload

def carrierMaxFragmentPayloadForMTUWithMode (mtu : ℤ) (kernelFragment : Bool) : ℤ :=
  if kernelFragment then
    (carrierMaxUDPPayload : ℤ) - carrierHeaderLen - carrierFragmentHeaderLen
  else
    let maxPayload := carrierUDPPayloadSizeForMTU mtu - carrierHeaderLen - carrierFragmentHeaderLen
    let wireMax := (carrierMaxUnfragmentedPacket : ℤ) - carrierFragmentHeaderLen
    if maxPayload > wireMax then wireMax else maxPayload

/-- The datagrams that a carrier reads. -/
def carrierReadWireSizeForMTUWithMode (mtu : ℤ) (kernelFragment : Bool) : ℤ :=
  if kernelFragment then carrierMaxUDPPayload else carrierUDPPayloadSizeForMTU mtu

def carrierPacketFragmentCountWithMode (packetLen : ℕ) (mtu : ℤ) (kernelFragment : Bool) :
    Except String ℕ :=
  if packetLen = 0 then .ok 0
  else do
    rejectIf (packetLen > carrierMaxPacket)
      ("tunnel carrier packet size " ++ toString packetLen ++ " exceeds max " ++
        toString carrierMaxPacket)
    let maxPayload := carrierMaxFragmentPayloadForMTUWithMode mtu kernelFragment
    rejectIf (maxPayload ≤ 0)
      ("tunnel carrier mtu " ++ toString mtu ++ " cannot carry fragment header")
    .ok ((packetLen + maxPayload.toNat - 1) / maxPayload.toNat)

/-- The loop of `buildCarrierFragmentPacketsWithMode`, from an offset on, for as many frames
as there is room for. -/
def buildLoop (pkt : Bytes) (sequence maxPayload : ℕ) : ℕ → ℕ → Except String (List BatchPacket)
  | 0, _ => .ok []
  | room + 1, offset =>
    if offset < pkt.length then do
      let stop := min (offset + maxPayload) pkt.length
      let header ← encodeCarrierFragmentHeader (stop - offset) sequence pkt.length offset
      let rest ← buildLoop pkt sequence maxPayload room (offset + maxPayload)
      .ok (⟨header, (pkt.drop offset).take (stop - offset)⟩ :: rest)
    else .ok []

def buildCarrierFragmentPacketsWithMode (pkt : Bytes) (sequence : ℕ) (mtu : ℤ)
    (kernelFragment : Bool) : Except String (List BatchPacket) := do
  let fragments ← carrierPacketFragmentCountWithMode pkt.length mtu kernelFragment
  buildLoop pkt sequence (carrierMaxFragmentPayloadForMTUWithMode mtu kernelFragment).toNat
    fragments 0

/-! ## The frames of a packet -/

/-- Piece `i` of a packet cut into pieces of size `size`. -/
def piece (pkt : Bytes) (size i : ℕ) : Bytes := (pkt.drop (i * size)).take size

/-- How many pieces there are. -/
def pieceCount (pkt : Bytes) (size : ℕ) : ℕ := (pkt.length + size - 1) / size

/-- The header of a fragment. -/
def fragmentHeader (fragmentLen sequence totalLen offset : ℕ) : Bytes :=
  carrierMagic ++ [carrierVersion, carrierTypeFragment] ++
    BigEndian.put 2 (carrierFragmentHeaderLen + fragmentLen) ++ BigEndian.put 8 sequence ++
    BigEndian.put 4 totalLen ++ BigEndian.put 4 offset

/-- Frame `i` of a packet. -/
def frameAt (pkt : Bytes) (sequence size i : ℕ) : BatchPacket :=
  ⟨fragmentHeader (piece pkt size i).length sequence pkt.length (i * size), piece pkt size i⟩

variable {pkt : Bytes} {sequence size i : ℕ}

theorem length_piece : (piece pkt size i).length = min size (pkt.length - i * size) := by
  unfold piece
  rw [List.length_take, List.length_drop]

theorem lt_pieceCount (hsize : 0 < size) : i < pieceCount pkt size ↔ i * size < pkt.length := by
  unfold pieceCount
  rw [Nat.lt_iff_add_one_le, Nat.le_div_iff_mul_le hsize, Nat.add_one_mul]
  omega

theorem encodeCarrierFragmentHeader_eq_ok {fragmentLen totalLen offset : ℕ}
    (htotal : totalLen ≤ carrierMaxPacket) (hlen : 0 < fragmentLen)
    (hinside : offset + fragmentLen ≤ totalLen)
    (hfits : carrierFragmentHeaderLen + fragmentLen ≤ carrierMaxUnfragmentedPacket) :
    encodeCarrierFragmentHeader fragmentLen sequence totalLen offset =
      .ok (fragmentHeader fragmentLen sequence totalLen offset) := by
  have hcapacity : carrierMaxUnfragmentedPacket ≤ carrierMaxPacket := by decide
  unfold encodeCarrierFragmentHeader encodeCarrierTypedHeader
  rw [rejectIf_eq_ok.mpr (by omega), ok_bind, rejectIf_eq_ok.mpr (by omega), ok_bind,
    rejectIf_eq_ok.mpr (by omega), ok_bind, rejectIf_eq_ok.mpr (by omega), ok_bind, ok_bind]
  rfl

/-- The loop builds the frames from the one at its offset on. -/
theorem buildLoop_eq_ok (hpkt : pkt.length ≤ carrierMaxPacket) (hsize : 0 < size)
    (hfits : carrierFragmentHeaderLen + size ≤ carrierMaxUnfragmentedPacket) (room first : ℕ)
    (hroom : first + room = pieceCount pkt size) :
    buildLoop pkt sequence size room (first * size) =
      .ok ((List.range' first room).map (frameAt pkt sequence size)) := by
  induction room generalizing first with
  | zero => rfl
  | succ room ih =>
    have hoffset : first * size < pkt.length := (lt_pieceCount hsize).mp (by omega)
    have hstop : min (first * size + size) pkt.length - first * size =
        (piece pkt size first).length := by
      rw [length_piece]
      omega
    have hpiece : (pkt.drop (first * size)).take (piece pkt size first).length =
        piece pkt size first := by
      unfold piece
      rw [List.length_take, List.take_eq_take_iff]
      omega
    rw [buildLoop, if_pos hoffset]
    simp only [hstop, hpiece]
    rw [encodeCarrierFragmentHeader_eq_ok hpkt (by omega) (by omega) (by omega), ok_bind,
      ← Nat.succ_mul, ih (first + 1) (by omega), ok_bind, List.range'_succ, List.map_cons]
    rfl

theorem maxFragmentPayload_le (mtu : ℤ) (kernelFragment : Bool) :
    carrierFragmentHeaderLen + carrierMaxFragmentPayloadForMTUWithMode mtu kernelFragment ≤
      carrierMaxUnfragmentedPacket := by
  unfold carrierMaxFragmentPayloadForMTUWithMode
  simp only [carrierMaxUnfragmentedPacket, carrierMaxUDPPayload, carrierHeaderLen,
    carrierFragmentHeaderLen]
  split_ifs <;> omega

/-- **The frames of a packet** are its pieces behind their headers. -/
theorem build_eq_ok {mtu : ℤ} {kernelFragment : Bool} (hpos : 0 < pkt.length)
    (hpkt : pkt.length ≤ carrierMaxPacket)
    (hmtu : 0 < carrierMaxFragmentPayloadForMTUWithMode mtu kernelFragment) :
    buildCarrierFragmentPacketsWithMode pkt sequence mtu kernelFragment =
      .ok ((List.range (pieceCount pkt
        (carrierMaxFragmentPayloadForMTUWithMode mtu kernelFragment).toNat)).map
          (frameAt pkt sequence
            (carrierMaxFragmentPayloadForMTUWithMode mtu kernelFragment).toNat)) := by
  have hle := maxFragmentPayload_le mtu kernelFragment
  unfold buildCarrierFragmentPacketsWithMode carrierPacketFragmentCountWithMode
  simp only
  generalize carrierMaxFragmentPayloadForMTUWithMode mtu kernelFragment = payload at *
  rw [if_neg (by omega), rejectIf_eq_ok.mpr (by omega), ok_bind, rejectIf_eq_ok.mpr (by omega),
    ok_bind, ok_bind, List.range_eq_range', ← pieceCount]
  have hloop := @buildLoop_eq_ok pkt sequence payload.toNat hpkt (by omega) (by omega)
    (pieceCount pkt payload.toNat) 0 (by omega)
  rwa [Nat.zero_mul] at hloop

theorem length_fragmentHeader (fragmentLen sequence totalLen offset : ℕ) :
    (fragmentHeader fragmentLen sequence totalLen offset).length =
      carrierHeaderLen + carrierFragmentHeaderLen := by
  simp [fragmentHeader, carrierMagic, carrierHeaderLen, carrierFragmentHeaderLen]

/-- **Every frame fits** the datagrams that the MTU allows. -/
theorem length_wire_frameAt {mtu : ℤ} {kernelFragment : Bool}
    (hmtu : 0 < carrierMaxFragmentPayloadForMTUWithMode mtu kernelFragment) :
    ((frameAt pkt sequence
      (carrierMaxFragmentPayloadForMTUWithMode mtu kernelFragment).toNat i).wire.length : ℤ) ≤
      carrierReadWireSizeForMTUWithMode mtu kernelFragment := by
  have hpiece : (piece pkt (carrierMaxFragmentPayloadForMTUWithMode mtu kernelFragment).toNat
      i).length ≤ (carrierMaxFragmentPayloadForMTUWithMode mtu kernelFragment).toNat := by
    rw [length_piece]
    exact min_le_left _ _
  have hsize : carrierMaxFragmentPayloadForMTUWithMode mtu kernelFragment ≤
      carrierReadWireSizeForMTUWithMode mtu kernelFragment - carrierHeaderLen -
        carrierFragmentHeaderLen := by
    unfold carrierMaxFragmentPayloadForMTUWithMode carrierReadWireSizeForMTUWithMode
    simp only
    split_ifs <;> omega
  unfold BatchPacket.wire frameAt
  rw [List.length_append, length_fragmentHeader]
  push_cast
  omega

/-- **A frame is read back** as it was built. -/
theorem decode_frameAt (hpkt : pkt.length ≤ carrierMaxPacket) (hsize : 0 < size)
    (hfits : carrierFragmentHeaderLen + size ≤ carrierMaxUnfragmentedPacket)
    (hsequence : sequence < 2 ^ 64) (hi : i < pieceCount pkt size) :
    decodeCarrierFrameView (frameAt pkt sequence size i).wire =
      .ok ⟨piece pkt size i, (frameAt pkt sequence size i).wire.length, sequence,
        carrierTypeFragment, pkt.length, i * size⟩ := by
  have hoffset := (lt_pieceCount hsize).mp hi
  have hlength := @length_piece pkt size i
  have hmax : carrierMaxPacket = 524288 := rfl
  have hcapacity : carrierMaxUnfragmentedPacket = 65491 := rfl
  have hheader : carrierFragmentHeaderLen = 8 := rfl
  generalize hwire : (frameAt pkt sequence size i).wire = wire
  generalize hpiece : piece pkt size i = payload at *
  have hbytes : wire = fragmentHeader payload.length sequence pkt.length (i * size) ++ payload := by
    rw [← hwire, ← hpiece]
    rfl
  have htotal : wire.length = 24 + payload.length := by
    rw [hbytes, List.length_append, length_fragmentHeader]
    rfl
  have hmagic : wire.take 4 = carrierMagic ∧ wire.getD 4 0 = carrierVersion ∧
      wire.getD 5 0 = carrierTypeFragment := by
    rw [hbytes]
    exact ⟨rfl, rfl, rfl⟩
  have hlen : BigEndian.get ((wire.drop 6).take 2) = 8 + payload.length := by
    have : (wire.drop 6).take 2 = BigEndian.put 2 (carrierFragmentHeaderLen + payload.length) := by
      rw [hbytes]
      rfl
    rw [this, BigEndian.get_put_of_lt (by omega), hheader]
  have hseq : BigEndian.get ((wire.drop 8).take 8) = sequence := by
    have : (wire.drop 8).take 8 = BigEndian.put 8 sequence := by
      rw [hbytes]
      rfl
    rw [this, BigEndian.get_put_of_lt (by omega)]
  have hrest : wire.drop carrierHeaderLen =
      BigEndian.put 4 pkt.length ++ (BigEndian.put 4 (i * size) ++ payload) := by
    rw [hbytes]
    rfl
  have hsum : BigEndian.get ((wire.drop carrierHeaderLen).take 4) = pkt.length := by
    rw [hrest, List.take_left' (BigEndian.length_put 4 _), BigEndian.get_put_of_lt (by omega)]
  have hstart : BigEndian.get (((wire.drop carrierHeaderLen).drop 4).take 4) = i * size := by
    rw [hrest, List.drop_left' (BigEndian.length_put 4 _),
      List.take_left' (BigEndian.length_put 4 _), BigEndian.get_put_of_lt (by omega)]
  have hfragment : (wire.drop carrierHeaderLen).drop carrierFragmentHeaderLen = payload := by
    rw [hrest]
    rfl
  have hne : payload ≠ [] := by
    rw [← List.length_pos_iff]
    omega
  unfold decodeCarrierFrameView
  simp only [hmagic.2.2, hlen, hseq, hsum, hstart, hfragment]
  have hnotData : carrierTypeFragment ≠ carrierTypeData := by decide
  have hheaderLen : carrierHeaderLen = 16 := rfl
  rw [rejectIf_eq_ok.mpr (by omega), ok_bind,
    rejectIf_eq_ok.mpr (not_or.mpr ⟨not_not.mpr hmagic.1, not_not.mpr hmagic.2.1⟩), ok_bind,
    rejectIf_eq_ok.mpr (by omega), ok_bind, if_neg hnotData, if_pos trivial,
    rejectIf_eq_ok.mpr (by omega), ok_bind, rejectIf_eq_ok.mpr (by omega), ok_bind,
    rejectIf_eq_ok.mpr (by simp only [hne, false_or]; omega), ok_bind]

end IPTunnel
