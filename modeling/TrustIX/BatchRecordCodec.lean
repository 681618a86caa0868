/-
# The codec of batch records

The packets of a batch are written into a record of a size that was computed before
(`sendSecureBatchRecord` in `internal/transport/secure/secure.go`), and the receiver cuts the
opened record at the sizes that it states.

* `writeBatchRecord_eq` : the record is filled, whatever was in the buffer;
* `batchPlaintext_of_append` : what is cut up is put together again.
-/
import TrustIX.ByteEdit
import TrustIX.SecureRecord

namespace SecureTransport

open SecureHandshake ByteEdit Fallible

/-- The loop of `sendSecureBatchRecord`: the size and the bytes of every packet. -/
def writeBatchPackets : List Bytes → ℕ → ℕ → Bytes → Bytes
  | [], _, _, plaintext => plaintext
  | packet :: rest, lengthOffset, payloadOffset, plaintext =>
    let plaintext := overwrite plaintext lengthOffset
      (BigEndian.put secureBatchRecordLengthLen packet.length)
    let plaintext := overwrite plaintext payloadOffset packet
    writeBatchPackets rest (lengthOffset + secureBatchRecordLengthLen)
      (payloadOffset + packet.length) plaintext

/-- The plaintext of a batch record, built in the buffer that was reserved for it. -/
def writeBatchRecord (packets : List Bytes) (plaintext : Bytes) : Bytes :=
  writeBatchPackets packets secureBatchRecordHeaderLen
    (secureBatchRecordHeaderLen + packets.length * secureBatchRecordLengthLen)
    (overwrite plaintext 0 (BigEndian.put secureBatchRecordHeaderLen packets.length))

/-! ## Writing -/

/-- Sizes go behind what is written in front, packets behind the packets that are written. -/
theorem writeBatchPackets_eq {packets : List Bytes} {front gap done tail : Bytes}
    (hgap : gap.length = packets.length * secureBatchRecordLengthLen)
    (htail : tail.length = packets.flatten.length) :
    writeBatchPackets packets front.length (front.length + gap.length + done.length)
        (front ++ (gap ++ (done ++ tail))) =
      front ++ (packets.flatMap (fun packet =>
        BigEndian.put secureBatchRecordLengthLen packet.length) ++ (done ++ packets.flatten)) := by
  induction packets generalizing front gap done tail with
  | nil =>
    obtain rfl := List.length_eq_zero_iff.mp hgap
    obtain rfl := List.length_eq_zero_iff.mp htail
    rfl
  | cons packet rest ih =>
    rw [List.length_cons, Nat.succ_mul] at hgap
    rw [List.flatten_cons, List.length_append] at htail
    -- the buffer is cut at the places of this size and this packet
    obtain ⟨size, gap', rfl, hsize⟩ : ∃ size gap', gap = size ++ gap' ∧
        size.length = secureBatchRecordLengthLen :=
      ⟨_, _, (List.take_append_drop secureBatchRecordLengthLen gap).symm,
        by rw [List.length_take]; omega⟩
    obtain ⟨body, tail', rfl, hbody⟩ : ∃ body tail', tail = body ++ tail' ∧
        body.length = packet.length :=
      ⟨_, _, (List.take_append_drop packet.length tail).symm, by rw [List.length_take]; omega⟩
    rw [List.length_append] at hgap htail
    have hfirst : overwrite (front ++ ((size ++ gap') ++ (done ++ (body ++ tail')))) front.length
        (BigEndian.put secureBatchRecordLengthLen packet.length) =
        front ++ (BigEndian.put secureBatchRecordLengthLen packet.length ++
          (gap' ++ (done ++ (body ++ tail')))) := by
      rw [List.append_assoc size]
      exact overwrite_middle (by rw [hsize, BigEndian.length_put])
    have hsecond : overwrite (front ++ (BigEndian.put secureBatchRecordLengthLen packet.length ++
          (gap' ++ (done ++ (body ++ tail')))))
        (front.length + (size ++ gap').length + done.length) packet =
        (front ++ BigEndian.put secureBatchRecordLengthLen packet.length) ++
          (gap' ++ ((done ++ packet) ++ tail')) := by
      have hplace : front.length + (size ++ gap').length + done.length =
          (front ++ (BigEndian.put secureBatchRecordLengthLen packet.length ++
            (gap' ++ done))).length := by
        simp only [List.length_append, BigEndian.length_put]
        omega
      rw [hplace, show front ++ (BigEndian.put secureBatchRecordLengthLen packet.length ++
        (gap' ++ (done ++ (body ++ tail')))) = (front ++ (BigEndian.put
          secureBatchRecordLengthLen packet.length ++ (gap' ++ done))) ++ (body ++ tail') by
        simp only [List.append_assoc], overwrite_middle hbody]
      simp
    have hrest := @ih (front ++ BigEndian.put secureBatchRecordLengthLen packet.length) gap'
      (done ++ packet) tail' (by omega) (by omega)
    have hplace : front.length + (size ++ gap').length + done.length + packet.length =
        (front ++ BigEndian.put secureBatchRecordLengthLen packet.length).length + gap'.length +
          (done ++ packet).length := by
      simp only [List.length_append, BigEndian.length_put]
      omega
    rw [writeBatchPackets, hfirst, hsecond, hplace]
    rw [List.length_append, BigEndian.length_put] at hrest ⊢
    rw [hrest]
    simp

/-- **The record is filled exactly**, whatever was in the buffer. -/
theorem writeBatchRecord_eq {packets : List Bytes} {stale : Bytes}
    (hstale : stale.length = (batchPlaintext packets).length) :
    writeBatchRecord packets stale = batchPlaintext packets := by
  rw [length_batchPlaintext] at hstale
  -- the buffer is cut at the places of count, sizes and packets
  obtain ⟨count, rest, rfl, hcount⟩ : ∃ count rest, stale = count ++ rest ∧
      count.length = secureBatchRecordHeaderLen :=
    ⟨_, _, (List.take_append_drop secureBatchRecordHeaderLen stale).symm,
      by rw [List.length_take]; omega⟩
  obtain ⟨gap, tail, rfl, hgap⟩ : ∃ gap tail, rest = gap ++ tail ∧
      gap.length = packets.length * secureBatchRecordLengthLen := by
    rw [List.length_append] at hstale
    exact ⟨_, _, (List.take_append_drop (packets.length * secureBatchRecordLengthLen) rest).symm,
      by rw [List.length_take]; omega⟩
  rw [List.length_append, List.length_append] at hstale
  have hfirst : overwrite (count ++ (gap ++ tail)) 0
      (BigEndian.put secureBatchRecordHeaderLen packets.length) =
      BigEndian.put secureBatchRecordHeaderLen packets.length ++ (gap ++ tail) :=
    @overwrite_middle _ _ [] count (gap ++ tail) (by rw [hcount, BigEndian.length_put])
  have hloop := @writeBatchPackets_eq packets
    (BigEndian.put secureBatchRecordHeaderLen packets.length) gap [] tail hgap (by omega)
  rw [BigEndian.length_put, hgap] at hloop
  rw [writeBatchRecord, hfirst]
  exact hloop

/-! ## Reading -/

/-- Every chunk of a sequence, one after the other. -/
theorem flatMap_chunks {bytes : Bytes} {width count : ℕ} (h : count * width ≤ bytes.length) :
    (List.range count).flatMap (fun index => (bytes.drop (index * width)).take width) =
      bytes.take (count * width) := by
  induction count with
  | zero => simp
  | succ count ih =>
    rw [Nat.succ_mul] at h
    rw [List.range_succ, List.flatMap_append, ih (by omega), List.flatMap_singleton,
      Nat.succ_mul, List.take_add]

theorem flatten_splitSizes {sizes : List ℕ} {bytes : Bytes} (h : sizes.sum = bytes.length) :
    (splitSizes sizes bytes).flatten = bytes ∧
      (splitSizes sizes bytes).map List.length = sizes := by
  induction sizes generalizing bytes with
  | nil =>
    obtain rfl := List.length_eq_zero_iff.mp h.symm
    exact ⟨rfl, rfl⟩
  | cons size rest ih =>
    rw [List.sum_cons] at h
    obtain ⟨hflatten, hlengths⟩ := @ih (bytes.drop size) (by rw [List.length_drop]; omega)
    constructor
    · rw [splitSizes, List.flatten_cons, hflatten, List.take_append_drop]
    · rw [splitSizes, List.map_cons, hlengths, List.length_take, Nat.min_eq_left (by omega)]

/-- The sizes that pass the check add up. -/
theorem sum_of_foldlM_sizes {length : ℕ} {sizes : List ℕ} {start stop : ℕ} (hstart : start ≤ length)
    (h : sizes.foldlM (fun payloadOffset packetSize =>
      if length - payloadOffset < packetSize then
        (.error (.invalidPacket "") : Except RecvError ℕ)
      else .ok (payloadOffset + packetSize)) start = .ok stop) : start + sizes.sum = stop := by
  induction sizes generalizing start with
  | nil => exact Except.ok.inj h
  | cons size rest ih =>
    obtain ⟨next, hnext, hrest⟩ := bind_eq_ok.mp h
    obtain ⟨hfits, hnext⟩ := guard_eq_ok.mp hnext
    cases hnext
    rw [List.sum_cons, ← ih (by omega) hrest, Nat.add_assoc]

/-- **What is cut up is put together again**: no byte of the record is left out. -/
theorem batchPlaintext_of_append {dst packets : List Bytes} {plaintext : Bytes} {count : ℕ}
    (h : appendSecureBatchRecordPackets dst plaintext = .ok (packets, count)) :
    ∃ appended, packets = dst ++ appended ∧ count = appended.length ∧
      batchPlaintext appended = plaintext := by
  obtain ⟨hhead, h⟩ := seq_eq_ok.mp h
  obtain ⟨-, h⟩ := seq_eq_ok.mp h
  obtain ⟨hheader, h⟩ := seq_eq_ok.mp h
  obtain ⟨payloadEnd, hsizes, h⟩ := bind_eq_ok.mp h
  obtain ⟨hend, h⟩ := seq_eq_ok.mp h
  rw [rejectIf_eq_ok] at hhead hheader hend
  obtain ⟨hpackets, hcount⟩ := Prod.mk.inj (Except.ok.inj h)
  rw [hcount] at hheader hsizes hpackets
  have hsum := sum_of_foldlM_sizes (by omega) hsizes
  obtain ⟨hflatten, hlengths⟩ := @flatten_splitSizes
    ((List.range count).map (batchPacketSize plaintext))
    (plaintext.drop (secureBatchRecordHeaderLen + count * secureBatchRecordLengthLen))
    (by rw [List.length_drop]; omega)
  generalize hparts : splitSizes ((List.range count).map (batchPacketSize plaintext))
    (plaintext.drop (secureBatchRecordHeaderLen + count * secureBatchRecordLengthLen)) = parts
    at hpackets hflatten hlengths
  have hlength : parts.length = count := by
    rw [← List.length_map, hlengths, List.length_map, List.length_range]
  refine ⟨parts, hpackets.symm, hlength.symm, ?_⟩
  have htake : BigEndian.put secureBatchRecordHeaderLen count =
      plaintext.take secureBatchRecordHeaderLen := by
    have hput := BigEndian.put_get (plaintext.take secureBatchRecordHeaderLen)
    rwa [List.length_take, Nat.min_eq_left (by omega), hcount] at hput
  have hchunks : parts.flatMap (fun packet =>
        BigEndian.put secureBatchRecordLengthLen packet.length) =
      (plaintext.drop secureBatchRecordHeaderLen).take (count * secureBatchRecordLengthLen) := by
    rw [← flatMap_chunks (by rw [List.length_drop]; omega), ← List.flatMap_map, hlengths,
      List.flatMap_map]
    apply List.flatMap_congr
    intro index hindex
    have hlt := List.mem_range.mp hindex
    unfold secureBatchRecordLengthLen at hheader
    have hput := BigEndian.put_get ((plaintext.drop (secureBatchRecordHeaderLen +
      index * secureBatchRecordLengthLen)).take secureBatchRecordLengthLen)
    rw [List.length_take, List.length_drop, Nat.min_eq_left
      (by unfold secureBatchRecordLengthLen; omega)] at hput
    rw [batchPacketSize, hput, List.drop_drop]
  rw [batchPlaintext, hlength, htake, hchunks, hflatten, ← List.drop_drop,
    List.take_append_drop, List.take_append_drop]

/-- **The codec of batch records.**  Packets that have a layout fill the reserved buffer exactly
and are read back; and whatever is read is, written again, the record that it was read from. -/
theorem batch_record_codec :
    (∀ packets plainSize, secureBatchRecordLayout packets = some plainSize →
      ∀ stale : Bytes, stale.length = plainSize →
        (writeBatchRecord packets stale).length = plainSize ∧ ∀ dst,
          appendSecureBatchRecordPackets dst (writeBatchRecord packets stale) =
            .ok (dst ++ packets, packets.length)) ∧
    ∀ dst packets plaintext count,
      appendSecureBatchRecordPackets dst plaintext = .ok (packets, count) →
        ∃ appended, packets = dst ++ appended ∧ count = appended.length ∧
          ∀ stale : Bytes, stale.length = plaintext.length →
            writeBatchRecord appended stale = plaintext := by
  constructor
  · intro packets plainSize hlayout stale hstale
    obtain ⟨hfits, hsize⟩ := batchFits_of_layout hlayout
    have hlength := length_batchPlaintext packets
    rw [writeBatchRecord_eq (by omega)]
    exact ⟨by omega, fun dst => appendSecureBatchRecordPackets_batchPlaintext dst hfits⟩
  · intro dst packets plaintext count h
    obtain ⟨appended, hpackets, hcount, rfl⟩ := batchPlaintext_of_append h
    exact ⟨appended, hpackets, hcount, fun stale hstale => writeBatchRecord_eq hstale⟩

/-- An empty packet between two others. -/
theorem batch_record_codec_plain :
    appendSecureBatchRecordPackets [] (writeBatchRecord [[1], [], [2, 3]] (List.replicate 17 9)) =
      .ok ([[1], [], [2, 3]], 3) := by
  have hlayout : secureBatchRecordLayout [[1], [], [2, 3]] = some 17 := by decide
  exact (batch_record_codec.1 _ _ hlayout (List.replicate 17 9) (by decide)).2 []

end SecureTransport
