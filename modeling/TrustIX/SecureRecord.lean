/-
# Data records of the secure transport

A session of `internal/transport/secure/secure.go` and the records it seals and opens.  A
record is a 24-byte header and a ciphertext; its plaintext is one packet, or a packed batch
of packets if both sides negotiated batch records.  A record that does not open with its
header as associated data is tried again without any, as the kernel module seals.

* `openEncryptedPacketNoReplay_sealRecord` : a sealed record opens to what was sealed;
* `appendSecureBatchRecordPackets_batchPlaintext` : a packed batch is unpacked again;
* `opened_record_was_sealed` : with an ideal cipher, only what the peer sealed opens.
-/
import TrustIX.BigEndian
import TrustIX.ReplayWindow
import TrustIX.SecureHandshake

namespace SecureTransport

open SecureHandshake Fallible

/-! ## Sessions -/

/-- `cipher.AEAD`: an authenticated cipher under one key. -/
structure AEAD where
  overhead : ℕ
  sealBytes : (nonce plaintext aad : Bytes) → Bytes
  openBytes : (nonce ciphertext aad : Bytes) → Except String Bytes

/-- What is sealed can be opened. -/
structure AEAD.Correct (aead : AEAD) : Prop where
  length_sealBytes : ∀ nonce plaintext aad,
    (aead.sealBytes nonce plaintext aad).length = plaintext.length + aead.overhead
  openBytes_sealBytes : ∀ nonce plaintext aad,
    aead.openBytes nonce (aead.sealBytes nonce plaintext aad) aad = .ok plaintext

/-- The part of `Session` that sending and receiving read and write.  Buffers that are only
reused, and the statistics, are left out. -/
structure Session where
  role : Side
  suite : Suite
  epoch : ℕ
  batchRecords : Bool
  sendEncrypted : Bool
  recvEncrypted : Bool
  cryptoOffloaded : Bool
  sendAEAD : Option AEAD
  recvAEAD : Option AEAD
  sendIV : Bytes
  recvIV : Bytes
  clientHelloRaw : Bytes
  serverHelloRaw : Bytes
  sendSeq : ℕ
  /-- `recvPending` from `recvPendingIndex` on. -/
  recvPending : List Bytes
  replay : ReplayWindow.Window

/-! ## Sealing -/

def dataMagic : Bytes := [0x54, 0x49, 0x58, 0x44]
def dataVersion : UInt8 := 1
def dataHeaderLen : ℕ := 24
def dataFlagBatch : UInt8 := 1

/-- What one record carries. -/
structure Record where
  seq : ℕ
  flags : UInt8
  plaintext : Bytes
  deriving DecidableEq

/-- The header of a record: `initDataHeader`, with its flags and its number. -/
def dataHeader (suite : Suite) (epoch : ℕ) (record : Record) : Bytes :=
  dataMagic ++ ([dataVersion, UInt8.ofNat suite.id, record.flags, 0] ++
    (BigEndian.put 8 epoch ++ BigEndian.put 8 record.seq))

/-- Four bytes of the IV and the number of the record. -/
def dataNonce (iv : Bytes) (seq : ℕ) : Bytes := iv.take 4 ++ BigEndian.put 8 seq

def sealRecord (aead : AEAD) (iv : Bytes) (suite : Suite) (epoch : ℕ) (record : Record) : Bytes :=
  dataHeader suite epoch record ++
    aead.sealBytes (dataNonce iv record.seq) record.plaintext (dataHeader suite epoch record)

/-! ## Batches in one record -/

def secureBatchRecordHeaderLen : ℕ := 2
def secureBatchRecordLengthLen : ℕ := 4
def secureBatchRecordMaxPackets : ℕ := 256
def secureBatchRecordMaxPlain : ℕ := 4 * 1024 * 1024

/-- The size of the packed packets, if they may go into one record. -/
def secureBatchRecordLayout (packets : List Bytes) : Option ℕ :=
  if packets.length < 2 ∨ secureBatchRecordMaxPackets < packets.length then none
  else
    let headerSize := secureBatchRecordHeaderLen + packets.length * secureBatchRecordLengthLen
    if secureBatchRecordMaxPlain < headerSize then none
    else
      packets.foldlM (fun plainSize packet =>
        if secureBatchRecordMaxPlain - plainSize < packet.length then none
        else some (plainSize + packet.length)) headerSize

/-- The packed packets: their count, their sizes and their bytes. -/
def batchPlaintext (packets : List Bytes) : Bytes :=
  BigEndian.put secureBatchRecordHeaderLen packets.length ++
    (packets.flatMap (fun packet => BigEndian.put secureBatchRecordLengthLen packet.length) ++
      packets.flatten)

inductive RecvError where
  /-- `ErrInvalidPacket`, and what is wrapped with it. -/
  | invalidPacket (detail : String)
  | replayDetected
  | sessionReset
  /-- The server hello could not be sent again. -/
  | resend (detail : String)
  deriving DecidableEq

/-- The size of a packet, as the record states it. -/
def batchPacketSize (plaintext : Bytes) (index : ℕ) : ℕ :=
  BigEndian.get
    ((plaintext.drop (secureBatchRecordHeaderLen + index * secureBatchRecordLengthLen)).take
      secureBatchRecordLengthLen)

/-- Bytes cut into pieces of the given sizes. -/
def splitSizes : List ℕ → Bytes → List Bytes
  | [], _ => []
  | size :: sizes, bytes => bytes.take size :: splitSizes sizes (bytes.drop size)

/-- `dst` with the packets of a packed record, and their count. -/
def appendSecureBatchRecordPackets (dst : List Bytes) (plaintext : Bytes) :
    Except RecvError (List Bytes × ℕ) := do
  rejectIf (plaintext.length < secureBatchRecordHeaderLen) (.invalidPacket "")
  let count := BigEndian.get (plaintext.take secureBatchRecordHeaderLen)
  rejectIf (count < 2 ∨ secureBatchRecordMaxPackets < count) (.invalidPacket "")
  let headerSize := secureBatchRecordHeaderLen + count * secureBatchRecordLengthLen
  rejectIf (plaintext.length < headerSize) (.invalidPacket "")
  let sizes := (List.range count).map (batchPacketSize plaintext)
  let payloadEnd ← sizes.foldlM (fun payloadOffset packetSize =>
    if plaintext.length - payloadOffset < packetSize then .error (.invalidPacket "")
    else .ok (payloadOffset + packetSize)) headerSize
  rejectIf (payloadEnd ≠ plaintext.length) (.invalidPacket "")
  .ok (dst ++ splitSizes sizes (plaintext.drop headerSize), count)

/-! ## Opening -/

/-- The batch flag of a record. -/
def isBatch (flags : UInt8) : Bool := flags &&& dataFlagBatch != 0

/-- The plaintext, the number and the flags of a record that opens. -/
def openEncryptedPacketNoReplay (session : Session) (wire : Bytes) : Except RecvError Record :=
  match session.recvAEAD with
  | none => .error (.invalidPacket "")
  | some aead =>
    if wire.length < dataHeaderLen + aead.overhead then .error (.invalidPacket "")
    else
      let header := wire.take dataHeaderLen
      if header.take 4 ≠ dataMagic ∨ header.getD 4 0 ≠ dataVersion ∨
          header.getD 5 0 ≠ UInt8.ofNat session.suite.id then
        .error (.invalidPacket "")
      else
        let flags := header.getD 6 0
        if flags &&& ~~~dataFlagBatch ≠ 0 ∨ header.getD 7 0 ≠ 0 ∨
            (isBatch flags = true ∧ session.batchRecords = false) then
          .error (.invalidPacket "")
        else
          let epoch := BigEndian.get ((header.drop 8).take 8)
          if epoch ≠ session.epoch then
            .error (.invalidPacket
              ("epoch " ++ toString epoch ++ " != " ++ toString session.epoch))
          else
            let seq := BigEndian.get ((header.drop 16).take 8)
            let nonce := dataNonce session.recvIV seq
            let ciphertext := wire.drop dataHeaderLen
            match aead.openBytes nonce ciphertext header with
            | .ok plaintext => .ok ⟨seq, flags, plaintext⟩
            | .error _ =>
              -- the kernel module seals without associated data
              match aead.openBytes nonce ciphertext [] with
              | .ok plaintext => .ok ⟨seq, flags, plaintext⟩
              | .error err => .error (.invalidPacket err)

/-! ## Headers -/

/-- Records of either kind: their flags are none or the batch flag, which was negotiated, and
their number fits eight bytes. -/
structure Record.Valid (batchRecords : Bool) (record : Record) : Prop where
  flags : record.flags = 0 ∨ (record.flags = dataFlagBatch ∧ batchRecords = true)
  seq : record.seq < 2 ^ 64

section Headers

variable (suite : Suite) (epoch : ℕ) (record : Record)

theorem length_dataHeader : (dataHeader suite epoch record).length = dataHeaderLen := by
  simp [dataHeader, dataMagic, dataHeaderLen]

theorem dataHeader_magic : (dataHeader suite epoch record).take 4 = dataMagic := by
  simp [dataHeader, dataMagic]

theorem dataHeader_version : (dataHeader suite epoch record).getD 4 0 = dataVersion := by
  simp [dataHeader, dataMagic]

theorem dataHeader_suite : (dataHeader suite epoch record).getD 5 0 = UInt8.ofNat suite.id := by
  simp [dataHeader, dataMagic]

theorem dataHeader_flags : (dataHeader suite epoch record).getD 6 0 = record.flags := by
  simp [dataHeader, dataMagic]

theorem dataHeader_reserved : (dataHeader suite epoch record).getD 7 0 = 0 := by
  simp [dataHeader, dataMagic]

theorem dataHeader_epoch :
    ((dataHeader suite epoch record).drop 8).take 8 = BigEndian.put 8 epoch := by
  show (BigEndian.put 8 epoch ++ BigEndian.put 8 record.seq).take 8 = _
  rw [List.take_left' (BigEndian.length_put 8 epoch)]

theorem dataHeader_seq :
    ((dataHeader suite epoch record).drop 16).take 8 = BigEndian.put 8 record.seq := by
  have hdrop : (dataHeader suite epoch record).drop 16 = BigEndian.put 8 record.seq := by
    show (BigEndian.put 8 epoch ++ BigEndian.put 8 record.seq).drop 8 = _
    rw [List.drop_left' (BigEndian.length_put 8 epoch)]
  rw [hdrop, List.take_of_length_le (by simp)]

end Headers

/-- **A sealed record opens to what was sealed**, on the other side of the session. -/
theorem openEncryptedPacketNoReplay_sealRecord {session : Session} {aead : AEAD}
    (haead : session.recvAEAD = some aead) (hcorrect : aead.Correct)
    (hepoch : session.epoch < 2 ^ 64) {record : Record}
    (hvalid : record.Valid session.batchRecords) :
    openEncryptedPacketNoReplay session
      (sealRecord aead session.recvIV session.suite session.epoch record) = .ok record := by
  have hheader : (sealRecord aead session.recvIV session.suite session.epoch record).take
      dataHeaderLen = dataHeader session.suite session.epoch record :=
    List.take_left' (length_dataHeader _ _ _)
  have hcipher : (sealRecord aead session.recvIV session.suite session.epoch record).drop
      dataHeaderLen = aead.sealBytes (dataNonce session.recvIV record.seq) record.plaintext
        (dataHeader session.suite session.epoch record) :=
    List.drop_left' (length_dataHeader _ _ _)
  have hlength : ¬ (sealRecord aead session.recvIV session.suite session.epoch record).length <
      dataHeaderLen + aead.overhead := by
    rw [sealRecord, List.length_append, length_dataHeader, hcorrect.length_sealBytes]
    omega
  have hflags : ¬ (record.flags &&& ~~~dataFlagBatch ≠ 0 ∨
      (dataHeader session.suite session.epoch record).getD 7 0 ≠ 0 ∨
      (isBatch record.flags = true ∧ session.batchRecords = false)) := by
    rw [dataHeader_reserved]
    rcases hvalid.flags with hzero | ⟨hbatch, hnegotiated⟩
    · rw [hzero]
      have hbits : isBatch 0 = false := by decide
      simp [hbits]
    · rw [hbatch, hnegotiated]
      simp
  unfold openEncryptedPacketNoReplay
  simp only [haead, hheader, hcipher]
  rw [if_neg hlength, dataHeader_magic, dataHeader_version, dataHeader_suite, if_neg (by simp),
    dataHeader_flags, if_neg hflags, dataHeader_epoch, BigEndian.get_put_of_lt hepoch,
    if_neg (by simp), dataHeader_seq, BigEndian.get_put_of_lt hvalid.seq, hcorrect.openBytes_sealBytes]

/-! ## Packing and unpacking -/

theorem splitSizes_map_length (packets : List Bytes) :
    splitSizes (packets.map List.length) packets.flatten = packets := by
  induction packets with
  | nil => rfl
  | cons packet rest ih =>
    rw [List.map_cons, splitSizes, List.flatten_cons, List.take_left, List.drop_left, ih]

variable {packets : List Bytes}

/-- Every size that is written can be read. -/
theorem foldlM_secureBatchRecordLayout {start plainSize : ℕ}
    (hstart : start ≤ secureBatchRecordMaxPlain)
    (h : packets.foldlM (fun plainSize packet =>
      if secureBatchRecordMaxPlain - plainSize < packet.length then none
      else some (plainSize + packet.length)) start = some plainSize) :
    plainSize = start + packets.flatten.length ∧ plainSize ≤ secureBatchRecordMaxPlain := by
  induction packets generalizing start with
  | nil =>
    cases h
    exact ⟨rfl, hstart⟩
  | cons packet rest ih =>
    rw [List.foldlM_cons] at h
    obtain ⟨next, hnext, hrest⟩ := Option.bind_eq_some_iff.mp h
    split_ifs at hnext with hlarge
    cases hnext
    obtain ⟨hsum, hle⟩ := ih (by omega) hrest
    rw [List.flatten_cons, List.length_append]
    exact ⟨by omega, hle⟩

structure BatchFits (packets : List Bytes) : Prop where
  two_le : 2 ≤ packets.length
  le_max : packets.length ≤ secureBatchRecordMaxPackets
  plain_le : secureBatchRecordHeaderLen + packets.length * secureBatchRecordLengthLen +
    packets.flatten.length ≤ secureBatchRecordMaxPlain

/-- What a layout says of its packets. -/
theorem batchFits_of_layout {plainSize : ℕ} (h : secureBatchRecordLayout packets = some plainSize) :
    BatchFits packets ∧ plainSize = secureBatchRecordHeaderLen +
      packets.length * secureBatchRecordLengthLen + packets.flatten.length := by
  unfold secureBatchRecordLayout at h
  split_ifs at h with hcount
  dsimp only at h
  split_ifs at h with hheader
  obtain ⟨hsize, hle⟩ := foldlM_secureBatchRecordLayout (by omega) h
  exact ⟨⟨by omega, by omega, by omega⟩, hsize⟩

theorem length_batchPlaintext (packets : List Bytes) :
    (batchPlaintext packets).length = secureBatchRecordHeaderLen +
      packets.length * secureBatchRecordLengthLen + packets.flatten.length := by
  rw [batchPlaintext, List.length_append, List.length_append, BigEndian.length_put,
    FixedFrames.length_flatMap fun packet => BigEndian.length_put _ _]
  omega

/-- The stated size of a packet is its length. -/
theorem batchPacketSize_batchPlaintext (front : List Bytes) {packet : Bytes} (back : List Bytes)
    (hpacket : packet.length < 2 ^ 32) :
    batchPacketSize (batchPlaintext (front ++ packet :: back)) front.length = packet.length := by
  have hfront : (front.flatMap
      (fun packet => BigEndian.put secureBatchRecordLengthLen packet.length)).length =
        front.length * secureBatchRecordLengthLen := by
    rw [FixedFrames.length_flatMap fun packet => BigEndian.length_put _ _]
  unfold batchPacketSize batchPlaintext
  rw [← List.drop_drop, List.drop_left' (BigEndian.length_put _ _), List.flatMap_append,
    List.append_assoc, List.drop_left' hfront, List.flatMap_cons, List.append_assoc,
    List.take_left' (BigEndian.length_put _ _), BigEndian.get_put_of_lt hpacket]

theorem sizes_batchPlaintext
    (hfits : ∀ packet ∈ packets, packet.length < 2 ^ 32) :
    (List.range packets.length).map (batchPacketSize (batchPlaintext packets)) =
      packets.map List.length := by
  apply List.ext_getElem
  · simp
  · intro index hindex _
    rw [List.length_map, List.length_range] at hindex
    rw [List.getElem_map, List.getElem_range, List.getElem_map]
    have hsplit : packets = packets.take index ++ packets[index] :: packets.drop (index + 1) := by
      rw [List.getElem_cons_drop, List.take_append_drop]
    have hlength : (packets.take index).length = index := by
      rw [List.length_take]
      omega
    have hsize := batchPacketSize_batchPlaintext (packets.take index) (packets.drop (index + 1))
      (hfits packets[index] (List.getElem_mem hindex))
    rw [← hsplit, hlength] at hsize
    exact hsize

/-- Sizes that add up to the rest of the plaintext pass the check. -/
theorem foldlM_sizes {length : ℕ} {sizes : List ℕ} {start : ℕ} (h : start + sizes.sum ≤ length) :
    sizes.foldlM (fun payloadOffset packetSize =>
      if length - payloadOffset < packetSize then
        (.error (.invalidPacket "") : Except RecvError ℕ)
      else .ok (payloadOffset + packetSize)) start = .ok (start + sizes.sum) := by
  induction sizes generalizing start with
  | nil => rfl
  | cons size rest ih =>
    rw [List.sum_cons] at h ⊢
    rw [List.foldlM_cons, if_neg (by omega), ok_bind, ih (by omega), Nat.add_assoc]

/-- **A packed batch is unpacked again.** -/
theorem appendSecureBatchRecordPackets_batchPlaintext (dst : List Bytes) (h : BatchFits packets) :
    appendSecureBatchRecordPackets dst (batchPlaintext packets) =
      .ok (dst ++ packets, packets.length) := by
  obtain ⟨htwo, hmax, hplain⟩ := h
  have hsum : (packets.map List.length).sum = packets.flatten.length := List.length_flatten.symm
  have hpackets : ∀ packet ∈ packets, packet.length < 2 ^ 32 := by
    intro packet hpacket
    have hle := List.single_le_sum (by simp) _ (List.mem_map_of_mem (f := List.length) hpacket)
    unfold secureBatchRecordMaxPlain at hplain
    omega
  have hfront : (packets.flatMap
      (fun packet => BigEndian.put secureBatchRecordLengthLen packet.length)).length =
        packets.length * secureBatchRecordLengthLen := by
    rw [FixedFrames.length_flatMap fun packet => BigEndian.length_put _ _]
  have hlength := length_batchPlaintext packets
  have hcount : BigEndian.get ((batchPlaintext packets).take secureBatchRecordHeaderLen) =
      packets.length := by
    rw [batchPlaintext, List.take_left' (BigEndian.length_put _ _), BigEndian.get_put_of_lt]
    unfold secureBatchRecordMaxPackets at hmax
    unfold secureBatchRecordHeaderLen
    omega
  have hpayload : (batchPlaintext packets).drop
      (secureBatchRecordHeaderLen + packets.length * secureBatchRecordLengthLen) =
        packets.flatten := by
    rw [batchPlaintext, ← List.drop_drop, List.drop_left' (BigEndian.length_put _ _),
      List.drop_left' hfront]
  unfold appendSecureBatchRecordPackets
  simp only [hcount, hpayload, sizes_batchPlaintext hpackets, splitSizes_map_length]
  rw [rejectIf_eq_ok.mpr (by omega), ok_bind, rejectIf_eq_ok.mpr (by omega), ok_bind,
    rejectIf_eq_ok.mpr (by omega), ok_bind, foldlM_sizes (by omega), ok_bind,
    rejectIf_eq_ok.mpr (by omega), ok_bind]

/-! ## Authenticity -/

/-- What a peer seals: a record in userspace, with its header as associated data, or a record of
the kernel module, without associated data and without flags. -/
inductive Sealing where
  | userspace (record : Record)
  | kernel (seq : ℕ) (plaintext : Bytes)
  deriving DecidableEq

def Sealing.record : Sealing → Record
  | .userspace record => record
  | .kernel seq plaintext => ⟨seq, 0, plaintext⟩

/-- The nonce, the plaintext and the associated data that go into the cipher. -/
def Sealing.input (suite : Suite) (epoch : ℕ) (iv : Bytes) : Sealing → Bytes × Bytes × Bytes
  | .userspace record =>
    (dataNonce iv record.seq, record.plaintext, dataHeader suite epoch record)
  | .kernel seq plaintext => (dataNonce iv seq, plaintext, [])

/-- An ideal cipher: whatever opens was sealed with the same nonce and associated data. -/
def AEAD.Ideal (aead : AEAD) (inputs : List (Bytes × Bytes × Bytes)) : Prop :=
  ∀ nonce ciphertext aad plaintext, aead.openBytes nonce ciphertext aad = .ok plaintext →
    (nonce, plaintext, aad) ∈ inputs

theorem dataNonce_injective {iv : Bytes} {a b : ℕ} (ha : a < 2 ^ 64) (hb : b < 2 ^ 64)
    (h : dataNonce iv a = dataNonce iv b) : a = b :=
  BigEndian.put_injective (show a < 256 ^ 8 from ha) (show b < 256 ^ 8 from hb)
    (List.append_cancel_left h)

/-- What is known of a record that opens. -/
theorem openEncryptedPacketNoReplay_eq_ok {session : Session} {aead : AEAD}
    (haead : session.recvAEAD = some aead) {wire : Bytes} {record : Record}
    (h : openEncryptedPacketNoReplay session wire = .ok record) :
    dataHeaderLen ≤ wire.length ∧ record.flags = (wire.take dataHeaderLen).getD 6 0 ∧
      record.flags &&& ~~~dataFlagBatch = 0 ∧
      (session.batchRecords = false → isBatch record.flags = false) ∧
      record.seq = BigEndian.get (((wire.take dataHeaderLen).drop 16).take 8) ∧
      ∃ aad, (aad = wire.take dataHeaderLen ∨ aad = []) ∧
        aead.openBytes (dataNonce session.recvIV record.seq) (wire.drop dataHeaderLen) aad =
          .ok record.plaintext := by
  unfold openEncryptedPacketNoReplay at h
  rw [haead] at h
  obtain ⟨hlength, h⟩ := guard_eq_ok.mp h
  obtain ⟨-, h⟩ := guard_eq_ok.mp h
  obtain ⟨hflags, h⟩ := guard_eq_ok.mp h
  obtain ⟨-, h⟩ := guard_eq_ok.mp h
  rw [not_or, not_or, not_and] at hflags
  have hbits : (wire.take dataHeaderLen).getD 6 0 &&& ~~~dataFlagBatch = 0 := not_not.mp hflags.1
  have hbatch : session.batchRecords = false →
      isBatch ((wire.take dataHeaderLen).getD 6 0) = false := fun hoff =>
    Bool.eq_false_iff.mpr fun hon => hflags.2.2 hon hoff
  dsimp only at h
  generalize BigEndian.get (((wire.take dataHeaderLen).drop 16).take 8) = seq at h ⊢
  cases hopen : aead.openBytes (dataNonce session.recvIV seq) (wire.drop dataHeaderLen)
      (wire.take dataHeaderLen) with
  | ok plaintext =>
    rw [hopen] at h
    cases h
    exact ⟨by omega, rfl, hbits, hbatch, rfl, _, Or.inl rfl, hopen⟩
  | error err =>
    rw [hopen] at h
    cases hcompat : aead.openBytes (dataNonce session.recvIV seq) (wire.drop dataHeaderLen) [] with
    | ok plaintext =>
      rw [hcompat] at h
      cases h
      exact ⟨by omega, rfl, hbits, hbatch, rfl, _, Or.inr rfl, hcompat⟩
    | error err' =>
      rw [hcompat] at h
      cases h

/-- Flags without the batch flag are none at all. -/
theorem flags_eq_zero {flags : UInt8} (hbits : flags &&& ~~~dataFlagBatch = 0)
    (hbatch : isBatch flags = false) : flags = 0 := by
  have hbytes : ∀ bits : BitVec 8, bits &&& ~~~1#8 = 0#8 → bits &&& 1#8 = 0#8 → bits = 0#8 := by
    decide
  have hlow : flags &&& dataFlagBatch = 0 := by
    unfold isBatch at hbatch
    simpa using hbatch
  exact UInt8.toBitVec_inj.mp
    (hbytes flags.toBitVec (congrArg UInt8.toBitVec hbits) (congrArg UInt8.toBitVec hlow))

/-- **Record authenticity**, with both ways to open: under an ideal cipher, a wire packet that
opens carries the number, the flags and the plaintext of a record that the peer sealed under
this key, if the kernel module seals only for sessions without batch records. -/
theorem opened_record_was_sealed {session : Session} {aead : AEAD} {peerSuite : Suite}
    {peerEpoch : ℕ} {done : List Sealing} (haead : session.recvAEAD = some aead)
    (hideal : aead.Ideal (done.map (Sealing.input peerSuite peerEpoch session.recvIV)))
    (hseq : ∀ sealing ∈ done, sealing.record.seq < 2 ^ 64)
    (hkernel : ∀ seq plaintext, .kernel seq plaintext ∈ done → session.batchRecords = false)
    {wire : Bytes} {record : Record} (h : openEncryptedPacketNoReplay session wire = .ok record) :
    ∃ sealing ∈ done, sealing.record = record := by
  obtain ⟨hlength, hflags, hbits, hbatch, hnumber, aad, haad, hopen⟩ :=
    openEncryptedPacketNoReplay_eq_ok haead h
  obtain ⟨sealing, hmem, hinput⟩ := List.mem_map.mp (hideal _ _ _ _ hopen)
  have hheader : (wire.take dataHeaderLen).length = dataHeaderLen := by
    rw [List.length_take]
    exact min_eq_left hlength
  have hlt : record.seq < 2 ^ 64 := by
    rw [hnumber]
    refine lt_of_lt_of_le (BigEndian.get_lt _) ?_
    calc 256 ^ (((wire.take dataHeaderLen).drop 16).take 8).length ≤ 256 ^ 8 :=
          Nat.pow_le_pow_right (by decide) (List.length_take_le 8 _)
      _ ≤ 2 ^ 64 := by decide
  have hbound := hseq sealing hmem
  refine ⟨sealing, hmem, ?_⟩
  cases sealing with
  | userspace sent =>
    obtain ⟨hnonce, hplain, hdata⟩ : dataNonce session.recvIV sent.seq =
        dataNonce session.recvIV record.seq ∧ sent.plaintext = record.plaintext ∧
        dataHeader peerSuite peerEpoch sent = aad := by
      simpa [Sealing.input] using hinput
    rcases haad with rfl | rfl
    · -- the header was authenticated
      have hsame : sent.flags = record.flags := by
        rw [hflags, ← hdata, dataHeader_flags]
      show sent = record
      cases sent
      cases record
      rw [Record.mk.injEq]
      exact ⟨dataNonce_injective hbound hlt hnonce, hsame, hplain⟩
    · exact absurd (congrArg List.length hdata) (by rw [length_dataHeader]; decide)
  | kernel seq plaintext =>
    obtain ⟨hnonce, hplain, hdata⟩ : dataNonce session.recvIV seq =
        dataNonce session.recvIV record.seq ∧ plaintext = record.plaintext ∧ [] = aad := by
      simpa [Sealing.input] using hinput
    rcases haad with rfl | rfl
    · exact absurd (congrArg List.length hdata) (by rw [hheader]; decide)
    · -- the number is in the nonce, and without batch records there are no flags
      have hzero := flags_eq_zero hbits (hbatch (hkernel seq plaintext hmem))
      show (⟨seq, 0, plaintext⟩ : Record) = record
      cases record
      rw [Record.mk.injEq]
      exact ⟨dataNonce_injective hbound hlt hnonce, hzero.symm, hplain⟩

/-- A cipher that opens exactly the given inputs, and hides nothing. -/
def listedAEAD (inputs : List (Bytes × Bytes × Bytes)) : AEAD where
  overhead := 0
  sealBytes := fun _ plaintext _ => plaintext
  openBytes := fun nonce ciphertext aad =>
    if (nonce, ciphertext, aad) ∈ inputs then .ok ciphertext else .error "message authentication failed"

theorem ideal_listedAEAD (inputs : List (Bytes × Bytes × Bytes)) :
    (listedAEAD inputs).Ideal inputs := by
  intro nonce ciphertext aad plaintext h
  change (if (nonce, ciphertext, aad) ∈ inputs then Except.ok ciphertext else .error _) = _ at h
  split_ifs at h with hmem
  injection h with h
  exact h ▸ hmem

/-- A server with one cipher for both directions, without batch records. -/
def serverWith (aead : AEAD) : Session where
  role := .server
  suite := .aes256GCMX25519
  epoch := 7
  batchRecords := false
  sendEncrypted := true
  recvEncrypted := true
  cryptoOffloaded := false
  sendAEAD := some aead
  recvAEAD := some aead
  sendIV := []
  recvIV := []
  clientHelloRaw := []
  serverHelloRaw := []
  sendSeq := 0
  recvPending := []
  replay := ReplayWindow.newReplayWindow ReplayWindow.defaultReplayWindowSize

/-- A record of userspace and one of the kernel module. -/
def mixedSealings : List Sealing := [.userspace ⟨1, 0, [5]⟩, .kernel 2 [6]]

def mixedAEAD : AEAD :=
  listedAEAD (mixedSealings.map (Sealing.input .aes256GCMX25519 7 []))

/-- The record of the kernel module opens in the second attempt. -/
theorem opened_record_was_sealed_kernel :
    openEncryptedPacketNoReplay (serverWith mixedAEAD)
        (dataHeader .aes256GCMX25519 7 ⟨2, 0, [6]⟩ ++ [6]) = .ok ⟨2, 0, [6]⟩ ∧
      ∃ sealing ∈ mixedSealings, sealing.record = ⟨2, 0, [6]⟩ := by
  have hopen : openEncryptedPacketNoReplay (serverWith mixedAEAD)
      (dataHeader .aes256GCMX25519 7 ⟨2, 0, [6]⟩ ++ [6]) = .ok ⟨2, 0, [6]⟩ := by
    decide +kernel
  have haead : (serverWith mixedAEAD).recvAEAD = some mixedAEAD := rfl
  exact ⟨hopen, opened_record_was_sealed haead (ideal_listedAEAD _) (by decide) (fun _ _ _ => rfl)
    hopen⟩

end SecureTransport
