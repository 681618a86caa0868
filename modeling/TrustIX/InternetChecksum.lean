/-
# The Internet checksum

Bytes are read as 16-bit words, the last one padded, and the words are added with the carries
folded in.  The checksum is the complement of the sum.

* `wordSum_append`, `wordSum_overwrite` : sums of parts, and after a write;
* `valid_add_checksum` : a sum and its checksum are together a zero;
* `valid_overwrite` : the same when the checksum is written into the bytes.
-/
import TrustIX.ByteEdit
import TrustIX.BigEndian

namespace InternetChecksum

open ByteEdit

/-- The sum of the words. -/
def wordSum : List UInt8 → ℕ
  | [] => 0
  | [a] => a.toNat * 256
  | a :: b :: rest => a.toNat * 256 + b.toNat + wordSum rest

/-- The carries above 16 bits are added at the low end, at most so many times. -/
def foldCarries : ℕ → ℕ → ℕ
  | 0, sum => sum
  | rounds + 1, sum =>
    if sum / 65536 = 0 then sum else foldCarries rounds (sum % 65536 + sum / 65536)

/-- The complement of the folded sum; for 32 bits two rounds are enough. -/
def checksum (sum : ℕ) : ℕ := 65535 - foldCarries 2 sum

/-- A sum that includes a right checksum is a zero of the ones' complement. -/
def Valid (sum : ℕ) : Prop := 0 < sum ∧ 65535 ∣ sum

theorem wordSum_append {front back : List UInt8} (h : front.length % 2 = 0) :
    wordSum (front ++ back) = wordSum front + wordSum back := by
  induction front using wordSum.induct with
  | case1 => simp [wordSum]
  | case2 a => simp at h
  | case3 a b rest ih =>
    simp only [List.length_cons] at h
    simp only [List.cons_append, wordSum, ih (by omega)]
    omega

theorem wordSum_le (bytes : List UInt8) : 2 * wordSum bytes ≤ 65535 * (bytes.length + 1) := by
  induction bytes using wordSum.induct with
  | case1 => simp [wordSum]
  | case2 a =>
    have := a.toNat_lt
    simp only [wordSum, List.length_singleton]
    omega
  | case3 a b rest ih =>
    have := a.toNat_lt
    have := b.toNat_lt
    simp only [wordSum, List.length_cons]
    omega

theorem wordSum_of_length_two {bytes : List UInt8} (h : bytes.length = 2) :
    wordSum bytes = BigEndian.get bytes := by
  obtain ⟨a, b, rfl⟩ := List.length_eq_two.mp h
  simp [wordSum, BigEndian.get]

/-- The word sum of a number that is written. -/
theorem wordSum_put {n : ℕ} (h : n < 65536) : wordSum (BigEndian.put 2 n) = n := by
  rw [wordSum_of_length_two (BigEndian.length_put 2 n)]
  exact BigEndian.get_put_of_lt h

/-- A write at an even place changes the sum by what was there and what is written. -/
theorem wordSum_overwrite {data payload : List UInt8} {start : ℕ}
    (h : start + payload.length ≤ data.length) (hstart : start % 2 = 0)
    (hpayload : payload.length % 2 = 0) :
    wordSum (overwrite data start payload) + wordSum (slice data start payload.length) =
      wordSum data + wordSum payload := by
  have htake : (data.take start).length % 2 = 0 := by
    rw [List.length_take]
    omega
  have hdata : data = data.take start ++
      (slice data start payload.length ++ data.drop (start + payload.length)) := by
    rw [slice, ← List.drop_drop, List.take_append_drop, List.take_append_drop]
  rw [overwrite, List.append_assoc, wordSum_append htake, wordSum_append hpayload]
  conv_rhs => rw [hdata, wordSum_append htake, wordSum_append (by rw [length_slice h]; exact hpayload)]
  omega

/-- Folding two times leaves 16 bits, the same number modulo 65535, and zero only for zero. -/
theorem foldCarries_spec {sum : ℕ} (h : sum < 2 ^ 32) :
    foldCarries 2 sum ≤ 65535 ∧ foldCarries 2 sum % 65535 = sum % 65535 ∧
      (0 < sum ↔ 0 < foldCarries 2 sum) := by
  simp only [foldCarries]
  split_ifs <;> omega

/-- **A sum and its checksum** are together a zero. -/
theorem valid_add_checksum {sum : ℕ} (h : sum < 2 ^ 32) : Valid (sum + checksum sum) := by
  obtain ⟨hle, hmod, hpos⟩ := foldCarries_spec h
  unfold checksum
  exact ⟨by omega, by omega⟩

/-- The checksum 65535 stands for 0. -/
theorem valid_add_of_checksum_eq_zero {sum : ℕ} (hpos : 0 < sum) (h : sum < 2 ^ 32)
    (hzero : checksum sum = 0) : Valid (sum + 65535) := by
  obtain ⟨-, hdvd⟩ := valid_add_checksum h
  rw [hzero] at hdvd
  exact ⟨by omega, by omega⟩

/-- **A checksum is written** where a zero stands. -/
theorem valid_overwrite {data : List UInt8} {start base value : ℕ} (h : start + 2 ≤ data.length)
    (hstart : start % 2 = 0) (hzero : slice data start 2 = BigEndian.put 2 0)
    (hvalue : value < 65536) (hvalid : Valid (base + wordSum data + value)) :
    Valid (base + wordSum (overwrite data start (BigEndian.put 2 value))) := by
  have hsum := @wordSum_overwrite data (BigEndian.put 2 value) start
    (by rwa [BigEndian.length_put]) hstart (by rw [BigEndian.length_put])
  rw [BigEndian.length_put, hzero, wordSum_put hvalue, wordSum_put (by decide)] at hsum
  rwa [show base + wordSum (overwrite data start (BigEndian.put 2 value)) =
    base + wordSum data + value by omega]

theorem checksum_le (sum : ℕ) : checksum sum ≤ 65535 := Nat.sub_le _ _

end InternetChecksum
