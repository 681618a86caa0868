/-
# Bitmaps kept in 64-bit words

A bitmap is a list of 64-bit words; position `i` lives in word `i / 64` at bit
`i % 64`.  Everything the replay windows need about such a bitmap is said once,
here, as the effect of an update on the bits that are read back:

* `bit_modify` : an update of one word changes only the bits of that word;
* `bit_setBit` : OR-ing in one bit sets that position and no other;
* `bit_zeroWords` : the word-by-word clearing loop;
* `getLsbD_lowMask` : the mask `(1 << k) - 1`, with the shift by 64 giving 0.
-/
import Mathlib

namespace WordBitmap

/-- A machine word of the bitmap. -/
abbrev Word := BitVec 64

/-- The bit stored at position `i`; positions past the last word read as clear. -/
def bit (words : List Word) (i : ℕ) : Bool :=
  (words.getD (i / 64) 0#64).getLsbD (i % 64)

/-- Set position `i`; a position past the last word is left alone. -/
def setBit (words : List Word) (i : ℕ) : List Word :=
  words.modify (i / 64) (· ||| (1#64 <<< (i % 64)))

/-- The loop that zeroes `count` words from index `first` on. -/
def zeroWords (words : List Word) (first : ℕ) : ℕ → List Word
  | 0 => words
  | count + 1 => zeroWords (words.set first 0#64) (first + 1) count

/-- The mask with the low `k` bits set, written as the source writes it. -/
def lowMask (k : ℕ) : Word := (1#64 <<< k) - 1#64

/-! ## Reading bits back -/

theorem bit_replicate_zero (n i : ℕ) : bit (List.replicate n 0#64) i = false := by
  unfold bit
  rw [List.getD_eq_getElem?_getD, List.getElem?_replicate]
  split <;> simp

/-- A position past the last word reads as clear. -/
theorem bit_of_length_le (words : List Word) (i : ℕ) (h : words.length ≤ i / 64) :
    bit words i = false := by
  unfold bit
  rw [List.getD_eq_getElem?_getD, List.getElem?_eq_none h]
  simp

/-- Updating one word changes only the bits of that word. -/
theorem bit_modify (words : List Word) (k : ℕ) (f : Word → Word) (i : ℕ) :
    bit (words.modify k f) i
      = if i / 64 = k ∧ k < words.length
        then (f (words.getD k 0#64)).getLsbD (i % 64) else bit words i := by
  unfold bit
  by_cases hk : i / 64 = k
  · subst hk
    by_cases hlen : i / 64 < words.length
    · simp [hlen]
    · simp [hlen]
  · have hne : ¬ k = i / 64 := fun h => hk h.symm
    simp [hk, hne]

/-- Writing one word replaces the bits of that word. -/
theorem bit_set (words : List Word) (k : ℕ) (x : Word) (i : ℕ) :
    bit (words.set k x) i
      = if i / 64 = k ∧ k < words.length then x.getLsbD (i % 64) else bit words i := by
  rw [List.set_eq_modify, bit_modify]

/-- Masking one word keeps exactly the bits the mask keeps. -/
theorem bit_modify_and (words : List Word) (k : ℕ) (mask : Word) (i : ℕ) :
    bit (words.modify k (· &&& mask)) i
      = (bit words i && (decide (i / 64 ≠ k) || mask.getLsbD (i % 64))) := by
  rw [bit_modify]
  by_cases hk : i / 64 = k
  · subst hk
    by_cases hlen : i / 64 < words.length
    · simp [hlen, bit]
    · simp [hlen, bit_of_length_le words i (by omega)]
  · simp [hk]

/-! ## Setting and testing one bit -/

/-- Testing a word against one shifted bit reads that bit. -/
theorem and_one_shiftLeft_ne_zero (x : Word) (k : ℕ) (hk : k < 64) :
    (x &&& (1#64 <<< k) != 0#64) = x.getLsbD k := by
  rw [← BitVec.twoPow_eq, BitVec.and_twoPow]
  by_cases hbit : x.getLsbD k
  · have hne : BitVec.twoPow 64 k ≠ 0#64 := by
      intro h0
      have := congrArg (fun v : Word => v.getLsbD k) h0
      simp [hk] at this
    simp [hbit, hne]
  · simp [hbit]

/-- OR-ing in one bit sets that position and no other. -/
theorem bit_setBit (words : List Word) (k i : ℕ) (hk : k / 64 < words.length) :
    bit (setBit words k) i = (decide (i = k) || bit words i) := by
  unfold setBit
  rw [bit_modify]
  by_cases hword : i / 64 = k / 64
  · rw [if_pos ⟨hword, hk⟩]
    have hmod : i % 64 = k % 64 ↔ i = k := by omega
    have hpos : (1#64 <<< (k % 64)).getLsbD (i % 64) = decide (i = k) := by
      have h1 : (1#64 <<< (k % 64)).getLsbD (i % 64) = decide (i % 64 = k % 64) := by
        rw [← BitVec.twoPow_eq, BitVec.getLsbD_twoPow]
        have : k % 64 < 64 := Nat.mod_lt _ (by decide)
        simp [this, eq_comm]
      rw [h1]
      exact decide_eq_decide.mpr hmod
    rw [BitVec.getLsbD_or, hpos, bit, hword]
    exact Bool.or_comm _ _
  · have hne : i ≠ k := fun h => hword (by rw [h])
    rw [if_neg (fun h => hword h.1)]
    simp [hne]

@[simp] theorem length_setBit (words : List Word) (k : ℕ) :
    (setBit words k).length = words.length := by
  simp [setBit]

/-! ## Masks and clearing -/

/-- The low mask, also for the shift by 64, which the machine turns into 0. -/
theorem getLsbD_lowMask (k i : ℕ) (hk : k ≤ 64) : (lowMask k).getLsbD i = decide (i < k) := by
  have hval : (lowMask k).toNat = 2 ^ k - 1 := by
    unfold lowMask
    rw [BitVec.toNat_sub, BitVec.toNat_shiftLeft]
    rcases Nat.lt_or_ge k 64 with hlt | hge
    · have hpow : 2 ^ k < 2 ^ 64 := Nat.pow_lt_pow_right (by decide) hlt
      have hpos : 0 < 2 ^ k := Nat.pow_pos (by decide)
      simp only [BitVec.toNat_ofNat, Nat.shiftLeft_eq, Nat.reducePow, Nat.reduceMod,
        Nat.one_mul] at hpow ⊢
      omega
    · have : k = 64 := by omega
      subst this
      decide
  rw [BitVec.getLsbD, hval, Nat.testBit_two_pow_sub_one]

@[simp] theorem length_zeroWords (words : List Word) (first count : ℕ) :
    (zeroWords words first count).length = words.length := by
  induction count generalizing words first with
  | zero => rfl
  | succ n ih => rw [zeroWords, ih, List.length_set]

/-- The clearing loop clears exactly the bits of the words it visits. -/
theorem bit_zeroWords (words : List Word) (first count i : ℕ) :
    bit (zeroWords words first count) i
      = (bit words i && decide (i / 64 < first ∨ first + count ≤ i / 64)) := by
  induction count generalizing words first with
  | zero =>
    have : i / 64 < first ∨ first ≤ i / 64 := by omega
    simp [zeroWords, this]
  | succ n ih =>
    rw [zeroWords, ih, bit_set]
    by_cases hword : i / 64 = first
    · by_cases hlen : first < words.length
      · simp [hword, hlen]
      · have hclear : bit words i = false := bit_of_length_le words i (by omega)
        simp [hlen, hclear]
    · rw [if_neg (fun h => hword h.1)]
      congr 1
      apply decide_eq_decide.mpr
      omega

end WordBitmap
