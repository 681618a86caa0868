/-
# Big-endian numbers

Numbers written in a fixed count of bytes, the most significant one first, and read back.

* `get_put` : what is written reads back, modulo the width;
* `put_get` : what is read is written back;
* `put_injective` : numbers that fit are told apart.
-/
import Mathlib

namespace BigEndian

/-- `n` in `width` bytes. -/
def put : ℕ → ℕ → List UInt8
  | 0, _ => []
  | width + 1, n => UInt8.ofNat (n / 256 ^ width) :: put width n

/-- The number that bytes write. -/
def get (bytes : List UInt8) : ℕ := bytes.foldl (fun acc byte => acc * 256 + byte.toNat) 0

@[simp] theorem length_put (width n : ℕ) : (put width n).length = width := by
  induction width with
  | zero => rfl
  | succ width ih => rw [put, List.length_cons, ih]

theorem foldl_eq (bytes : List UInt8) (acc : ℕ) :
    bytes.foldl (fun acc byte => acc * 256 + byte.toNat) acc =
      acc * 256 ^ bytes.length + get bytes := by
  induction bytes generalizing acc with
  | nil => simp [get]
  | cons byte rest ih =>
    rw [get, List.foldl_cons, List.foldl_cons, ih, ih (0 * 256 + _), List.length_cons, pow_succ]
    ring

theorem get_cons (byte : UInt8) (rest : List UInt8) :
    get (byte :: rest) = byte.toNat * 256 ^ rest.length + get rest := by
  rw [get, List.foldl_cons, foldl_eq]
  simp

/-- A number that was read fits the bytes it was read from. -/
theorem get_lt (bytes : List UInt8) : get bytes < 256 ^ bytes.length := by
  induction bytes with
  | nil => simp [get]
  | cons byte rest ih =>
    have hbyte := byte.toNat_lt
    rw [get_cons, List.length_cons, pow_succ]
    calc byte.toNat * 256 ^ rest.length + get rest
        < byte.toNat * 256 ^ rest.length + 256 ^ rest.length := by omega
      _ = (byte.toNat + 1) * 256 ^ rest.length := by ring
      _ ≤ 256 * 256 ^ rest.length := Nat.mul_le_mul_right _ (by omega)
      _ = 256 ^ rest.length * 256 := by ring

/-- **What is written reads back.** -/
theorem get_put (width n : ℕ) : get (put width n) = n % 256 ^ width := by
  induction width with
  | zero => simp [put, get, Nat.mod_one]
  | succ width ih =>
    have hbyte : (UInt8.ofNat (n / 256 ^ width)).toNat = n / 256 ^ width % 256 := UInt8.toNat_ofNat'
    have hmod : n % (256 ^ width * 256) = n % 256 ^ width + 256 ^ width * (n / 256 ^ width % 256) :=
      Nat.mod_mul
    rw [put, get_cons, length_put, ih, hbyte, pow_succ, hmod]
    ring

theorem get_put_of_lt {width n : ℕ} (h : n < 256 ^ width) : get (put width n) = n := by
  rw [get_put, Nat.mod_eq_of_lt h]

/-- Numbers that fit are told apart. -/
theorem put_injective {width m n : ℕ} (hm : m < 256 ^ width) (hn : n < 256 ^ width)
    (h : put width m = put width n) : m = n := by
  rw [← get_put_of_lt hm, ← get_put_of_lt hn, h]

/-- The bytes before the last ones write the leading part. -/
theorem put_add_mul {width a b : ℕ} (hb : b < 256 ^ width) :
    put width (a * 256 ^ width + b) = put width b := by
  have hgeneral : ∀ k ≤ width, put k (a * 256 ^ width + b) = put k b := by
    intro k hk
    induction k with
    | zero => rfl
    | succ k ih =>
      rw [put, put, ih (by omega)]
      congr 1
      obtain ⟨d, rfl⟩ : ∃ d, width = k + 1 + d := ⟨width - (k + 1), by omega⟩
      have hsplit : a * 256 ^ (k + 1 + d) = 256 ^ k * (a * 256 ^ d * 256) := by ring
      rw [hsplit, Nat.mul_add_div (by positivity)]
      apply UInt8.toNat_inj.mp
      rw [UInt8.toNat_ofNat', UInt8.toNat_ofNat']
      omega
  exact hgeneral width le_rfl

/-- **What is read is written back.** -/
theorem put_get (bytes : List UInt8) : put bytes.length (get bytes) = bytes := by
  induction bytes with
  | nil => rfl
  | cons byte rest ih =>
    have hlt := get_lt rest
    rw [List.length_cons, put, get_cons, put_add_mul hlt, ih, Nat.mul_comm,
      Nat.mul_add_div (by positivity), Nat.div_eq_of_lt hlt, Nat.add_zero, UInt8.ofNat_toNat]

end BigEndian
