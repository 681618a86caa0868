/-
# Blocks of addresses

A block of `w`-bit addresses is what a number of leading bits have in common with an address.

* `overlaps_iff` : two blocks that overlap, by the test of one address each, share an address;
* `contains_masked` : a block does not depend on which of its addresses tells it.
-/
import Mathlib

@[ext] structure Block (w : ℕ) where
  addr : BitVec w
  bits : ℕ
  bound : bits ≤ w
  deriving DecidableEq

namespace Block

variable {w : ℕ} {a b c : Block w} {x y : BitVec w}

/-- The number of addresses. -/
def size (b : Block w) : ℕ := 2 ^ (w - b.bits)

/-- The block of one address. -/
def single (x : BitVec w) : Block w := ⟨x, w, le_rfl⟩

def contains (b : Block w) (x : BitVec w) : Bool :=
  decide (x.toNat / b.size = b.addr.toNat / b.size)

/-- The block, told by its lowest address. -/
def masked (b : Block w) : Block w :=
  { b with addr := BitVec.ofNat w (b.addr.toNat / b.size * b.size) }

/-- One block contains the address that tells the other. -/
def overlaps (a b : Block w) : Bool := a.contains b.addr || b.contains a.addr

theorem size_pos (b : Block w) : 0 < b.size := Nat.two_pow_pos _

theorem contains_iff : b.contains x = true ↔ x.toNat / b.size = b.addr.toNat / b.size :=
  decide_eq_true_iff

theorem contains_addr (b : Block w) : b.contains b.addr = true := contains_iff.mpr rfl

@[simp] theorem size_masked (b : Block w) : b.masked.size = b.size := rfl

theorem toNat_masked (b : Block w) : b.masked.addr.toNat = b.addr.toNat / b.size * b.size := by
  show (BitVec.ofNat w _).toNat = _
  rw [BitVec.toNat_ofNat]
  exact Nat.mod_eq_of_lt ((Nat.div_mul_le_self _ _).trans_lt b.addr.isLt)

@[simp] theorem contains_masked (b : Block w) (x : BitVec w) :
    b.masked.contains x = b.contains x := by
  unfold contains
  rw [toNat_masked, size_masked, Nat.mul_div_cancel _ b.size_pos]

@[simp] theorem masked_masked (b : Block w) : b.masked.masked = b.masked := by
  have haddr : b.masked.masked.addr = b.masked.addr := by
    apply BitVec.eq_of_toNat_eq
    rw [toNat_masked, toNat_masked, size_masked, Nat.mul_div_cancel _ b.size_pos]
  exact Block.ext haddr rfl

theorem contains_single : (single x).contains y = true ↔ y = x := by
  have hsize : (single x).size = 1 := by
    show 2 ^ (w - w) = 1
    rw [Nat.sub_self, pow_zero]
  rw [contains_iff, hsize, Nat.div_one, Nat.div_one]
  exact ⟨fun h => BitVec.eq_of_toNat_eq h, fun h => h ▸ rfl⟩

/-- A block that has more leading bits divides one that has fewer. -/
theorem contains_of_le (h : a.bits ≤ b.bits) (hx : b.contains x = true) :
    a.contains x = true ↔ a.contains b.addr = true := by
  have hsize : a.size = b.size * 2 ^ (b.bits - a.bits) := by
    have hb := b.bound
    unfold size
    rw [← pow_add]
    congr 1
    omega
  rw [contains_iff] at hx
  rw [contains_iff, contains_iff, hsize, ← Nat.div_div_eq_div_mul, ← Nat.div_div_eq_div_mul,
    ← Nat.div_div_eq_div_mul, hx]

/-- **Blocks that overlap share an address.** -/
theorem overlaps_iff : a.overlaps b = true ↔ ∃ x, a.contains x = true ∧ b.contains x = true := by
  unfold overlaps
  rw [Bool.or_eq_true]
  constructor
  · rintro (h | h)
    · exact ⟨b.addr, h, b.contains_addr⟩
    · exact ⟨a.addr, a.contains_addr, h⟩
  · rintro ⟨x, ha, hb⟩
    rcases Nat.le_total a.bits b.bits with hle | hle
    · exact .inl ((contains_of_le hle hb).mp ha)
    · exact .inr ((contains_of_le hle ha).mp hb)

end Block
