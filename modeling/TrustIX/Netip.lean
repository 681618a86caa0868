/-
# Addresses and prefixes

The addresses and prefixes of Go's `net/netip`, without zones: an address of either family or
none, and a prefix that is valid or not.
-/
import TrustIX.AddressBlock

namespace Netip

/-- `netip.Addr`. -/
inductive Addr where
  | invalid
  | v4 (addr : BitVec 32)
  | v6 (addr : BitVec 128)
  deriving DecidableEq

/-- `netip.Prefix`. -/
inductive Prefix where
  | invalid
  | v4 (block : Block 32)
  | v6 (block : Block 128)
  deriving DecidableEq

def Addr.is4 : Addr → Bool
  | .v4 _ => true
  | _ => false

namespace Prefix

def isValid : Prefix → Bool
  | .invalid => false
  | _ => true

def addr : Prefix → Addr
  | .invalid => .invalid
  | .v4 block => .v4 block.addr
  | .v6 block => .v6 block.addr

/-- The bits of a valid prefix. -/
def bits : Prefix → ℕ
  | .invalid => 0
  | .v4 block => block.bits
  | .v6 block => block.bits

def masked : Prefix → Prefix
  | .invalid => .invalid
  | .v4 block => .v4 block.masked
  | .v6 block => .v6 block.masked

def contains : Prefix → Addr → Bool
  | .v4 block, .v4 addr => block.contains addr
  | .v6 block, .v6 addr => block.contains addr
  | _, _ => false

/-- `prefixOverlaps`. -/
def overlaps (left right : Prefix) : Bool :=
  if !left.isValid || !right.isValid then false
  else left.contains right.addr || right.contains left.addr

/-- No address is in both. -/
def Disjoint (left right : Prefix) : Prop :=
  ∀ x, ¬ (left.contains x = true ∧ right.contains x = true)

variable {left right : Prefix}

theorem Disjoint.symm (h : Disjoint left right) : Disjoint right left := fun x hx => h x hx.symm

@[simp] theorem contains_masked (p : Prefix) (x : Addr) : p.masked.contains x = p.contains x := by
  cases p <;> cases x <;> simp [masked, contains]

theorem disjoint_masked_left : Disjoint left.masked right ↔ Disjoint left right := by
  unfold Disjoint
  simp only [contains_masked]

/-- Prefixes overlap if they share an address. -/
theorem disjoint_iff : Disjoint left right ↔ left.overlaps right = false := by
  unfold Disjoint
  rw [← Bool.not_eq_true, ← not_exists, not_iff_not]
  cases left with
  | invalid => simp [overlaps, isValid, contains]
  | v4 a =>
    cases right with
    | invalid => simp [overlaps, isValid, contains]
    | v4 b =>
      have hover := @Block.overlaps_iff 32 a b
      constructor
      · rintro ⟨x, ha, hb⟩
        cases x with
        | invalid => cases ha
        | v4 x => exact hover.mpr ⟨x, ha, hb⟩
        | v6 x => cases ha
      · intro h
        obtain ⟨x, ha, hb⟩ := hover.mp h
        exact ⟨.v4 x, ha, hb⟩
    | v6 b =>
      refine iff_of_false ?_ (by simp [overlaps, isValid, contains, addr])
      rintro ⟨x, ha, hb⟩
      cases x <;> simp [contains] at ha hb
  | v6 a =>
    cases right with
    | invalid => simp [overlaps, isValid, contains]
    | v4 b =>
      refine iff_of_false ?_ (by simp [overlaps, isValid, contains, addr])
      rintro ⟨x, ha, hb⟩
      cases x <;> simp [contains] at ha hb
    | v6 b =>
      have hover := @Block.overlaps_iff 128 a b
      constructor
      · rintro ⟨x, ha, hb⟩
        cases x with
        | invalid => cases ha
        | v4 x => cases ha
        | v6 x => exact hover.mpr ⟨x, ha, hb⟩
      · intro h
        obtain ⟨x, ha, hb⟩ := hover.mp h
        exact ⟨.v6 x, ha, hb⟩

end Prefix

end Netip
