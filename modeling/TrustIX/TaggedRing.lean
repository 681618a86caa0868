/-
# A ring of tagged 64-bit blocks

A set of numbers kept in a fixed ring of `K` slots.  The number `s` belongs to
block `s / 64`, and its block to slot `s / 64 % K`.  A slot holds one block: the
block's number as its tag, and a word with a bit per number.  Marking a number
whose block is not the tag of its slot evicts whatever the slot held.

* `seen_mark_self`, `seen_of_seen_mark` : the ring never invents a number;
* `div_eq_of_slotOf_eq` : two numbers less than `reach K` apart share a slot only
  inside one block;
* `seen_markAll_of_near` : so a batch of numbers near to each other and to what is
  still live evicts nothing that is live.
-/
import Mathlib

namespace TaggedRing

/-- `K` slots, each with the tag of its block and the bits of the block. -/
structure Ring (K : ℕ) where
  tags : Fin K → ℕ
  words : Fin K → BitVec 64

variable {K : ℕ} [NeZero K]

/-- The slot of a number. -/
def slotOf (K : ℕ) [NeZero K] (s : ℕ) : Fin K := Fin.ofNat K (s / 64)

def seen (ring : Ring K) (s : ℕ) : Bool :=
  ring.tags (slotOf K s) == s / 64 && (ring.words (slotOf K s)).getLsbD (s % 64)

/-- Mark `s`, evicting the slot's block if it is another one. -/
def mark (ring : Ring K) (s : ℕ) : Ring K :=
  let kept := if ring.tags (slotOf K s) = s / 64 then ring.words (slotOf K s) else 0#64
  { tags := Function.update ring.tags (slotOf K s) (s / 64)
    words := Function.update ring.words (slotOf K s) (kept ||| BitVec.twoPow 64 (s % 64)) }

def markAll (ring : Ring K) (l : List ℕ) : Ring K := l.foldl mark ring

@[simp] theorem markAll_nil (ring : Ring K) : markAll ring [] = ring := rfl

@[simp] theorem markAll_cons (ring : Ring K) (t : ℕ) (l : List ℕ) :
    markAll ring (t :: l) = markAll (mark ring t) l := rfl

/-! ## One mark -/

/-- What a mark makes of the bit of every number. -/
theorem seen_mark (ring : Ring K) (t s : ℕ) :
    seen (mark ring t) s =
      if slotOf K s = slotOf K t then
        decide (s / 64 = t / 64) && (seen ring s || decide (s % 64 = t % 64))
      else seen ring s := by
  by_cases hslot : slotOf K s = slotOf K t
  · have hlt : s % 64 < 64 := Nat.mod_lt _ (by decide)
    by_cases hblock : s / 64 = t / 64
    · by_cases htag : ring.tags (slotOf K t) = t / 64
      · simp [seen, mark, hslot, hblock, htag, hlt]
      · simp [seen, mark, hslot, hblock, htag, beq_eq_false_iff_ne.mpr htag, hlt]
    · have hne : t / 64 ≠ s / 64 := fun h => hblock h.symm
      simp [seen, mark, hslot, hblock, hne]
  · simp [seen, mark, hslot]

theorem seen_mark_self (ring : Ring K) (s : ℕ) : seen (mark ring s) s = true := by
  rw [seen_mark]
  simp

variable {ring : Ring K}

/-- A number that is seen after a mark was seen before it, or is the one marked. -/
theorem seen_of_seen_mark {s t : ℕ} (h : seen (mark ring t) s = true) :
    s = t ∨ seen ring s = true := by
  rw [seen_mark] at h
  split_ifs at h with hslot
  · simp only [Bool.and_eq_true, Bool.or_eq_true, decide_eq_true_eq] at h
    obtain ⟨hblock, hold | hbit⟩ := h
    · exact Or.inr hold
    · left
      omega
  · exact Or.inr h

/-- A mark evicts no number unless it brings another block to the same slot. -/
theorem seen_mark_of_seen {s t : ℕ} (h : seen ring s = true)
    (hnear : slotOf K s = slotOf K t → s / 64 = t / 64) : seen (mark ring t) s = true := by
  rw [seen_mark]
  split_ifs with hslot
  · simp [hnear hslot, h]
  · exact h

/-! ## Numbers that cannot evict each other -/

/-- Numbers less than this apart never evict each other: one number more, and the
last of a block meets the first of the block `K` further on. -/
def reach (K : ℕ) : ℕ := (K - 1) * 64 + 1

theorem div_eq_of_slotOf_eq {s t : ℕ} (hslot : slotOf K s = slotOf K t)
    (hst : s < t + reach K) (hts : t < s + reach K) : s / 64 = t / 64 := by
  have hmod : s / 64 ≡ t / 64 [MOD K] := congrArg Fin.val hslot
  by_contra hne
  rcases Nat.lt_or_gt_of_ne hne with hlt | hlt
  · have hgap : K ≤ t / 64 - s / 64 :=
      Nat.le_of_dvd (by omega) ((Nat.modEq_iff_dvd' hlt.le).mp hmod)
    unfold reach at hts
    omega
  · have hgap : K ≤ s / 64 - t / 64 :=
      Nat.le_of_dvd (by omega) ((Nat.modEq_iff_dvd' hlt.le).mp hmod.symm)
    unfold reach at hst
    omega

/-! ## Many marks -/

theorem seen_of_seen_markAll {l : List ℕ} {s : ℕ}
    (h : seen (markAll ring l) s = true) : s ∈ l ∨ seen ring s = true := by
  induction l generalizing ring with
  | nil => exact Or.inr h
  | cons t l ih =>
    rcases ih h with hmem | hseen
    · exact Or.inl (List.mem_cons_of_mem _ hmem)
    · rcases seen_of_seen_mark hseen with rfl | hold
      · exact Or.inl List.mem_cons_self
      · exact Or.inr hold

/-- Marks of numbers `l` up to `last` keep every number seen that is less than `w`
below `last`, when `w` is within reach and no number of `l` is `w` or more below
one that came before it. -/
theorem seen_markAll_of_near {w last : ℕ} (hw : w ≤ reach K)
    {before l : List ℕ} (hbefore : ∀ s ∈ before, last < s + w → seen ring s = true)
    (hle : ∀ t ∈ l, t ≤ last) (hnear : ∀ s ∈ before, ∀ t ∈ l, s < t + w)
    (hpair : l.Pairwise (fun s t => s < t + w)) :
    ∀ s ∈ before ++ l, last < s + w → seen (markAll ring l) s = true := by
  induction l generalizing ring before with
  | nil => simpa using hbefore
  | cons t l ih =>
    obtain ⟨hhead, htail⟩ := List.pairwise_cons.mp hpair
    have hstep : ∀ s ∈ before ++ [t], last < s + w → seen (mark ring t) s = true := by
      intro s hs hlive
      rcases List.mem_append.mp hs with hold | hnew
      · apply seen_mark_of_seen (hbefore s hold hlive)
        intro hslot
        have hst := hnear s hold t List.mem_cons_self
        have htl := hle t List.mem_cons_self
        exact div_eq_of_slotOf_eq hslot (by omega) (by omega)
      · rw [List.mem_singleton.mp hnew]
        exact seen_mark_self ring t
    have hnear' : ∀ s ∈ before ++ [t], ∀ u ∈ l, s < u + w := by
      intro s hs u hu
      rcases List.mem_append.mp hs with hold | hnew
      · exact hnear s hold u (List.mem_cons_of_mem _ hu)
      · rw [List.mem_singleton.mp hnew]
        exact hhead u hu
    intro s hs
    rw [List.append_cons] at hs
    exact ih hstep (fun u hu => hle u (List.mem_cons_of_mem _ hu)) hnear' htail s hs

end TaggedRing
