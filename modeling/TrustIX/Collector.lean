/-
# Collecting the parts of a whole

Parts of a whole arrive one by one, in any order, and may arrive again.  As soon as all of
them are there the whole is complete and the collection starts anew.

* `one_le_rounds` : when every part arrives, the whole is completed;
* `rounds_le_count` : it is completed at most as often as any of its parts arrives.
-/
import Mathlib.Data.Finset.Basic
import Mathlib.Data.List.Count

namespace Collector

variable {ι : Type} [DecidableEq ι]

/-- The parts that are there after one more. -/
def next (whole pending : Finset ι) (part : ι) : Finset ι :=
  if insert part pending = whole then ∅ else insert part pending

/-- How often the whole is completed. -/
def rounds (whole : Finset ι) : Finset ι → List ι → ℕ
  | _, [] => 0
  | pending, part :: parts =>
    (if insert part pending = whole then 1 else 0) + rounds whole (next whole pending part) parts

variable {whole pending : Finset ι} {parts : List ι}

theorem next_subset {part : ι} (hpending : pending ⊆ whole) (hpart : part ∈ whole) :
    next whole pending part ⊆ whole := by
  unfold next
  split_ifs
  · exact Finset.empty_subset _
  · exact Finset.insert_subset hpart hpending

/-- **Nothing is lost.** -/
theorem one_le_rounds (hpending : pending ⊂ whole) (hparts : ∀ part ∈ parts, part ∈ whole)
    (hall : ∀ part ∈ whole, part ∈ pending ∨ part ∈ parts) : 1 ≤ rounds whole pending parts := by
  induction parts generalizing pending with
  | nil =>
    obtain ⟨part, hpart, hnot⟩ := Finset.exists_of_ssubset hpending
    exact absurd (hall part hpart) (by simp [hnot])
  | cons part parts ih =>
    unfold rounds next
    split_ifs with hcomplete
    · omega
    · rw [Nat.zero_add]
      rw [List.forall_mem_cons] at hparts
      have hsub : insert part pending ⊆ whole := Finset.insert_subset hparts.1 hpending.subset
      apply ih (hsub.ssubset_of_ne hcomplete) hparts.2
      intro other hother
      rcases hall other hother with hthere | hlater
      · exact .inl (Finset.mem_insert_of_mem hthere)
      · rcases List.mem_cons.mp hlater with rfl | hlater
        · exact .inl (Finset.mem_insert_self _ _)
        · exact .inr hlater

/-- **Nothing is made up.** -/
theorem rounds_le_count {part : ι} (hpart : part ∈ whole) :
    rounds whole pending parts ≤ parts.count part + if part ∈ pending then 1 else 0 := by
  induction parts generalizing pending with
  | nil =>
    unfold rounds
    exact Nat.zero_le _
  | cons first parts ih =>
    unfold rounds next
    by_cases hcomplete : insert first pending = whole
    · -- the part is this one or was there before
      rw [if_pos hcomplete, if_pos hcomplete]
      have hrest := @ih ∅
      rw [if_neg (Finset.notMem_empty part)] at hrest
      rw [← hcomplete, Finset.mem_insert] at hpart
      rcases hpart with rfl | hthere
      · rw [List.count_cons_self]
        omega
      · have hcons : parts.count part ≤ (first :: parts).count part := List.count_le_count_cons
        rw [if_pos hthere]
        omega
    · rw [if_neg hcomplete, if_neg hcomplete]
      have hrest := @ih (insert first pending)
      by_cases hfirst : part = first
      · subst hfirst
        rw [if_pos (Finset.mem_insert_self _ _)] at hrest
        rw [List.count_cons_self]
        omega
      · simp only [Finset.mem_insert, hfirst, false_or] at hrest
        rw [List.count_cons_of_ne (Ne.symm hfirst)]
        omega

end Collector
