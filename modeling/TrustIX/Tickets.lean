/-
# Tickets from a counter

Several holders draw numbers from one counter, each number at most once, and use the numbers
they hold one after the other, or throw them away.  `Distributed` says that all numbers used
and held so far are different numbers that were drawn; drawing, using and discarding keep it.
-/
import Mathlib

namespace Tickets

variable {ι : Type*}

/-- The numbers used so far, those held by each holder, and the last number drawn. -/
structure Distributed (used : List ℕ) (held : ι → List ℕ) (taken : ℕ) : Prop where
  used_nodup : used.Nodup
  used_le : ∀ t ∈ used, 1 ≤ t ∧ t ≤ taken
  held_nodup : ∀ i, (held i).Nodup
  held_le : ∀ i, ∀ t ∈ held i, 1 ≤ t ∧ t ≤ taken
  held_used : ∀ i, ∀ t ∈ held i, t ∉ used
  held_disjoint : ∀ i j, i ≠ j → ∀ t ∈ held i, t ∉ held j

theorem distributed_start : Distributed [] (fun _ : ι => []) 0 where
  used_nodup := List.nodup_nil
  used_le := nofun
  held_nodup := fun _ => List.nodup_nil
  held_le := fun _ => nofun
  held_used := fun _ => nofun
  held_disjoint := fun _ _ _ => nofun

variable [DecidableEq ι] {used : List ℕ} {held : ι → List ℕ} {taken : ℕ}

/-- What holder `i` throws away leaves the others alone. -/
theorem Distributed.discard (h : Distributed used held taken) {i : ι} {rest : List ℕ}
    (hrest : rest.Sublist (held i)) :
    Distributed used (Function.update held i rest) taken := by
  have hmem : ∀ j, ∀ t ∈ Function.update held i rest j, t ∈ held j := by
    intro j t ht
    rcases eq_or_ne j i with rfl | hne
    · rw [Function.update_self] at ht
      exact hrest.subset ht
    · rwa [Function.update_of_ne hne] at ht
  refine ⟨h.used_nodup, h.used_le, ?_, ?_, ?_, ?_⟩
  · intro j
    rcases eq_or_ne j i with rfl | hne
    · rw [Function.update_self]
      exact (h.held_nodup j).sublist hrest
    · rw [Function.update_of_ne hne]
      exact h.held_nodup j
  · exact fun j t ht => h.held_le j t (hmem j t ht)
  · exact fun j t ht => h.held_used j t (hmem j t ht)
  · exact fun j k hne t ht ht' => h.held_disjoint j k hne t (hmem j t ht) (hmem k t ht')

/-- **Using the next number** of holder `i`. -/
theorem Distributed.use (h : Distributed used held taken) {i : ι} {t : ℕ} {rest : List ℕ}
    (hheld : held i = t :: rest) :
    Distributed (used ++ [t]) (Function.update held i rest) taken := by
  have hsub : rest.Sublist (held i) := by
    rw [hheld]
    exact List.sublist_cons_self _ _
  have hdiscard := h.discard hsub
  have hmine : t ∈ held i := by
    rw [hheld]
    exact List.mem_cons_self
  refine ⟨?_, ?_, hdiscard.held_nodup, hdiscard.held_le, ?_, hdiscard.held_disjoint⟩
  · refine List.nodup_append.mpr ⟨h.used_nodup, List.nodup_singleton t, ?_⟩
    intro a ha b hb hab
    rw [List.mem_singleton.mp hb] at hab
    exact h.held_used i t hmine (hab ▸ ha)
  · exact List.forall_mem_append.mpr ⟨h.used_le, List.forall_mem_singleton.mpr (h.held_le i t hmine)⟩
  · intro j a ha hused
    rcases List.mem_append.mp hused with hold | hnew
    · exact hdiscard.held_used j a ha hold
    · -- nobody else holds the number, and `i` held it once
      rw [List.mem_singleton.mp hnew] at ha
      rcases eq_or_ne j i with rfl | hne
      · rw [Function.update_self] at ha
        have hnodup := h.held_nodup j
        rw [hheld] at hnodup
        exact (List.nodup_cons.mp hnodup).1 ha
      · rw [Function.update_of_ne hne] at ha
        exact h.held_disjoint j i hne t ha hmine

/-- **Drawing `count` numbers** for a holder without any. -/
theorem Distributed.draw (h : Distributed used held taken) {i : ι} (hnone : held i = [])
    (count : ℕ) :
    Distributed used (Function.update held i (List.range' (taken + 1) count)) (taken + count) := by
  have hcases : ∀ j t, t ∈ Function.update held i (List.range' (taken + 1) count) j →
      (j = i ∧ taken + 1 ≤ t ∧ t ≤ taken + count) ∨ (j ≠ i ∧ t ∈ held j) := by
    intro j t ht
    rcases eq_or_ne j i with rfl | hne
    · rw [Function.update_self, List.mem_range'_1] at ht
      exact Or.inl ⟨rfl, by omega, by omega⟩
    · rw [Function.update_of_ne hne] at ht
      exact Or.inr ⟨hne, ht⟩
  refine ⟨h.used_nodup, ?_, ?_, ?_, ?_, ?_⟩
  · intro t ht
    obtain ⟨hpos, hle⟩ := h.used_le t ht
    exact ⟨hpos, by omega⟩
  · intro j
    rcases eq_or_ne j i with rfl | hne
    · rw [Function.update_self]
      exact List.nodup_range'
    · rw [Function.update_of_ne hne]
      exact h.held_nodup j
  · intro j t ht
    rcases hcases j t ht with ⟨-, hlow, hhigh⟩ | ⟨-, hold⟩
    · exact ⟨by omega, hhigh⟩
    · obtain ⟨hpos, hle⟩ := h.held_le j t hold
      exact ⟨hpos, by omega⟩
  · intro j t ht hused
    rcases hcases j t ht with ⟨-, hlow, -⟩ | ⟨-, hold⟩
    · have := (h.used_le t hused).2
      omega
    · exact h.held_used j t hold hused
  · intro j k hne t ht ht'
    rcases hcases j t ht with ⟨rfl, hlow, -⟩ | ⟨-, hold⟩
    · rcases hcases k t ht' with ⟨rfl, -, -⟩ | ⟨-, hold'⟩
      · exact hne rfl
      · have := (h.held_le k t hold').2
        omega
    · rcases hcases k t ht' with ⟨rfl, hlow, -⟩ | ⟨-, hold'⟩
      · have := (h.held_le j t hold).2
        omega
      · exact h.held_disjoint j k hne t hold hold'

end Tickets
