/-
# Grouping a stream by flows

Items arrive one by one.  Those of one flow may be put together in a group, which stays open
until it is closed; an item without a flow goes alone, after all groups that are open.  What
counts is the order of the closed groups.

* `Grouped` : every item is in one group, and items of one flow, or of which one has no flow,
  are in the order in which they arrived;
* `Grouped.close`, `Grouped.alone`, `Grouped.start`, `Grouped.extend` : the steps keep this;
* `Grouped.consecutive` : a group has all items of its flow between two of its own.
-/
import Mathlib.Data.List.Perm.Basic
import Mathlib.Data.List.Range

namespace FlowGroups

variable {κ : Type} {flow : ℕ → Option κ} {n : ℕ} {closed opened : List (List ℕ)}

/-- Two items whose order counts: of one flow, or one of them without. -/
def Related (flow : ℕ → Option κ) (i j : ℕ) : Prop :=
  flow i = flow j ∨ flow i = none ∨ flow j = none

theorem Related.symm {i j : ℕ} (h : Related flow i j) : Related flow j i := by
  rcases h with h | h | h
  · exact .inl h.symm
  · exact .inr (.inr h)
  · exact .inr (.inl h)

/-- The first `n` items in groups, some of them open. -/
structure Grouped (flow : ℕ → Option κ) (n : ℕ) (closed opened : List (List ℕ)) : Prop where
  once : (closed ++ opened).flatten.Perm (List.range n)
  order : (closed ++ opened).flatten.Pairwise fun i j => Related flow i j → i < j
  flows : ∀ group ∈ opened, ∃ key, ∀ i ∈ group, flow i = some key
  apart : opened.Pairwise fun a b => ∀ i ∈ a, ∀ j ∈ b, flow i ≠ flow j

theorem grouped_nil (flow : ℕ → Option κ) : Grouped flow 0 [] [] :=
  ⟨List.Perm.refl _, .nil, by simp, .nil⟩

/-- An item that is not the last one is in a group. -/
theorem Grouped.mem_iff (h : Grouped flow n closed opened) {i : ℕ} :
    i ∈ (closed ++ opened).flatten ↔ i < n := by
  rw [h.once.mem_iff, List.mem_range]

/-- Items of two open groups are not related. -/
theorem not_related_of_apart {a b : List ℕ} {i j : ℕ}
    (ha : ∃ key, ∀ i ∈ a, flow i = some key) (hb : ∃ key, ∀ i ∈ b, flow i = some key)
    (hapart : ∀ i ∈ a, ∀ j ∈ b, flow i ≠ flow j) (hi : i ∈ a) (hj : j ∈ b) :
    ¬Related flow i j := by
  obtain ⟨k, hk⟩ := ha
  obtain ⟨l, hl⟩ := hb
  rintro (heq | hnone | hnone)
  · exact hapart i hi j hj heq
  · rw [hk i hi] at hnone
    cases hnone
  · rw [hl j hj] at hnone
    cases hnone

/-- **Closing a group** moves it before the open ones, to which it has no relation. -/
theorem Grouped.close {front back : List (List ℕ)} {group : List ℕ}
    (h : Grouped flow n closed (front ++ group :: back)) :
    Grouped flow n (closed ++ [group]) (front ++ back) := by
  obtain ⟨honce, horder, hflows, hapart⟩ := h
  have hmem : ∀ other ∈ front ++ back, other ∈ front ++ group :: back := by
    intro other hother
    simp only [List.mem_append, List.mem_cons] at hother ⊢
    tauto
  obtain ⟨hfront, hback, hcross⟩ := List.pairwise_append.mp hapart
  refine ⟨?_, ?_, fun other hother => hflows other (hmem other hother), ?_⟩
  · refine List.Perm.trans (List.Perm.flatten ?_) honce
    rw [List.append_assoc]
    apply List.Perm.append_left
    show (group :: (front ++ back)).Perm _
    exact List.perm_middle.symm
  · have hgroup := hflows group (by simp)
    have hsplit : (closed ++ (front ++ group :: back)).flatten =
        closed.flatten ++ (front.flatten ++ (group ++ back.flatten)) := by
      simp
    have hsplit' : (closed ++ [group] ++ (front ++ back)).flatten =
        closed.flatten ++ (group ++ (front.flatten ++ back.flatten)) := by
      simp
    rw [hsplit, List.pairwise_append, List.pairwise_append, List.pairwise_append] at horder
    obtain ⟨hclosed, ⟨hfront', ⟨hgroup', hback', hgb⟩, hfgb⟩, hall⟩ := horder
    rw [hsplit', List.pairwise_append, List.pairwise_append, List.pairwise_append]
    refine ⟨hclosed, ⟨hgroup', ⟨hfront', hback', ?_⟩, ?_⟩, ?_⟩
    · intro i hi j hj
      exact hfgb i hi j (List.mem_append_right _ hj)
    · intro i hi j hj
      rcases List.mem_append.mp hj with hj | hj
      · intro hrelated
        obtain ⟨other, hother, hj⟩ := List.mem_flatten.mp hj
        exact absurd hrelated.symm (not_related_of_apart
          (hflows other (List.mem_append_left _ hother)) hgroup
          (hcross other hother group List.mem_cons_self) hj hi)
      · exact hgb i hi j hj
    · intro i hi j hj
      apply hall i hi j
      simp only [List.mem_append] at hj ⊢
      tauto
  · refine List.pairwise_append.mpr ⟨hfront, (List.pairwise_cons.mp hback).2, ?_⟩
    intro a ha b hb
    exact hcross a ha b (List.mem_cons_of_mem _ hb)

/-- The next item at the end of everything. -/
theorem Grouped.snoc (h : Grouped flow n closed opened) :
    ((closed ++ opened).flatten ++ [n]).Perm (List.range (n + 1)) ∧
      ((closed ++ opened).flatten ++ [n]).Pairwise fun i j => Related flow i j → i < j := by
  refine ⟨?_, List.pairwise_append.mpr ⟨h.order, List.pairwise_singleton _ _, ?_⟩⟩
  · rw [List.range_succ]
    exact h.once.append_right _
  · intro i hi j hj _
    rw [List.mem_singleton.mp hj]
    exact h.mem_iff.mp hi

/-- **An item without a flow** goes alone, when nothing is open. -/
theorem Grouped.alone (h : Grouped flow n closed []) : Grouped flow (n + 1) (closed ++ [[n]]) [] := by
  obtain ⟨honce, horder⟩ := h.snoc
  refine ⟨?_, ?_, by simp, .nil⟩
  · simpa using honce
  · simpa using horder

/-- **A new group** for a flow that has none. -/
theorem Grouped.start (h : Grouped flow n closed opened) {key : κ} (hkey : flow n = some key)
    (hnew : ∀ group ∈ opened, ∀ i ∈ group, flow i ≠ some key) :
    Grouped flow (n + 1) closed (opened ++ [[n]]) := by
  obtain ⟨honce, horder⟩ := h.snoc
  have hsplit : (closed ++ (opened ++ [[n]])).flatten = (closed ++ opened).flatten ++ [n] := by
    simp
  refine ⟨hsplit ▸ honce, hsplit ▸ horder, ?_, ?_⟩
  · exact List.forall_mem_append.mpr ⟨h.flows, List.forall_mem_singleton.mpr ⟨key, by simpa using hkey⟩⟩
  · refine List.pairwise_append.mpr ⟨h.apart, List.pairwise_singleton _ _, ?_⟩
    intro group hgroup last hlast i hi j hj
    rw [List.mem_singleton.mp hlast] at hj
    rw [List.mem_singleton.mp hj, hkey]
    exact hnew group hgroup i hi

/-- **One more item for an open group** of its flow. -/
theorem Grouped.extend {front back : List (List ℕ)} {group : List ℕ}
    (h : Grouped flow n closed (front ++ group :: back)) {key : κ} (hkey : flow n = some key)
    (hgroup : ∀ i ∈ group, flow i = some key) (hne : group ≠ []) :
    Grouped flow (n + 1) closed (front ++ (group ++ [n]) :: back) := by
  obtain ⟨honce, horder⟩ := h.snoc
  obtain ⟨i₀, hi₀⟩ := List.exists_mem_of_ne_nil group hne
  obtain ⟨hfront, hback, hcross⟩ := List.pairwise_append.mp h.apart
  obtain ⟨hgb, hback⟩ := List.pairwise_cons.mp hback
  have hother : ∀ other ∈ back, ∀ j ∈ other, ¬Related flow n j := by
    intro other hmem j hj
    have hflow := h.flows other (List.mem_append_right _ (List.mem_cons_of_mem _ hmem))
    have hnot := not_related_of_apart ⟨key, hgroup⟩ hflow (hgb other hmem) hi₀ hj
    unfold Related at hnot ⊢
    rwa [hkey, ← hgroup i₀ hi₀]
  have hsplit : (closed ++ (front ++ group :: back)).flatten ++ [n] =
      (closed.flatten ++ front.flatten ++ group) ++ (back.flatten ++ [n]) := by
    simp
  have hsplit' : (closed ++ (front ++ (group ++ [n]) :: back)).flatten =
      (closed.flatten ++ front.flatten ++ group) ++ ([n] ++ back.flatten) := by
    simp
  rw [hsplit] at honce horder
  obtain ⟨hleft, hright, hlr⟩ := List.pairwise_append.mp horder
  obtain ⟨hbacks, -, -⟩ := List.pairwise_append.mp hright
  refine ⟨?_, ?_, ?_, ?_⟩
  · rw [hsplit']
    exact (List.perm_append_comm.append_left _).trans honce
  · rw [hsplit']
    refine List.pairwise_append.mpr ⟨hleft, List.pairwise_append.mpr
      ⟨List.pairwise_singleton _ _, hbacks, ?_⟩, ?_⟩
    · intro i hi j hj hrelated
      rw [List.mem_singleton.mp hi] at hrelated
      obtain ⟨other, hmem, hj⟩ := List.mem_flatten.mp hj
      exact absurd hrelated (hother other hmem j hj)
    · intro i hi j hj
      exact hlr i hi j (List.perm_append_comm.mem_iff.mp hj)
  · intro other hmem
    rcases List.mem_append.mp hmem with hmem | hmem
    · exact h.flows other (List.mem_append_left _ hmem)
    · rcases List.mem_cons.mp hmem with rfl | hmem
      · refine ⟨key, fun i hi => ?_⟩
        rcases List.mem_append.mp hi with hi | hi
        · exact hgroup i hi
        · rwa [List.mem_singleton.mp hi]
      · exact h.flows other (List.mem_append_right _ (List.mem_cons_of_mem _ hmem))
  · -- the flow of the item is that of the group
    have hswap : ∀ i ∈ group ++ [n], flow i = flow i₀ := by
      intro i hi
      rw [hgroup i₀ hi₀]
      rcases List.mem_append.mp hi with hi | hi
      · exact hgroup i hi
      · rwa [List.mem_singleton.mp hi]
    refine List.pairwise_append.mpr ⟨hfront, List.pairwise_cons.mpr ⟨?_, hback⟩, ?_⟩
    · intro b hb i hi j hj
      rw [hswap i hi]
      exact hgb b hb i₀ hi₀ j hj
    · intro a ha b hb i hi j hj
      rcases List.mem_cons.mp hb with rfl | hb
      · rw [hswap j hj]
        exact hcross a ha group List.mem_cons_self i hi i₀ hi₀
      · exact hcross a ha b (List.mem_cons_of_mem _ hb) i hi j hj

/-- **A group is a run** of its flow: a related item between two of its own is in it. -/
theorem Grouped.consecutive (h : Grouped flow n closed []) {group : List ℕ}
    (hgroup : group ∈ closed) {i j k : ℕ} (hi : i ∈ group) (hk : k ∈ group) (hij : i < j)
    (hjk : j < k) (hleft : Related flow i j) (hright : Related flow j k) : j ∈ group := by
  obtain ⟨front, back, rfl⟩ := List.append_of_mem hgroup
  have hsplit : (front ++ group :: back ++ []).flatten =
      front.flatten ++ (group ++ back.flatten) := by
    simp
  have horder := h.order
  have hmem : ∀ x, x ∈ (front ++ group :: back ++ []).flatten ↔ x < n := fun x => h.mem_iff
  rw [hsplit] at horder hmem
  obtain ⟨-, hrest, hfront⟩ := List.pairwise_append.mp horder
  obtain ⟨-, -, hback⟩ := List.pairwise_append.mp hrest
  have hkn : k < n := (hmem k).mp (List.mem_append_right _ (List.mem_append_left _ hk))
  have hj := (hmem j).mpr (hjk.trans hkn)
  rcases List.mem_append.mp hj with hj | hj
  · have := hfront j hj i (List.mem_append_left _ hi) hleft.symm
    omega
  · rcases List.mem_append.mp hj with hj | hj
    · exact hj
    · have := hback k hk j hj hright.symm
      omega

end FlowGroups
