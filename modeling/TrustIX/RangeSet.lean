/-
# Sets kept as ranges

A finite set of numbers is kept as a sorted list of ranges with gaps between them.  A new
range is appended, the list is sorted by where the ranges start, and ranges that touch are
merged.

* `merge_spec` : merging keeps the set, leaves gaps, and tears no range apart;
* `add_spec` : the same for one more range.
-/
import Mathlib.Data.List.Sort
import Mathlib.Order.Interval.Finset.Nat

namespace RangeSet

/-- The numbers from `start` up to, and without, `stop`. -/
structure Range where
  start : ℕ
  stop : ℕ
  deriving DecidableEq

/-- The numbers of a list of ranges. -/
def covered (ranges : List Range) : Finset ℕ :=
  ranges.toFinset.biUnion fun r => Finset.Ico r.start r.stop

/-- The last range of a sorted list is extended, or a new one opened; the list is kept with
its last range first. -/
def mergeStep : List Range → Range → List Range
  | [], next => [next]
  | last :: rest, next =>
    if next.start > last.stop then next :: last :: rest
    else if next.stop > last.stop then ⟨last.start, next.stop⟩ :: rest
    else last :: rest

/-- Ranges that touch, in a sorted list, become one. -/
def merge (ranges : List Range) : List Range := (ranges.foldl mergeStep []).reverse

/-- One more range. -/
def add (ranges : List Range) (r : Range) : List Range :=
  merge ((ranges ++ [r]).insertionSort fun a b => a.start ≤ b.start)

/-- No range is empty, and there are gaps between them. -/
structure Normal (ranges : List Range) : Prop where
  nonempty : ∀ r ∈ ranges, r.start < r.stop
  gaps : ranges.Pairwise fun a b => a.stop < b.start

variable {ranges : List Range} {r : Range} {i : ℕ}

theorem mem_covered : i ∈ covered ranges ↔ ∃ r ∈ ranges, r.start ≤ i ∧ i < r.stop := by
  simp [covered]

theorem normal_nil : Normal [] := ⟨by simp, .nil⟩

/-! ## Merging -/

/-- What the merged ranges, the last one first, keep of the ranges that were merged. -/
structure Merged (ranges acc : List Range) : Prop where
  nonempty : ∀ r ∈ acc, r.start < r.stop
  gaps : acc.Pairwise fun a b => b.stop < a.start
  covers : ∀ i, (∃ r ∈ acc, r.start ≤ i ∧ i < r.stop) ↔ ∃ r ∈ ranges, r.start ≤ i ∧ i < r.stop
  whole : ∀ r ∈ ranges, ∃ s ∈ acc, s.start ≤ r.start ∧ r.stop ≤ s.stop
  starts : ∀ s ∈ acc, ∃ r ∈ ranges, s.start = r.start

theorem Merged.open {acc : List Range} {next : Range} (h : Merged ranges acc)
    (hnext : next.start < next.stop) (hafter : ∀ s ∈ acc, s.stop < next.start) :
    Merged (ranges ++ [next]) (next :: acc) := by
  refine ⟨?_, List.pairwise_cons.mpr ⟨hafter, h.gaps⟩, fun i => ?_, fun r hr => ?_, fun s hs => ?_⟩
  · intro r hr
    rcases List.mem_cons.mp hr with rfl | hr
    · exact hnext
    · exact h.nonempty r hr
  · simp only [List.mem_cons, List.mem_append, or_and_right, exists_or, exists_eq_left,
      h.covers i, List.not_mem_nil, or_false]
    exact or_comm
  · rcases List.mem_append.mp hr with hr | hr
    · obtain ⟨s, hs, hinside⟩ := h.whole r hr
      exact ⟨s, List.mem_cons_of_mem _ hs, hinside⟩
    · rw [List.mem_singleton.mp hr]
      exact ⟨next, List.mem_cons_self, le_rfl, le_rfl⟩
  · rcases List.mem_cons.mp hs with rfl | hs
    · exact ⟨s, by simp, rfl⟩
    · obtain ⟨r, hr, hstart⟩ := h.starts s hs
      exact ⟨r, List.mem_append_left _ hr, hstart⟩

/-- The last range swallows one that starts within it. -/
theorem Merged.extend {last next : Range} {rest : List Range} (h : Merged ranges (last :: rest))
    (hstart : last.start ≤ next.start) (htouch : next.start ≤ last.stop) :
    Merged (ranges ++ [next]) (⟨last.start, max last.stop next.stop⟩ :: rest) := by
  have hlast := h.nonempty last List.mem_cons_self
  refine ⟨?_, ?_, fun i => ?_, fun r hr => ?_, fun s hs => ?_⟩
  · intro r hr
    rcases List.mem_cons.mp hr with rfl | hr
    · exact lt_max_of_lt_left hlast
    · exact h.nonempty r (List.mem_cons_of_mem _ hr)
  · have hgaps := List.pairwise_cons.mp h.gaps
    exact List.pairwise_cons.mpr hgaps
  · have hsplit : (last.start ≤ i ∧ i < max last.stop next.stop) ↔
        (last.start ≤ i ∧ i < last.stop) ∨ (next.start ≤ i ∧ i < next.stop) := by omega
    have hcovers := h.covers i
    simp only [List.mem_cons, List.mem_append, or_and_right, exists_or, exists_eq_left, hsplit,
      ← hcovers, List.not_mem_nil, or_false]
    exact or_right_comm
  · rcases List.mem_append.mp hr with hr | hr
    · obtain ⟨s, hs, hinside⟩ := h.whole r hr
      rcases List.mem_cons.mp hs with rfl | hs
      · exact ⟨_, List.mem_cons_self, hinside.1, hinside.2.trans (le_max_left _ _)⟩
      · exact ⟨s, List.mem_cons_of_mem _ hs, hinside⟩
    · rw [List.mem_singleton.mp hr]
      exact ⟨_, List.mem_cons_self, hstart, le_max_right _ _⟩
  · rcases List.mem_cons.mp hs with rfl | hs
    · obtain ⟨r, hr, hsame⟩ := h.starts last List.mem_cons_self
      exact ⟨r, List.mem_append_left _ hr, hsame⟩
    · obtain ⟨r, hr, hsame⟩ := h.starts s (List.mem_cons_of_mem _ hs)
      exact ⟨r, List.mem_append_left _ hr, hsame⟩

theorem Merged.step {acc : List Range} {next : Range} (h : Merged ranges acc)
    (hnext : next.start < next.stop) (hlast : ∀ r ∈ ranges, r.start ≤ next.start) :
    Merged (ranges ++ [next]) (mergeStep acc next) := by
  cases acc with
  | nil => exact h.open hnext (by simp)
  | cons last rest =>
    obtain ⟨r, hr, hsame⟩ := h.starts last List.mem_cons_self
    have hstart : last.start ≤ next.start := hsame ▸ hlast r hr
    have hbefore := (List.pairwise_cons.mp h.gaps).1
    simp only [mergeStep]
    split_ifs with hgap hlonger
    · refine h.open hnext fun s hs => ?_
      rcases List.mem_cons.mp hs with rfl | hs
      · exact hgap
      · exact (hbefore s hs).trans_le hstart
    · have hextended := h.extend hstart (not_lt.mp hgap)
      rwa [max_eq_right hlonger.le] at hextended
    · have hextended := h.extend hstart (not_lt.mp hgap)
      rwa [max_eq_left (not_lt.mp hlonger)] at hextended

/-- **Merging** keeps the set, leaves gaps and tears no range apart. -/
theorem merge_spec (hsorted : ranges.Pairwise fun a b => a.start ≤ b.start)
    (hnonempty : ∀ r ∈ ranges, r.start < r.stop) :
    Normal (merge ranges) ∧ covered (merge ranges) = covered ranges ∧
      ∀ r ∈ ranges, ∃ s ∈ merge ranges, s.start ≤ r.start ∧ r.stop ≤ s.stop := by
  have hloop : ∀ front back acc : List Range, ranges = front ++ back → Merged front acc →
      Merged ranges (back.foldl mergeStep acc) := by
    intro front back
    induction back generalizing front with
    | nil =>
      intro acc hsplit hmerged
      rw [hsplit, List.append_nil]
      exact hmerged
    | cons next back ih =>
      intro acc hsplit hmerged
      refine ih (front ++ [next]) _ (by simp [hsplit]) (hmerged.step ?_ ?_)
      · exact hnonempty next (by simp [hsplit])
      · intro r hr
        rw [hsplit] at hsorted
        exact (List.pairwise_append.mp hsorted).2.2 r hr next List.mem_cons_self
  have hmerged := hloop [] ranges [] rfl ⟨by simp, .nil, by simp, by simp, by simp⟩
  unfold merge
  refine ⟨⟨?_, ?_⟩, ?_, ?_⟩
  · intro r hr
    exact hmerged.nonempty r (List.mem_reverse.mp hr)
  · rw [List.pairwise_reverse]
    exact hmerged.gaps
  · ext i
    rw [mem_covered, mem_covered, ← hmerged.covers i]
    simp
  · intro r hr
    obtain ⟨s, hs, hinside⟩ := hmerged.whole r hr
    exact ⟨s, List.mem_reverse.mpr hs, hinside⟩

/-- **One more range** joins the set; every range stays in one piece. -/
theorem add_spec (hnonempty : ∀ s ∈ ranges, s.start < s.stop) (hr : r.start < r.stop) :
    Normal (add ranges r) ∧ covered (add ranges r) = covered ranges ∪ Finset.Ico r.start r.stop ∧
      ∀ s, s ∈ ranges ∨ s = r → ∃ t ∈ add ranges r, t.start ≤ s.start ∧ s.stop ≤ t.stop := by
  have hmem : ∀ s, s ∈ (ranges ++ [r]).insertionSort (fun a b => a.start ≤ b.start) ↔
      s ∈ ranges ∨ s = r := by
    intro s
    rw [List.mem_insertionSort, List.mem_append, List.mem_singleton]
  have hall : ∀ s ∈ (ranges ++ [r]).insertionSort (fun a b => a.start ≤ b.start),
      s.start < s.stop := by
    intro s hs
    rcases (hmem s).mp hs with hs | rfl
    · exact hnonempty s hs
    · exact hr
  obtain ⟨hnormal, hcovered, hwhole⟩ := merge_spec (List.pairwise_insertionSort _ _) hall
  refine ⟨hnormal, ?_, fun s hs => hwhole s ((hmem s).mpr hs)⟩
  unfold add
  rw [hcovered]
  ext i
  rw [mem_covered, Finset.mem_union, mem_covered, Finset.mem_Ico]
  simp only [hmem, or_and_right, exists_or, exists_eq_left]

end RangeSet
