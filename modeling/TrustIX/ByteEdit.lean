/-
# Slices of lists and writing over them

A part of a list is read, and written over by another list of the same length, which leaves
everything else as it was.

* `getElem?_overwrite` : every element after a write;
* `slice_overwrite`, `slice_overwrite_of_disjoint` : what is read back;
* `Off` : two lists that agree off some places, which is how writes one after the other are
  put together.
-/
import Mathlib.Data.List.Basic

namespace ByteEdit

variable {α : Type} {data payload : List α} {start count i : ℕ}

/-- `count` elements from `start` on. -/
def slice (data : List α) (start count : ℕ) : List α := (data.drop start).take count

/-- The elements from `start` on are replaced by those of `payload`. -/
def overwrite (data : List α) (start : ℕ) (payload : List α) : List α :=
  data.take start ++ payload ++ data.drop (start + payload.length)

theorem length_slice (h : start + count ≤ data.length) : (slice data start count).length = count := by
  rw [slice, List.length_take, List.length_drop]
  omega

theorem getElem?_slice : (slice data start count)[i]? = if i < count then data[start + i]? else none := by
  rw [slice]
  split_ifs with h
  · rw [List.getElem?_take_of_lt h, List.getElem?_drop]
  · exact List.getElem?_eq_none (by rw [List.length_take]; omega)

theorem slice_congr {a b : List α} (h : ∀ i, start ≤ i → i < start + count → a[i]? = b[i]?) :
    slice a start count = slice b start count := by
  apply List.ext_getElem?
  intro i
  rw [getElem?_slice, getElem?_slice]
  split_ifs with hi
  · exact h _ (by omega) (by omega)
  · rfl

theorem slice_take {n : ℕ} (h : start + count ≤ n) :
    slice (data.take n) start count = slice data start count :=
  slice_congr fun i _ hi => List.getElem?_take_of_lt (by omega)

theorem slice_append_left {front back : List α} (h : start + count ≤ front.length) :
    slice (front ++ back) start count = slice front start count :=
  slice_congr fun i _ hi => List.getElem?_append_left (by omega)

theorem length_overwrite (h : start + payload.length ≤ data.length) :
    (overwrite data start payload).length = data.length := by
  unfold overwrite
  simp only [List.length_append, List.length_take, List.length_drop]
  omega

theorem getElem?_overwrite (h : start + payload.length ≤ data.length) :
    (overwrite data start payload)[i]? =
      if start ≤ i ∧ i < start + payload.length then payload[i - start]? else data[i]? := by
  have htake : (data.take start).length = start := by
    rw [List.length_take]
    omega
  unfold overwrite
  split_ifs with hinside
  · rw [List.getElem?_append_left (by rw [List.length_append, htake]; omega),
      List.getElem?_append_right (by omega), htake]
  · by_cases hbefore : i < start
    · rw [List.getElem?_append_left (by rw [List.length_append, htake]; omega),
        List.getElem?_append_left (by omega), List.getElem?_take_of_lt hbefore]
    · rw [List.getElem?_append_right (by rw [List.length_append, htake]; omega),
        List.length_append, htake, List.getElem?_drop]
      congr 1
      omega

/-- What was written is read back. -/
theorem slice_overwrite (h : start + payload.length ≤ data.length) :
    slice (overwrite data start payload) start payload.length = payload := by
  apply List.ext_getElem?
  intro i
  rw [getElem?_slice]
  split_ifs with hi
  · rw [getElem?_overwrite h, if_pos (by omega)]
    congr 1
    omega
  · exact (List.getElem?_eq_none (by omega)).symm

/-- What lies apart is as before. -/
theorem slice_overwrite_of_disjoint {place : ℕ} (h : start + payload.length ≤ data.length)
    (hapart : place + count ≤ start ∨ start + payload.length ≤ place) :
    slice (overwrite data start payload) place count = slice data place count := by
  refine slice_congr fun i hle hlt => ?_
  rw [getElem?_overwrite h, if_neg (by omega)]

theorem overwrite_middle {front old back : List α} (h : old.length = payload.length) :
    overwrite (front ++ (old ++ back)) front.length payload = front ++ (payload ++ back) := by
  rw [overwrite, List.take_left, ← List.drop_drop, List.drop_left, ← h, List.drop_left,
    List.append_assoc]

/-- A write that lies in the first part changes only that. -/
theorem take_overwrite_of_le {n : ℕ} (h : start + payload.length ≤ data.length)
    (hn : start + payload.length ≤ n) :
    (overwrite data start payload).take n = overwrite (data.take n) start payload := by
  apply List.ext_getElem?
  intro i
  have hroom : start + payload.length ≤ (data.take n).length := by
    rw [List.length_take]
    omega
  rw [getElem?_overwrite hroom]
  by_cases hi : i < n
  · rw [List.getElem?_take_of_lt hi, List.getElem?_take_of_lt hi, getElem?_overwrite h]
  · rw [List.getElem?_eq_none (by rw [List.length_take]; omega), if_neg (by omega),
      List.getElem?_eq_none (by rw [List.length_take]; omega)]

/-- A write that lies behind the first part is a write to the rest. -/
theorem drop_overwrite {n : ℕ} (h : n + start + payload.length ≤ data.length) :
    (overwrite data (n + start) payload).drop n = overwrite (data.drop n) start payload := by
  apply List.ext_getElem?
  intro i
  have hroom : start + payload.length ≤ (data.drop n).length := by
    rw [List.length_drop]
    omega
  rw [List.getElem?_drop, getElem?_overwrite h, getElem?_overwrite hroom, List.getElem?_drop]
  split_ifs with h₁ h₂ h₂
  · congr 1
    omega
  · omega
  · omega
  · rfl

/-! ## Writes one after the other -/

/-- The lists agree off the places that were written. -/
def Off (written : ℕ → Prop) (data data' : List α) : Prop :=
  data'.length = data.length ∧ ∀ i, ¬written i → data'[i]? = data[i]?

variable {written written' : ℕ → Prop} {a b c : List α}

theorem off_overwrite (h : start + payload.length ≤ data.length) :
    Off (fun i => start ≤ i ∧ i < start + payload.length) data (overwrite data start payload) := by
  refine ⟨length_overwrite h, fun i hi => ?_⟩
  rw [getElem?_overwrite h, if_neg hi]

theorem Off.trans (h : Off written a b) (h' : Off written' b c) :
    Off (fun i => written i ∨ written' i) a c := by
  refine ⟨h'.1.trans h.1, fun i hi => ?_⟩
  rw [not_or] at hi
  rw [h'.2 i hi.2, h.2 i hi.1]

theorem Off.mono (h : Off written a b) (himp : ∀ i, written i → written' i) : Off written' a b :=
  ⟨h.1, fun i hi => h.2 i (mt (himp i) hi)⟩

theorem Off.slice {place : ℕ} (h : Off written a b)
    (hapart : ∀ i, place ≤ i → i < place + count → ¬written i) :
    ByteEdit.slice b place count = ByteEdit.slice a place count :=
  slice_congr fun i hle hlt => h.2 i (hapart i hle hlt)

theorem Off.take {n : ℕ} (h : Off written a b) (hapart : ∀ i < n, ¬written i) :
    b.take n = a.take n := by
  apply List.ext_getElem?
  intro i
  by_cases hi : i < n
  · rw [List.getElem?_take_of_lt hi, List.getElem?_take_of_lt hi, h.2 i (hapart i hi)]
  · rw [List.getElem?_eq_none (by rw [List.length_take]; omega),
      List.getElem?_eq_none (by rw [List.length_take]; omega)]

theorem Off.drop {n : ℕ} (h : Off written a b) (hapart : ∀ i, n ≤ i → ¬written i) :
    b.drop n = a.drop n := by
  apply List.ext_getElem?
  intro i
  rw [List.getElem?_drop, List.getElem?_drop, h.2 _ (hapart _ (by omega))]

/-- A list with a part written over by one that agrees with the part off some places. -/
theorem off_overwrite_slice {part : List α} (hroom : start + count ≤ data.length)
    (hoff : Off written (slice data start count) part) :
    Off (fun i => start ≤ i ∧ written (i - start)) data (overwrite data start part) := by
  have hlength : part.length = count := hoff.1.trans (length_slice hroom)
  refine ⟨length_overwrite (by omega), fun i hi => ?_⟩
  rw [getElem?_overwrite (by omega)]
  split_ifs with hinside
  · have hplace : ¬written (i - start) := fun h => hi ⟨hinside.1, h⟩
    rw [hoff.2 _ hplace, getElem?_slice, if_pos (by omega)]
    congr 1
    omega
  · rfl

end ByteEdit
