/-
# Filtering a slice in place

A loop that keeps some items of a slice and drops the others without a second slice: one
index reads, another one writes behind it.  `Cursor.At` says what such a loop has done so
far: the items before the write index are those kept, the items from the read index on are
still the old ones.
-/
import Mathlib

namespace InPlaceFilter

variable {α : Type*}

/-- The slice and the two indexes of the loop. -/
structure Cursor (α : Type*) where
  items : List α
  write : ℕ
  read : ℕ

/-- `items[write] = items[read]`, and both indexes go on. -/
def Cursor.copyStep (c : Cursor α) : Cursor α where
  items := c.items[c.read]?.elim c.items (c.items.set c.write)
  write := c.write + 1
  read := c.read + 1

/-- The items up to `limit` are kept. -/
def Cursor.copyUntil (limit : ℕ) (c : Cursor α) : Cursor α :=
  Cursor.copyStep^[limit - c.read] c

/-- The items up to `limit` are dropped. -/
def Cursor.skipUntil (limit : ℕ) (c : Cursor α) : Cursor α :=
  { c with read := max c.read limit }

/-- The loop over `original` has read up to the read index and kept `out`. -/
structure Cursor.At (original out : List α) (c : Cursor α) : Prop where
  kept : c.items.take c.write = out
  rest : c.items.drop c.read = original.drop c.read
  length : c.items.length = original.length
  write_le : c.write ≤ c.read
  read_le : c.read ≤ original.length

variable {original out : List α} {c : Cursor α}

theorem Cursor.at_start (original : List α) {start : ℕ} (h : start ≤ original.length) :
    Cursor.At original (original.take start) ⟨original, start, start⟩ :=
  ⟨rfl, rfl, rfl, le_rfl, h⟩

theorem Cursor.At.copyStep (h : c.At original out) (hread : c.read < original.length) :
    c.copyStep.At original (out ++ [original[c.read]]) := by
  obtain ⟨hkept, hrest, hlength, hwrite, hle⟩ := h
  have hget : c.items[c.read]? = some original[c.read] := by
    have hhead := congrArg List.head? hrest
    rw [List.head?_drop, List.head?_drop, List.getElem?_eq_getElem hread] at hhead
    exact hhead
  have hitems : c.copyStep.items = c.items.set c.write original[c.read] := by
    show c.items[c.read]?.elim c.items (c.items.set c.write) = _
    rw [hget]
    rfl
  have hbound : c.write < c.items.length := by omega
  refine ⟨?_, ?_, ?_, ?_, ?_⟩
  · show c.copyStep.items.take (c.write + 1) = _
    rw [hitems, List.take_succ_eq_append_getElem (by rw [List.length_set]; exact hbound),
      List.take_set_of_le le_rfl, List.getElem_set_self, hkept]
  · show c.copyStep.items.drop (c.read + 1) = original.drop (c.read + 1)
    rw [hitems, List.drop_set_of_lt (by omega), ← List.drop_drop, hrest, List.drop_drop]
  · rw [hitems, List.length_set, hlength]
  · show c.write + 1 ≤ c.read + 1
    omega
  · show c.read + 1 ≤ original.length
    omega

/-- **A stretch that is kept.** -/
theorem Cursor.At.copyUntil (h : c.At original out) (limit : ℕ) (hread : c.read ≤ limit)
    (hlimit : limit ≤ original.length) :
    (c.copyUntil limit).At original (out ++ (original.drop c.read).take (limit - c.read)) ∧
      (c.copyUntil limit).read = limit := by
  unfold Cursor.copyUntil
  generalize hcount : limit - c.read = count
  -- one step of the loop after the other
  induction count generalizing c out with
  | zero =>
    refine ⟨?_, ?_⟩
    · rw [List.take_zero, List.append_nil]
      exact h
    · show c.read = limit
      omega
  | succ count ih =>
    have hlt : c.read < original.length := by omega
    have hnext : c.copyStep.read = c.read + 1 := rfl
    obtain ⟨hat, hend⟩ := ih (h.copyStep hlt) (by omega) (by omega)
    rw [Function.iterate_succ_apply]
    refine ⟨?_, hend⟩
    rw [List.drop_eq_getElem_cons hlt, List.take_succ_cons, List.append_cons]
    exact hat

/-- **A stretch that is dropped.** -/
theorem Cursor.At.skipUntil (h : c.At original out) (limit : ℕ) (hread : c.read ≤ limit)
    (hlimit : limit ≤ original.length) :
    (c.skipUntil limit).At original out ∧ (c.skipUntil limit).read = limit := by
  obtain ⟨hkept, hrest, hlength, hwrite, -⟩ := h
  have hend : (c.skipUntil limit).read = limit := max_eq_right hread
  refine ⟨⟨hkept, ?_, hlength, ?_, ?_⟩, hend⟩
  · rw [hend]
    show c.items.drop limit = original.drop limit
    obtain ⟨more, rfl⟩ : ∃ more, limit = c.read + more := ⟨limit - c.read, by omega⟩
    rw [← List.drop_drop, hrest, List.drop_drop]
  · rw [hend]
    exact hwrite.trans hread
  · rw [hend]
    exact hlimit

end InPlaceFilter
