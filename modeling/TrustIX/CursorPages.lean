/-
# Pages with a cursor

A sorted list is read page by page.  The cursor of a page is the last item of it, the next
page has what is greater, and a cursor passes through `norm` on its way back.

* `exists_follows` : a reader gets the whole list, each item once, if `norm` moves no item
  past another;
* `not_follows_of_norm_lt` and `flatten_of_le_norm` : what happens to two items otherwise.
-/
import Mathlib.Order.Defs.LinearOrder
import Mathlib.Data.List.Sort
import Mathlib.Data.List.TakeWhile

namespace CursorPages

variable {α : Type} [LinearOrder α]

/-! ## Pages -/

/-- What comes after a cursor. -/
def after (items : List α) : Option α → List α
  | none => items
  | some cursor => items.dropWhile (· ≤ cursor)

/-- The page after a cursor; size zero stands for no limit. -/
def page (size : ℕ) (items : List α) (cursor : Option α) : List α :=
  if 0 < size then (after items cursor).take size else after items cursor

/-- The last item of a page that leaves something for the next. -/
def next (size : ℕ) (items : List α) (cursor : Option α) : Option α :=
  if 0 < size ∧ (page size items cursor).length < (after items cursor).length then
    (page size items cursor).getLast?
  else none

/-- The pages that a reader gets from a cursor on, up to one without a cursor. -/
inductive Follows (norm : α → α) (size : ℕ) (items : List α) : Option α → List (List α) → Prop
  | last {cursor : Option α} (hnext : next size items cursor = none) :
      Follows norm size items cursor [page size items cursor]
  | more {cursor : Option α} {a : α} {pages : List (List α)}
      (hnext : next size items cursor = some a)
      (hrest : Follows norm size items (some (norm a)) pages) :
      Follows norm size items cursor (page size items cursor :: pages)

variable {norm : α → α} {size : ℕ} {items : List α} {cursor : Option α}

theorem after_sublist (items : List α) (cursor : Option α) : (after items cursor).Sublist items := by
  cases cursor with
  | none => exact List.Sublist.refl items
  | some cursor => exact List.dropWhile_sublist _

theorem after_append (low high : List α) {cursor : α} (hlow : ∀ a ∈ low, a ≤ cursor)
    (hhigh : ∀ a ∈ high, cursor < a) : after (low ++ high) (some cursor) = high := by
  show (low ++ high).dropWhile _ = high
  rw [List.dropWhile_append_of_pos (by simpa using hlow)]
  cases high with
  | nil => rfl
  | cons first rest =>
    simpa using hhigh first List.mem_cons_self

/-- A page that leaves nothing is the rest. -/
theorem page_of_not_more (h : ¬ (0 < size ∧ size < (after items cursor).length)) :
    next size items cursor = none ∧ page size items cursor = after items cursor := by
  have hpage : page size items cursor = after items cursor := by
    unfold page
    split_ifs with hsize
    · exact List.take_of_length_le (by omega)
    · rfl
  refine ⟨?_, hpage⟩
  unfold next
  rw [hpage, if_neg]
  omega

/-- A page that leaves something ends with its cursor. -/
theorem page_of_more (h : 0 < size ∧ size < (after items cursor).length) :
    ∃ front a, next size items cursor = some a ∧ page size items cursor = front ++ [a] ∧
      after items cursor = front ++ a :: (after items cursor).drop size := by
  have hpage : page size items cursor = (after items cursor).take size := if_pos h.1
  have hlength : (page size items cursor).length = size := by
    rw [hpage, List.length_take]
    omega
  rcases List.eq_nil_or_concat (page size items cursor) with hnil | ⟨front, a, hconcat⟩
  · rw [hnil] at hlength
    simp at hlength
    omega
  rw [List.concat_eq_append] at hconcat
  refine ⟨front, a, ?_, hconcat, ?_⟩
  · unfold next
    rw [if_pos (by omega), hconcat, List.getLast?_concat]
  · conv_lhs => rw [← List.take_append_drop size (after items cursor), ← hpage, hconcat]
    simp

theorem mem_of_next {a : α} (h : next size items cursor = some a) : a ∈ items := by
  by_cases hmore : 0 < size ∧ size < (after items cursor).length
  · obtain ⟨front, last, hnext, -, hafter⟩ := page_of_more hmore
    rw [hnext] at h
    injection h with h
    apply (after_sublist items cursor).subset
    rw [hafter, h]
    simp
  · rw [(page_of_not_more hmore).1] at h
    cases h

/-! ## A reader that gets everything -/

/-- **Each item once.**  The induction is on what is left; `norm` leaves a cursor between the
page it ends and the rest. -/
theorem exists_follows_from (hsorted : items.Pairwise (· < ·))
    (hnorm : ∀ a ∈ items, ∀ c ∈ items, a < c → a ≤ norm a ∧ norm a < c) (before : List α)
    (hcut : items = before ++ after items cursor) :
    ∃ pages, Follows norm size items cursor pages ∧ pages.flatten = after items cursor := by
  induction hn : (after items cursor).length using Nat.strong_induction_on generalizing
    cursor before with
  | h n ih =>
    by_cases hmore : 0 < size ∧ size < (after items cursor).length
    · obtain ⟨front, a, hnext, hpage, hafter⟩ := page_of_more hmore
      generalize hrest : (after items cursor).drop size = rest at hafter
      have hsplit : items = (before ++ front ++ [a]) ++ rest := by
        rw [hcut, hafter]
        simp
      have hlength : rest.length = (after items cursor).length - size := by
        rw [← hrest, List.length_drop]
      rw [hsplit] at hsorted
      obtain ⟨hlow, -, hbetween⟩ := List.pairwise_append.mp hsorted
      have hlast : a ∈ before ++ front ++ [a] := by simp
      obtain ⟨first, hfirst⟩ : ∃ first, first ∈ rest := by
        apply List.exists_mem_of_length_pos
        omega
      have hinto : ∀ c ∈ rest, a ≤ norm a ∧ norm a < c := by
        intro c hc
        refine hnorm a ?_ c ?_ (hbetween a hlast c hc)
        · rw [hsplit]
          exact List.mem_append_left _ hlast
        · rw [hsplit]
          exact List.mem_append_right _ hc
      have hnormed : after items (some (norm a)) = rest := by
        rw [hsplit]
        refine after_append _ _ ?_ fun c hc => (hinto c hc).2
        intro c hc
        refine le_trans ?_ (hinto first hfirst).1
        rcases List.mem_append.mp hc with hc | hc
        · exact ((List.pairwise_append.mp hlow).2.2 c hc a (by simp)).le
        · rw [List.mem_singleton.mp hc]
      have hcut' : items = (before ++ front ++ [a]) ++ after items (some (norm a)) := by
        rw [hnormed]
        exact hsplit
      obtain ⟨pages, hfollows, hflatten⟩ :=
        ih rest.length (by omega) (before ++ front ++ [a]) hcut' (by rw [hnormed])
      refine ⟨_, .more hnext hfollows, ?_⟩
      rw [List.flatten_cons, hflatten, hnormed, hpage, hafter]
      simp
    · obtain ⟨hnext, hpage⟩ := page_of_not_more hmore
      refine ⟨_, .last hnext, ?_⟩
      rw [List.flatten_singleton, hpage]

theorem exists_follows (hsorted : items.Pairwise (· < ·))
    (hnorm : ∀ a ∈ items, ∀ c ∈ items, a < c → a ≤ norm a ∧ norm a < c) :
    ∃ pages, Follows norm size items none pages ∧ pages.flatten = items :=
  exists_follows_from hsorted hnorm [] rfl

/-! ## Two items -/

variable {a c : α}

theorem page_pair (cursor : Option α) (hac : a < c) (hcursor : ∀ k ∈ cursor, k < a) :
    page 1 [a, c] cursor = [a] ∧ next 1 [a, c] cursor = some a := by
  have hafter : after [a, c] cursor = [a, c] := by
    cases cursor with
    | none => rfl
    | some k =>
      have hk := hcursor k rfl
      exact after_append [] [a, c] (by simp) (by simp [hk, hk.trans hac])
  unfold next page
  rw [hafter]
  simp

/-- A cursor that comes back smaller gets the same page for ever. -/
theorem not_follows_of_norm_lt (hac : a < c) (hnorm : norm a < a) {pages : List (List α)}
    (hcursor : ∀ k ∈ cursor, k < a) : ¬ Follows norm 1 [a, c] cursor pages := by
  intro h
  generalize hitems : [a, c] = items at h
  induction h with
  | last hnext =>
    subst hitems
    rw [(page_pair _ hac hcursor).2] at hnext
    cases hnext
  | more hnext _ ih =>
    subst hitems
    rw [(page_pair _ hac hcursor).2] at hnext
    cases hnext
    exact ih (by simpa using hnorm)

/-- A cursor that comes back past the next item skips it. -/
theorem flatten_of_le_norm (hac : a < c) (hnorm : c ≤ norm a) {pages : List (List α)}
    (h : Follows norm 1 [a, c] none pages) : pages.flatten = [a] := by
  obtain ⟨hpage, hfirst⟩ := page_pair none hac (by simp)
  have hafter : after [a, c] (some (norm a)) = [] := by
    have hall : ∀ b ∈ [a, c], b ≤ norm a := by simp [hnorm, hac.le.trans hnorm]
    exact after_append [a, c] [] hall (by simp)
  have hempty : page 1 [a, c] (some (norm a)) = [] := by
    unfold page
    rw [hafter]
    rfl
  have hlast : next 1 [a, c] (some (norm a)) = none := by
    unfold next
    rw [hafter, if_neg (by simp)]
  cases h with
  | last hnext =>
    cases hnext
  | more hnext hrest =>
    rw [hfirst] at hnext
    cases hnext
    cases hrest with
    | last hnext => simp [hpage, hempty]
    | more hnext hrest =>
      rw [hlast] at hnext
      cases hnext

end CursorPages
