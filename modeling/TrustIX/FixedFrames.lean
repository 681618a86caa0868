/-
# Sequences of fixed-width frames

A list of items written one after the other, every item as a frame of the same
width, and followed by anything.  What the bytes determine:

* `append_inj_of_length_eq` : with as many items on both sides, the items and what
  follows them;
* `prefix_of_append_eq` : otherwise one list of items starts with the other;
* `append_eq_of_prefix` : and then the rest can always be chosen to collide.
-/
import Mathlib

namespace FixedFrames

variable {α β : Type*} {frame : α → List β} {width : ℕ}

theorem length_flatMap (hlen : ∀ a, (frame a).length = width) (l : List α) :
    (l.flatMap frame).length = l.length * width := by
  induction l with
  | nil => simp
  | cons a l ih =>
    rw [List.flatMap_cons, List.length_append, ih, hlen, List.length_cons]
    ring

variable {l l' : List α}

variable {r r' : List β}

theorem append_inj_of_length_eq (hlen : ∀ a, (frame a).length = width)
    (hinj : Function.Injective frame)
    (hl : l.length = l'.length) (h : l.flatMap frame ++ r = l'.flatMap frame ++ r') :
    l = l' ∧ r = r' := by
  induction l generalizing l' with
  | nil =>
    have hnil : l' = [] := List.length_eq_zero_iff.mp hl.symm
    subst hnil
    exact ⟨rfl, h⟩
  | cons a l ih =>
    cases l' with
    | nil => simp at hl
    | cons b l' =>
      rw [List.flatMap_cons, List.flatMap_cons, List.append_assoc, List.append_assoc] at h
      obtain ⟨hframe, hrest⟩ := List.append_inj h (by rw [hlen, hlen])
      obtain ⟨hl', hr⟩ := ih (by simpa using hl) hrest
      exact ⟨by rw [hinj hframe, hl'], hr⟩

/-- What follows has the same length, so there are as many items on both sides. -/
theorem length_eq_of_append_eq (hlen : ∀ a, (frame a).length = width) (hpos : 0 < width)
    (hr : r.length = r'.length)
    (h : l.flatMap frame ++ r = l'.flatMap frame ++ r') : l.length = l'.length := by
  have hcount := congrArg List.length h
  rw [List.length_append, List.length_append, length_flatMap hlen, length_flatMap hlen] at hcount
  exact Nat.eq_of_mul_eq_mul_right hpos (by omega)

theorem prefix_of_append_eq (hlen : ∀ a, (frame a).length = width) (hinj : Function.Injective frame)
    (h : l.flatMap frame ++ r = l'.flatMap frame ++ r') : l <+: l' ∨ l' <+: l := by
  induction l generalizing l' with
  | nil => exact Or.inl List.nil_prefix
  | cons a l ih =>
    cases l' with
    | nil => exact Or.inr List.nil_prefix
    | cons b l' =>
      rw [List.flatMap_cons, List.flatMap_cons, List.append_assoc, List.append_assoc] at h
      obtain ⟨hframe, hrest⟩ := List.append_inj h (by rw [hlen, hlen])
      rw [hinj hframe, List.cons_prefix_cons, List.cons_prefix_cons]
      rcases ih hrest with hp | hp
      · exact Or.inl ⟨rfl, hp⟩
      · exact Or.inr ⟨rfl, hp⟩

theorem append_eq_of_prefix (frame : α → List β) (h : l <+: l') (r' : List β) :
    ∃ extra, extra.length = (l'.flatMap frame).length - (l.flatMap frame).length ∧
      l.flatMap frame ++ (extra ++ r') = l'.flatMap frame ++ r' := by
  obtain ⟨t, rfl⟩ := h
  refine ⟨t.flatMap frame, ?_, ?_⟩
  · simp
  · rw [List.flatMap_append, List.append_assoc]

end FixedFrames
