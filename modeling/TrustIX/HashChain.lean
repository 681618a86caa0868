/-
# Hash chains

A log whose entries carry their position and the digest of the entry before them.

* `chained_concat` : a chain grows one linked entry at a time;
* `forall₂_of_tip_eq` : where the digest determines an entry up to a relation that
  keeps the back link, the tip of a chain determines the whole chain.
-/
import Mathlib

namespace HashChain

/-- How entries of type `E` are chained by digests of type `D`. -/
structure Format (E D : Type) where
  seq : E → ℕ
  prev : E → D
  /-- The digest of an entry, if it has one. -/
  digest : E → Option D
  /-- The back link of the first entry. -/
  root : D

variable {E D : Type} (F : Format E D)

/-- The digest the next entry has to carry. -/
def tip (log : List E) : Option D :=
  match log.getLast? with
  | none => some F.root
  | some last => F.digest last

@[simp] theorem tip_nil : tip F [] = some F.root := rfl

@[simp] theorem tip_concat (log : List E) (entry : E) :
    tip F (log ++ [entry]) = F.digest entry := by
  simp [tip]

/-- `entry` may follow `log`. -/
def Linked (log : List E) (entry : E) : Prop :=
  F.seq entry = log.length + 1 ∧ tip F log = some (F.prev entry)

/-- Every entry is linked to those before it. -/
def Chained (log : List E) : Prop :=
  ∀ before entry after, log = before ++ entry :: after → Linked F before entry

variable {F}

theorem chained_nil : Chained F [] := by
  intro before entry after h
  simp at h

theorem Chained.of_append {log rest : List E} (h : Chained F (log ++ rest)) : Chained F log := by
  intro before entry after heq
  exact h before entry (after ++ rest) (by simp [heq])

variable {log : List E}

theorem Chained.linked {entry : E} (h : Chained F (log ++ [entry])) :
    Linked F log entry := h log entry [] rfl

/-- **A chain grows one linked entry at a time.** -/
theorem chained_concat {entry : E} :
    Chained F (log ++ [entry]) ↔ Chained F log ∧ Linked F log entry := by
  constructor
  · intro h
    exact ⟨h.of_append, h.linked⟩
  · rintro ⟨hlog, hentry⟩ before e after heq
    rcases List.eq_nil_or_concat' after with rfl | ⟨after', last, rfl⟩
    · obtain ⟨rfl, hlast⟩ := List.append_inj' heq rfl
      obtain rfl : entry = e := by simpa using hlast
      exact hentry
    · rw [← List.cons_append, ← List.append_assoc] at heq
      obtain ⟨rfl, -⟩ := List.append_inj' heq rfl
      exact hlog before e after' rfl

/-- An entry is linked to the entries before it. -/
theorem Chained.linked_getElem (h : Chained F log) (i : ℕ)
    (hi : i < log.length) : Linked F (log.take i) log[i] :=
  h _ _ (log.drop (i + 1)) (by simp)

/-- The position of an entry. -/
theorem Chained.seq_eq (h : Chained F log) (i : ℕ) (hi : i < log.length) :
    F.seq log[i] = i + 1 := by
  rw [(h.linked_getElem i hi).1, List.length_take, Nat.min_eq_left hi.le]

/-- The back link of the first entry. -/
theorem Chained.prev_zero (h : Chained F log) (hi : 0 < log.length) : F.prev log[0] = F.root := by
  simpa using (h.linked_getElem 0 hi).2.symm

/-- The back link of every other entry. -/
theorem Chained.prev_succ (h : Chained F log) (i : ℕ)
    (hi : i + 1 < log.length) : F.digest log[i] = some (F.prev log[i + 1]) := by
  have htake : log.take (i + 1) = log.take i ++ [log[i]] := by simp
  rw [← (h.linked_getElem (i + 1) hi).2, htake, tip_concat]

/-- **The tip determines the chain.** -/
theorem forall₂_of_tip_eq {R : E → E → Prop}
    (hdigest : ∀ e e' d, F.digest e = some d → F.digest e' = some d → R e e')
    (hprev : ∀ e e', R e e' → F.prev e = F.prev e') {log log' : List E} {d : D}
    (h : Chained F log) (h' : Chained F log') (hlength : log.length = log'.length)
    (ht : tip F log = some d) (ht' : tip F log' = some d) : List.Forall₂ R log log' := by
  -- the last entries share a digest, so they are related and carry the same back
  -- link, which is the tip of what is left of either chain
  induction log using List.reverseRecOn generalizing log' d with
  | nil =>
    obtain rfl : log' = [] := List.length_eq_zero_iff.mp hlength.symm
    exact List.Forall₂.nil
  | append_singleton log entry ih =>
    rcases List.eq_nil_or_concat' log' with rfl | ⟨log', entry', rfl⟩
    · simp at hlength
    · rw [tip_concat] at ht ht'
      have hR := hdigest _ _ _ ht ht'
      have hlength' : log.length = log'.length := by simpa using hlength
      have htip' := h'.linked.2
      rw [← hprev _ _ hR] at htip'
      exact List.rel_append (ih h.of_append h'.of_append hlength' h.linked.2 htip')
        (List.Forall₂.cons hR List.Forall₂.nil)

end HashChain
