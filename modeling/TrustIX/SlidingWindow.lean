/-
# The anti-replay sliding window, as a statement about histories

What an anti-replay window is for, without a bitmap: after a history of accepted
numbers, `s` is admitted iff it is non-zero, was not accepted before, and is
either above the highest accepted number or less than `size` below it
(`Admits`).  A trace records every number offered with its verdict; it is
`Faithful` when each verdict is the one the history before it dictates.

* `Faithful.nodup_accepted` : a faithful trace never accepts a number twice;
* `faithful_runTrace` : the simulation rule.  A machine whose state `Tracks` the
  accepted history at every single step produces faithful traces only.
-/
import Mathlib

namespace SlidingWindow

/-! ## Histories -/

/-- The highest number of a history, `0` for the empty one. -/
def highest (accepted : List ℕ) : ℕ := accepted.foldr max 0

@[simp] theorem highest_nil : highest [] = 0 := rfl

theorem highest_append (before after : List ℕ) :
    highest (before ++ after) = max (highest before) (highest after) := by
  induction before with
  | nil => simp
  | cons a rest ih =>
    show max a (highest (rest ++ after)) = max (max a (highest rest)) (highest after)
    rw [ih, max_assoc]

theorem highest_append_singleton (accepted : List ℕ) (s : ℕ) :
    highest (accepted ++ [s]) = max (highest accepted) s := by
  rw [highest_append]
  simp [highest]

theorem le_highest {accepted : List ℕ} {s : ℕ} (h : s ∈ accepted) : s ≤ highest accepted := by
  induction accepted with
  | nil => simp at h
  | cons a rest ih =>
    rcases List.mem_cons.mp h with rfl | hrest
    · exact le_max_left _ _
    · exact le_trans (ih hrest) (le_max_right _ _)

/-- A non-zero highest number is one of the history. -/
theorem highest_mem {accepted : List ℕ} (h : highest accepted ≠ 0) :
    highest accepted ∈ accepted := by
  induction accepted with
  | nil => exact absurd rfl h
  | cons a rest ih =>
    have hdef : highest (a :: rest) = max a (highest rest) := rfl
    rw [hdef] at h ⊢
    rcases Nat.le_total (highest rest) a with hle | hle
    · rw [max_eq_left hle]
      exact List.mem_cons_self
    · rw [max_eq_right hle] at h ⊢
      exact List.mem_cons_of_mem _ (ih h)

/-- The verdict of a window of `size` after the history `accepted`. -/
def Admits (size : ℕ) (accepted : List ℕ) (s : ℕ) : Prop :=
  s ≠ 0 ∧ s ∉ accepted ∧ (highest accepted < s ∨ highest accepted - s < size)

instance (size : ℕ) (accepted : List ℕ) (s : ℕ) : Decidable (Admits size accepted s) := by
  unfold Admits
  infer_instance

/-! ## Traces -/

/-- The numbers a trace accepted, in order. -/
def acceptedOf (tr : List (ℕ × Bool)) : List ℕ :=
  (tr.filter (·.2)).map (·.1)

@[simp] theorem acceptedOf_nil : acceptedOf [] = [] := rfl

theorem acceptedOf_append (t u : List (ℕ × Bool)) :
    acceptedOf (t ++ u) = acceptedOf t ++ acceptedOf u := by
  simp [acceptedOf]

@[simp] theorem acceptedOf_singleton (s : ℕ) (b : Bool) :
    acceptedOf [(s, b)] = if b then [s] else [] := by
  cases b <;> rfl

/-- Every verdict of the trace is the one its history dictates. -/
def Faithful (size : ℕ) (tr : List (ℕ × Bool)) : Prop :=
  ∀ i, (h : i < tr.length) → (tr[i].2 = true ↔ Admits size (acceptedOf (tr.take i)) tr[i].1)

theorem faithful_nil (size : ℕ) : Faithful size [] := by
  intro i h
  simp at h

variable {tr : List (ℕ × Bool)}

variable {size : ℕ}

/-- A faithful trace stays faithful when the next verdict follows its history. -/
theorem Faithful.snoc (ht : Faithful size tr)
    {s : ℕ} {b : Bool} (hb : b = true ↔ Admits size (acceptedOf tr) s) :
    Faithful size (tr ++ [(s, b)]) := by
  intro i hi
  rw [List.length_append, List.length_singleton] at hi
  rcases Nat.lt_or_ge i tr.length with hlt | hge
  · rw [List.getElem_append_left hlt, List.take_append_of_le_length (by omega)]
    exact ht i hlt
  · have hlast : i = tr.length := by omega
    subst hlast
    simpa using hb

theorem Faithful.of_snoc {p : ℕ × Bool} (h : Faithful size (tr ++ [p])) :
    Faithful size tr ∧ (p.2 = true ↔ Admits size (acceptedOf tr) p.1) := by
  constructor
  · intro i hi
    have hstep := h i (by rw [List.length_append]; omega)
    rwa [List.getElem_append_left hi, List.take_append_of_le_length (by omega)] at hstep
  · have hstep := h tr.length (by simp)
    simpa using hstep

/-- **No replay.**  A faithful trace accepts every number at most once. -/
theorem Faithful.nodup_accepted
    (h : Faithful size tr) : (acceptedOf tr).Nodup := by
  -- the last element is the newest verdict, so the induction peels the end
  induction tr using List.reverseRecOn with
  | nil => exact List.nodup_nil
  | append_singleton t p ih =>
    obtain ⟨ht, hp⟩ := h.of_snoc
    obtain ⟨s, b⟩ := p
    rw [acceptedOf_append, acceptedOf_singleton]
    cases b with
    | false => simpa using ih ht
    | true =>
      have hnew : s ∉ acceptedOf t := (hp.mp rfl).2.1
      rw [if_pos rfl, List.nodup_append]
      refine ⟨ih ht, List.nodup_singleton s, ?_⟩
      intro a ha c hc hac
      rw [List.mem_singleton] at hc
      exact hnew (by rw [← hc, ← hac]; exact ha)

/-! ## The simulation rule -/

section Simulation

variable {σ : Type*} (step : σ → ℕ → Bool × σ)

/-- Offer the numbers one after the other, recording each verdict. -/
def runTrace : σ → List ℕ → List (ℕ × Bool) × σ
  | st, [] => ([], st)
  | st, s :: rest =>
    let (b, st') := step st s
    let (tr, st'') := runTrace st' rest
    ((s, b) :: tr, st'')

theorem map_fst_runTrace (st : σ) (l : List ℕ) : (runTrace step st l).1.map (·.1) = l := by
  induction l generalizing st with
  | nil => rfl
  | cons s rest ih => simp only [runTrace, List.map_cons, ih]

/-- The verdicts of a run are one per number offered. -/
theorem length_runTrace (st : σ) (l : List ℕ) : (runTrace step st l).1.length = l.length := by
  rw [← List.length_map (f := (·.1)), map_fst_runTrace]

/-- One step of the machine decides as the history dictates and keeps tracking it. -/
def Simulates (size : ℕ) (Tracks : σ → List ℕ → Prop) : Prop :=
  ∀ st accepted s, Tracks st accepted →
    ((step st s).1 = true ↔ Admits size accepted s) ∧
      Tracks (step st s).2 (accepted ++ acceptedOf [(s, (step st s).1)])

/-- **The simulation rule.**  A machine that tracks the history step by step
extends every faithful trace to a faithful trace. -/
theorem faithful_runTrace {Tracks : σ → List ℕ → Prop}
    (hsim : Simulates step size Tracks) (st : σ) (l : List ℕ)
    {before : List (ℕ × Bool)} (hb : Faithful size before)
    (ht : Tracks st (acceptedOf before)) :
    Faithful size (before ++ (runTrace step st l).1) ∧
      Tracks (runTrace step st l).2 (acceptedOf (before ++ (runTrace step st l).1)) := by
  induction l generalizing st before with
  | nil => simpa [runTrace] using ⟨hb, ht⟩
  | cons s rest ih =>
    obtain ⟨hverdict, htracks⟩ := hsim st (acceptedOf before) s ht
    have hb' : Faithful size (before ++ [(s, (step st s).1)]) := hb.snoc hverdict
    have ht' : Tracks (step st s).2 (acceptedOf (before ++ [(s, (step st s).1)])) := by
      rw [acceptedOf_append]
      exact htracks
    have hrest := ih (step st s).2 hb' ht'
    simpa [runTrace, List.append_assoc] using hrest

end Simulation

end SlidingWindow
