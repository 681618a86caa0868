/-
# Computations that may fail

The few rules about `Except` that the models of fallible code need: a sequence of
steps succeeds iff every step does.
-/
import Mathlib

namespace Fallible

variable {ε : Type*} {α β : Type}

variable {x : Except ε α} {f : α → Except ε β}

/-- A sequence succeeds iff its first step does, and then the rest. -/
theorem bind_eq_ok {r : β} : (x >>= f) = .ok r ↔ ∃ a, x = .ok a ∧ f a = .ok r := by
  cases x with
  | error err => simp [bind, Except.bind]
  | ok a => simp [bind, Except.bind]

theorem ok_bind (a : α) (f : α → Except ε β) : (Except.ok a >>= f) = f a := rfl

variable {err : ε}

/-- A check that fails with an error. -/
theorem guard_eq_ok {c : Prop} [Decidable c] {r : α} :
    (if c then .error err else x) = .ok r ↔ ¬ c ∧ x = .ok r := by
  split_ifs with hc
  · simp [hc]
  · simp [hc]

/-- A check as a step of its own. -/
def rejectIf (c : Prop) [Decidable c] (err : ε) : Except ε Unit :=
  if c then .error err else .ok ()

theorem rejectIf_eq_ok {c : Prop} [Decidable c] : rejectIf c err = .ok () ↔ ¬ c := by
  unfold rejectIf
  rw [guard_eq_ok]
  exact and_iff_left rfl

/-- A sequence of two checks succeeds iff both do. -/
theorem seq_eq_ok {x : Except ε Unit} {y : Except ε α} {r : α} :
    (x >>= fun _ => y) = .ok r ↔ x = .ok () ∧ y = .ok r := by
  rw [bind_eq_ok]
  constructor
  · rintro ⟨⟨⟩, hx, hy⟩
    exact ⟨hx, hy⟩
  · rintro ⟨hx, hy⟩
    exact ⟨(), hx, hy⟩

theorem bind_eq_error :
    (x >>= f) = .error err ↔ x = .error err ∨ ∃ a, x = .ok a ∧ f a = .error err := by
  cases x with
  | error err => simp [bind, Except.bind]
  | ok a => simp [bind, Except.bind]

theorem map_eq_ok {f : α → β} {r : β} : x.map f = .ok r ↔ ∃ a, x = .ok a ∧ f a = r := by
  cases x with
  | error err => simp [Except.map]
  | ok a => simp [Except.map]

theorem map_bind {γ : Type} (x : Except ε α) (f : α → Except ε β) (g : β → γ) :
    (x >>= f).map g = x >>= fun a => (f a).map g := by
  cases x with
  | error err => rfl
  | ok a => rfl

variable {l : List α}

/-- A step made for every item of a list succeeds iff it does for each. -/
theorem mapM_eq_ok {r : List β} : l.mapM f = .ok r ↔ List.Forall₂ (fun a b => f a = .ok b) l r := by
  induction l generalizing r with
  | nil =>
    rw [List.mapM_nil, List.forall₂_nil_left_iff]
    constructor
    · intro h
      injection h with h
      exact h.symm
    · rintro rfl
      rfl
  | cons a l ih =>
    rw [List.mapM_cons, bind_eq_ok]
    constructor
    · rintro ⟨b, hb, hrest⟩
      obtain ⟨bs, hbs, hr⟩ := bind_eq_ok.mp hrest
      cases hr
      exact List.Forall₂.cons hb (ih.mp hbs)
    · intro h
      obtain ⟨b, bs, hb, hbs, rfl⟩ := List.forall₂_cons_left_iff.mp h
      exact ⟨b, hb, bind_eq_ok.mpr ⟨bs, ih.mpr hbs, rfl⟩⟩

theorem exists_of_mem_mapM {r : List β} {b : β} (h : l.mapM f = .ok r)
    (hb : b ∈ r) : ∃ a ∈ l, f a = .ok b := by
  rw [mapM_eq_ok] at h
  induction h with
  | nil => simp at hb
  | cons hhead _ ih =>
    rcases List.mem_cons.mp hb with rfl | hb
    · exact ⟨_, List.mem_cons_self, hhead⟩
    · obtain ⟨a, ha, hfa⟩ := ih hb
      exact ⟨a, List.mem_cons_of_mem _ ha, hfa⟩

/-- What every step of a fold keeps holds of its result. -/
theorem foldlM_induct {P : β → Prop} {f : β → α → Except ε β} {init r : β} (hinit : P init)
    (hstep : ∀ b, P b → ∀ a ∈ l, ∀ b', f b a = .ok b' → P b')
    (h : l.foldlM f init = .ok r) : P r := by
  induction l generalizing init with
  | nil =>
    injection h with h
    exact h ▸ hinit
  | cons a l ih =>
    obtain ⟨b, hb, hrest⟩ := bind_eq_ok.mp h
    refine ih (hstep init hinit a List.mem_cons_self b hb) ?_ hrest
    intro b₁ hb₁ a' ha'
    exact hstep b₁ hb₁ a' (List.mem_cons_of_mem _ ha')

/-- A check made for every item passes iff it does for each. -/
theorem forM_eq_ok {f : α → Except ε PUnit} : l.forM f = .ok () ↔ ∀ a ∈ l, f a = .ok () := by
  induction l with
  | nil =>
    constructor
    · intro _ a ha
      simp at ha
    · intro _
      rfl
  | cons a l ih =>
    show (f a >>= fun _ => l.forM f) = _ ↔ _
    rw [bind_eq_ok]
    constructor
    · rintro ⟨⟨⟩, ha, hl⟩ b hb
      rcases List.mem_cons.mp hb with rfl | hb
      · exact ha
      · exact ih.mp hl b hb
    · intro h
      exact ⟨(), h a List.mem_cons_self, ih.mpr fun b hb => h b (List.mem_cons_of_mem _ hb)⟩

/-- An error of a fold is an error of one of its steps. -/
theorem exists_of_foldlM_eq_error {f : β → α → Except ε β} {init : β}
    (h : l.foldlM f init = .error err) : ∃ b a, f b a = .error err := by
  induction l generalizing init with
  | nil => cases h
  | cons a l ih =>
    rcases bind_eq_error.mp h with h | ⟨b, -, h⟩
    · exact ⟨init, a, h⟩
    · exact ih h

variable {ε' : Type*}

theorem mapError_eq_ok {f : ε → ε'} {a : α} : x.mapError f = .ok a ↔ x = .ok a := by
  cases x with
  | error err => simp [Except.mapError]
  | ok b => simp [Except.mapError]

theorem mapError_eq_error {f : ε → ε'} {err : ε'} :
    x.mapError f = .error err ↔ ∃ e, x = .error e ∧ f e = err := by
  cases x with
  | error err => simp [Except.mapError]
  | ok b => simp [Except.mapError]

theorem toOption_eq_some {a : α} : x.toOption = some a ↔ x = .ok a := by
  cases x with
  | error err => simp [Except.toOption]
  | ok b => simp [Except.toOption]

end Fallible
