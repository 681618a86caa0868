/-
# Mutations that may fail half way

A mutation works on a state and may fail after it has changed it. What a mutation does
to the state is bounded by a preorder: `Moves r act` says that the state it leaves, also
where it fails, is related to the one it found.
-/
import Mathlib

/-- A computation on `σ` that returns an `α` or fails with an `ε`. -/
abbrev Mutation (σ ε α : Type) := ExceptT ε (StateM σ) α

namespace Mutation

variable {σ ε α β : Type}

/-- The result of a mutation and the state it leaves. -/
def exec (act : Mutation σ ε α) (s : σ) : Except ε α × σ := act.run.run s

/-- A computation that touches no state. -/
def ofResult (x : Except ε α) : Mutation σ ε α := fun s => (x, s)

/-- Fails if there is an error. -/
def failIf : Option ε → Mutation σ ε Unit
  | some e => throw e
  | none => pure ()

/-- A mutation that is made on a condition. -/
def onlyIf (c : Bool) (act : Mutation σ ε Unit) : Mutation σ ε Unit :=
  if c then act else pure ()

/-- The error of a mutation, kept as a value. -/
def attempt (act : Mutation σ ε Unit) : Mutation σ ε (Option ε) :=
  tryCatch (act >>= fun _ => pure none) fun e => pure (some e)

/-- Makes every mutation of a list, whatever fails before it, and returns the errors. -/
def attemptAll : List (Mutation σ ε Unit) → Mutation σ ε (List ε)
  | [] => pure []
  | act :: rest => do
    let err ← attempt act
    let errs ← attemptAll rest
    pure (err.toList ++ errs)

@[simp] theorem exec_pure (a : α) (s : σ) : exec (pure a : Mutation σ ε α) s = (.ok a, s) := rfl

@[simp] theorem exec_throw (e : ε) (s : σ) :
    exec (throw e : Mutation σ ε α) s = (.error e, s) := rfl

@[simp] theorem exec_get (s : σ) : exec (get : Mutation σ ε σ) s = (.ok s, s) := rfl

@[simp] theorem exec_modify (f : σ → σ) (s : σ) :
    exec (modify f : Mutation σ ε PUnit) s = (.ok (), f s) := rfl

@[simp] theorem exec_ofResult (x : Except ε α) (s : σ) :
    exec (ofResult x : Mutation σ ε α) s = (x, s) := rfl

theorem exec_bind (x : Mutation σ ε α) (f : α → Mutation σ ε β) (s : σ) :
    exec (x >>= f) s =
      match exec x s with
      | (.ok a, s') => exec (f a) s'
      | (.error e, s') => (.error e, s') := by
  show (ExceptT.bindCont f (x s).1) (x s).2 = _
  rcases hx : x s with ⟨_ | a, s'⟩
  · simp [exec, ExceptT.run, StateT.run, hx, ExceptT.bindCont]
    rfl
  · simp [exec, ExceptT.run, StateT.run, hx, ExceptT.bindCont]

theorem exec_tryCatch (act : Mutation σ ε α) (handler : ε → Mutation σ ε α) (s : σ) :
    exec (tryCatch act handler) s =
      match exec act s with
      | (.ok a, s') => (.ok a, s')
      | (.error e, s') => exec (handler e) s' := by
  show (match (act s).1 with
    | .ok a => (pure (.ok a) : StateM σ (Except ε α))
    | .error e => handler e) (act s).2 = _
  rcases hact : act s with ⟨_ | a, s'⟩
  · simp [exec, ExceptT.run, StateT.run, hact]
  · simp [exec, ExceptT.run, StateT.run, hact]
    rfl

@[simp] theorem exec_failIf_none (s : σ) :
    exec (failIf none : Mutation σ ε Unit) s = (.ok (), s) := rfl

variable {f : α → Mutation σ ε β} {x : Mutation σ ε α} {s : σ}

/-- What follows a step that succeeds. -/
theorem exec_bind_of_ok {s₁ : σ} {a : α}
    (h : exec x s = (.ok a, s₁)) : exec (x >>= f) s = exec (f a) s₁ := by
  rw [exec_bind, h]

/-- A sequence succeeds iff its first part does, and then the rest. -/
theorem exec_bind_eq_ok {s' : σ} {b : β} :
    exec (x >>= f) s = (.ok b, s') ↔
      ∃ a s₁, exec x s = (.ok a, s₁) ∧ exec (f a) s₁ = (.ok b, s') := by
  rw [exec_bind]
  rcases hx : exec x s with ⟨_ | a, s₁⟩
  · simp
  · simp

/-- A result that is known to be good. -/
theorem eq_ok_of_fst {result : Except ε α × σ} {a : α} (h : result.1 = .ok a) :
    result = (.ok a, result.2) :=
  Prod.ext h rfl

/-- The answer of a mutation does not matter to the state. -/
theorem exec_discard (act : Mutation σ ε α) (s : σ) :
    (exec (discard act) s).2 = (exec act s).2 := by
  have h : discard act = act >>= fun _ => pure () := rfl
  rw [h, exec_bind]
  rcases exec act s with ⟨_ | a, s'⟩
  · rfl
  · rfl

/-- A list of attempts never fails. -/
theorem exec_attemptAll (acts : List (Mutation σ ε Unit)) (s : σ) :
    ∃ errs s', exec (attemptAll acts) s = (.ok errs, s') := by
  induction acts generalizing s with
  | nil => exact ⟨[], s, rfl⟩
  | cons act rest ih =>
    have hattempt : ∃ err s₁, exec (attempt act) s = (.ok err, s₁) := by
      unfold attempt
      rw [exec_tryCatch, exec_bind]
      rcases exec act s with ⟨e | u, s₁⟩
      · exact ⟨some e, s₁, rfl⟩
      · exact ⟨none, s₁, rfl⟩
    obtain ⟨err, s₁, herr⟩ := hattempt
    obtain ⟨errs, s₂, herrs⟩ := ih s₁
    refine ⟨err.toList ++ errs, s₂, ?_⟩
    rw [attemptAll, exec_bind_of_ok herr, exec_bind_of_ok herrs, exec_pure]

/-! ## Where a mutation can move the state -/

variable (r : σ → σ → Prop)

/-- Whatever becomes of it, the mutation moves the state along `r`. -/
def Moves (act : Mutation σ ε α) : Prop := ∀ s, r s (exec act s).2

variable {r}

theorem moves_modify {f : σ → σ} (h : ∀ s, r s (f s)) : Moves r (modify f : Mutation σ ε PUnit) := h

/-- After `get` the rest may depend on the state found. -/
theorem moves_get_bind {f : σ → Mutation σ ε β} (hf : ∀ s, r s (exec (f s) s).2) :
    Moves r (get >>= f) := by
  intro s
  exact hf s

variable {act : Mutation σ ε α}

theorem moves_ite {c : Prop} [Decidable c] {other : Mutation σ ε α} (hact : Moves r act)
    (hother : Moves r other) : Moves r (if c then act else other) := by
  split_ifs
  · exact hact
  · exact hother

variable [IsPreorder σ r]

theorem moves_pure (a : α) : Moves r (pure a : Mutation σ ε α) := fun s => refl_of r s

theorem moves_get : Moves r (get : Mutation σ ε σ) := fun s => refl_of r s

theorem moves_throw (e : ε) : Moves r (throw e : Mutation σ ε α) := fun s => refl_of r s

theorem moves_ofResult (x : Except ε α) : Moves r (ofResult x : Mutation σ ε α) :=
  fun s => refl_of r s

theorem moves_failIf (err : Option ε) : Moves r (failIf err : Mutation σ ε Unit) := by
  cases err with
  | none => exact moves_pure ()
  | some e => exact moves_throw e

theorem Moves.bind (hx : Moves r x) (hf : ∀ a, Moves r (f a)) : Moves r (x >>= f) := by
  intro s
  rw [exec_bind]
  have hmove := hx s
  rcases h : exec x s with ⟨_ | a, s₁⟩
  · rw [h] at hmove
    exact hmove
  · rw [h] at hmove
    exact trans_of r hmove (hf a s₁)

theorem Moves.tryCatch {handler : ε → Mutation σ ε α} (hact : Moves r act)
    (hhandler : ∀ e, Moves r (handler e)) : Moves r (tryCatch act handler) := by
  intro s
  rw [exec_tryCatch]
  have hmove := hact s
  rcases h : exec act s with ⟨e | a, s₁⟩
  · rw [h] at hmove
    exact trans_of r hmove (hhandler e s₁)
  · rw [h] at hmove
    exact hmove

theorem Moves.onlyIf {act : Mutation σ ε Unit} (hact : Moves r act) (c : Bool) :
    Moves r (onlyIf c act) :=
  moves_ite hact (moves_pure ())

theorem Moves.attempt {act : Mutation σ ε Unit} (hact : Moves r act) : Moves r (attempt act) :=
  (hact.bind fun _ => moves_pure _).tryCatch fun _ => moves_pure _

theorem moves_attemptAll {acts : List (Mutation σ ε Unit)} (hacts : ∀ act ∈ acts, Moves r act) :
    Moves r (attemptAll acts) := by
  induction acts with
  | nil => exact moves_pure _
  | cons act rest ih =>
    refine (hacts act List.mem_cons_self).attempt.bind fun _ => ?_
    exact (ih fun other h => hacts other (List.mem_cons_of_mem _ h)).bind fun _ => moves_pure _

theorem moves_forM {l : List α} {f : α → Mutation σ ε PUnit} (hf : ∀ a, Moves r (f a)) :
    Moves r (l.forM f) := by
  induction l with
  | nil => exact moves_pure _
  | cons a l ih => exact (hf a).bind fun _ => ih

/-- The property is kept. -/
def Keeps (P : σ → Prop) (s s' : σ) : Prop := P s → P s'

instance {P : σ → Prop} : IsPreorder σ (Keeps P) where
  refl _ := id
  trans _ _ _ h h' hP := h' (h hP)

/-! ## How a mutation ends -/

/-- From a state in `P` the mutation ends in `Q`, with its answer, or fails in `E`. -/
structure Ends (P : σ → Prop) (act : Mutation σ ε α) (Q : α → σ → Prop) (E : ε → σ → Prop) :
    Prop where
  holds : ∀ s, P s →
    match exec act s with
    | (.ok a, s') => Q a s'
    | (.error e, s') => E e s'

section Ends

variable {P P' : σ → Prop} {Q Q' : α → σ → Prop} {E E' : ε → σ → Prop}

omit [IsPreorder σ r] in
/-- What a mutation does to the state is all that matters. -/
theorem Moves.ends (h : Moves r act) {S : σ → Prop}
    (hS : ∀ s s', P s → r s s' → S s') : Ends P act (fun _ => S) fun _ => S := by
  refine ⟨fun s hs => ?_⟩
  have hmove := hS s _ hs (h s)
  rcases hx : exec act s with ⟨_ | a, s'⟩
  · rw [hx] at hmove
    exact hmove
  · rw [hx] at hmove
    exact hmove

theorem Ends.mono (h : Ends P act Q E) (hP : ∀ s, P' s → P s) (hQ : ∀ a s, Q a s → Q' a s)
    (hE : ∀ e s, E e s → E' e s) : Ends P' act Q' E' := by
  refine ⟨fun s hs => ?_⟩
  have hends := h.holds s (hP s hs)
  rcases hx : exec act s with ⟨e | a, s'⟩
  · rw [hx] at hends
    exact hE e s' hends
  · rw [hx] at hends
    exact hQ a s' hends

theorem ends_pure (a : α) (h : ∀ s, P s → Q a s) : Ends P (pure a : Mutation σ ε α) Q E := ⟨h⟩

theorem ends_throw (e : ε) (h : ∀ s, P s → E e s) : Ends P (throw e : Mutation σ ε α) Q E := ⟨h⟩

theorem Ends.bind {S : α → σ → Prop} {Q : β → σ → Prop} (hx : Ends P x S E)
    (hf : ∀ a, Ends (S a) (f a) Q E) : Ends P (x >>= f) Q E := by
  refine ⟨fun s hs => ?_⟩
  have hends := hx.holds s hs
  rw [exec_bind]
  rcases h : exec x s with ⟨e | a, s'⟩
  · rw [h] at hends
    exact hends
  · rw [h] at hends
    exact (hf a).holds s' hends

/-- The state a mutation starts from may be fixed. -/
theorem ends_of_each (h : ∀ s, P s → Ends (· = s) act Q E) : Ends P act Q E :=
  ⟨fun s hs => (h s hs).holds s rfl⟩

theorem Ends.at_state (h : Ends P act Q E) (hs : P s) : Ends (· = s) act Q E :=
  ⟨fun t ht => h.holds t (ht ▸ hs)⟩

theorem ends_of_exec {s' : σ} {a : α} (h : exec act s = (.ok a, s'))
    (hQ : Q a s') : Ends (· = s) act Q E := by
  refine ⟨fun t ht => ?_⟩
  rw [ht, h]
  exact hQ

theorem ends_of_exec_error {s' : σ} {e : ε} (h : exec act s = (.error e, s'))
    (hE : E e s') : Ends (· = s) act Q E := by
  refine ⟨fun t ht => ?_⟩
  rw [ht, h]
  exact hE

/-- After `get` the rest may depend on the state found. -/
theorem ends_get_bind {f : σ → Mutation σ ε α} (hf : ∀ s, P s → Ends (· = s) (f s) Q E) :
    Ends P (get >>= f) Q E := by
  refine ⟨fun s hs => ?_⟩
  exact (hf s hs).holds s rfl

theorem Ends.tryCatch {handler : ε → Mutation σ ε α} (hact : Ends P act Q E')
    (hhandler : ∀ e, Ends (E' e) (handler e) Q E) : Ends P (tryCatch act handler) Q E := by
  refine ⟨fun s hs => ?_⟩
  have hends := hact.holds s hs
  rw [exec_tryCatch]
  rcases h : exec act s with ⟨e | a, s'⟩
  · rw [h] at hends
    exact (hhandler e).holds s' hends
  · rw [h] at hends
    exact hends

end Ends

end Mutation
