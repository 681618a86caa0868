/-
# Reconcile requests

A part of the daemon that fails to bring the runtime state in line asks for a reconcile; a
worker makes one attempt at a time, without the lock that the requests take
(`internal/daemon/runtime_reconcile.go`).  An attempt notes the generation of the last request
when it begins, and clears the pending flag at its end only if that generation is still the
last one.

* `settled_of_reaches` : while fewer than 2^64 requests fall into one attempt, a pending flag
  that is not set means that the last successful attempt began after every request;
* `wrapped_generation_is_mistaken` : what happens when the counter comes round.
-/
import Mathlib.Data.UInt
import TrustIX.Runs

namespace RuntimeReconcile

open Runs

/-! ## The state -/

/-- `runtimeReconcileStatus`; times are numbers, 0 for a time that was not set. -/
structure Status where
  pending : Bool
  reason : String
  lastError : String
  attempts : UInt64
  requestedAt : ℕ
  lastAttemptAt : ℕ
  lastSuccessAt : ℕ
  deriving DecidableEq

/-- A running attempt: the generation that it noted, and how many requests there were then. -/
structure Attempt where
  generation : UInt64
  began : ℕ
  deriving DecidableEq

/-- What the two locks guard, and the history: the number of requests made, and how many of
them had been made when the last successful attempt began. -/
structure State where
  status : Status
  generation : UInt64
  attempt : Option Attempt
  requests : ℕ
  lastSuccess : Option ℕ
  deriving DecidableEq

def start : State :=
  ⟨⟨false, "", "", 0, 0, 0, 0⟩, 0, none, 0, none⟩

/-! ## Steps -/

/-- `requestRuntimeReconcile`; without an error there is nothing to reconcile. -/
def requestRuntimeReconcile (reason : String) (err : Option String) (now : ℕ) (s : State) :
    State :=
  match err with
  | none => s
  | some text =>
    { s with
      generation := s.generation + 1
      status :=
        { s.status with
          pending := true
          reason := reason
          lastError := text
          requestedAt := now }
      requests := s.requests + 1 }

/-- `retryPendingRuntimeReconcile` up to the call of `reconcileRuntimeState`. -/
def beginAttempt (now : ℕ) (s : State) : State :=
  if s.status.pending then
    { s with
      status := { s.status with attempts := s.status.attempts + 1, lastAttemptAt := now }
      attempt := some ⟨s.generation, s.requests⟩ }
  else s

/-- The rest of `retryPendingRuntimeReconcile`, with the error of `reconcileRuntimeState`. -/
def finishAttempt (attempt : Attempt) (err : Option String) (now : ℕ) (s : State) : State :=
  match err with
  | some text =>
    if s.generation = attempt.generation then
      { s with status := { s.status with lastError := text }, attempt := none }
    else { s with attempt := none }
  | none =>
    if s.generation = attempt.generation then
      { s with
        status :=
          { s.status with pending := false, reason := "", lastError := "", lastSuccessAt := now }
        attempt := none
        lastSuccess := some attempt.began }
    else { s with attempt := none, lastSuccess := some attempt.began }

inductive Event where
  | request (reason : String) (err : Option String) (now : ℕ)
  | begin (now : ℕ)
  | finish (err : Option String) (now : ℕ)
  deriving DecidableEq

/-- One step; the lock of the attempts lets one run at a time. -/
def step (s : State) : Event → Option State
  | .request reason err now => some (requestRuntimeReconcile reason err now s)
  | .begin now => if s.attempt = none then some (beginAttempt now s) else none
  | .finish err now => s.attempt.map fun attempt => finishAttempt attempt err now s

/-! ## No request is lost -/

/-- The last successful attempt began after every request made so far, or the flag is set. -/
def Settled (s : State) : Prop :=
  s.status.pending = false → s.requests = 0 ∨ s.lastSuccess = some s.requests

instance (s : State) : Decidable (Settled s) :=
  inferInstanceAs (Decidable (s.status.pending = false → _))

/-- The attempt that ends saw fewer new requests than the generation has values. -/
def Timely (s : State) : Event → Prop
  | .finish _ _ => ∀ attempt ∈ s.attempt, s.requests - attempt.began < 2 ^ 64
  | _ => True

instance (s : State) : DecidablePred (Timely s) := fun
  | .request _ _ _ => isTrue trivial
  | .begin _ => isTrue trivial
  | .finish _ _ =>
    inferInstanceAs (Decidable (∀ attempt ∈ s.attempt, s.requests - attempt.began < 2 ^ 64))

/-- What an attempt noted is the number of requests at its beginning, and it was asked for. -/
structure Underway (s : State) (attempt : Attempt) : Prop where
  generation : attempt.generation = UInt64.ofNat attempt.began
  began_le : attempt.began ≤ s.requests
  pending : s.status.pending = true

/-- The generation counts the requests, as far as it can, and no request is lost. -/
structure Counted (s : State) : Prop where
  generation : s.generation = UInt64.ofNat s.requests
  attempt : ∀ attempt ∈ s.attempt, Underway s attempt
  settled : Settled s

theorem counted_start : Counted start := by
  refine ⟨rfl, ?_, fun _ => .inl rfl⟩
  intro attempt hattempt
  cases hattempt

/-- Counts that agree in 64 bits and are not far apart are equal. -/
theorem eq_of_ofNat_eq {began requests : ℕ} (h : UInt64.ofNat requests = UInt64.ofNat began)
    (hle : began ≤ requests) (hnear : requests - began < 2 ^ 64) : began = requests := by
  have hmod := congrArg UInt64.toNat h
  simp only [UInt64.toNat_ofNat'] at hmod
  omega

theorem Counted.request {s : State} (h : Counted s) (reason : String) (err : Option String)
    (now : ℕ) : Counted (requestRuntimeReconcile reason err now s) := by
  cases err with
  | none => exact h
  | some text =>
    refine ⟨?_, ?_, fun hpending => by cases hpending⟩
    · show s.generation + 1 = UInt64.ofNat (s.requests + 1)
      rw [h.generation, UInt64.ofNat_add]
      rfl
    · intro attempt hattempt
      obtain ⟨hgeneration, hle, -⟩ := h.attempt attempt hattempt
      exact ⟨hgeneration, Nat.le_succ_of_le hle, rfl⟩

theorem Counted.begin {s : State} (h : Counted s) (now : ℕ) : Counted (beginAttempt now s) := by
  unfold beginAttempt
  split_ifs with hpending
  · refine ⟨h.generation, ?_, h.settled⟩
    rintro attempt ⟨⟩
    exact ⟨h.generation, le_rfl, hpending⟩
  · exact h

/-- **An attempt clears the flag only if no request came meanwhile.** -/
theorem Counted.finish {s : State} (h : Counted s) {attempt : Attempt}
    (hattempt : attempt ∈ s.attempt) (hnear : s.requests - attempt.began < 2 ^ 64)
    (err : Option String) (now : ℕ) : Counted (finishAttempt attempt err now s) := by
  obtain ⟨hgeneration, hle, hpending⟩ := h.attempt attempt hattempt
  have hset : ∀ t : State, t.status.pending = true → Settled t := by
    intro t ht hclear
    rw [ht] at hclear
    cases hclear
  unfold finishAttempt
  cases err with
  | some text =>
    split_ifs
    · exact ⟨h.generation, by rintro _ ⟨⟩, hset _ hpending⟩
    · exact ⟨h.generation, by rintro _ ⟨⟩, hset _ hpending⟩
  | none =>
    split_ifs with hsame
    · refine ⟨h.generation, by rintro _ ⟨⟩, fun _ => .inr ?_⟩
      rw [h.generation, hgeneration] at hsame
      exact congrArg some (eq_of_ofNat_eq hsame hle hnear)
    · -- a request came meanwhile: its flag stays for another attempt
      exact ⟨h.generation, by rintro _ ⟨⟩, hset _ hpending⟩

theorem counted_step {s t : State} {event : Event} (h : Counted s) (htimely : Timely s event)
    (hstep : step s event = some t) : Counted t := by
  cases event with
  | request reason err now =>
    cases hstep
    exact h.request reason err now
  | begin now =>
    simp only [step] at hstep
    split_ifs at hstep
    cases hstep
    exact h.begin now
  | finish err now =>
    obtain ⟨attempt, hattempt, rfl⟩ := Option.map_eq_some_iff.mp hstep
    exact h.finish hattempt (htimely attempt hattempt) err now

/-- **No reconcile request is lost** in a run in which fewer than 2^64 requests fall into one
attempt: whenever the flag is not set, the last successful attempt began after every request
made so far. -/
theorem settled_of_reaches {s : State} (h : Reaches step Timely start s) : Settled s :=
  (h.invariant Counted counted_start fun _ _ _ => counted_step).settled

/-- Two requests, the second while an attempt for the first succeeds, and another attempt. -/
def overtaken : List Event :=
  [.request "admission" (some "no route") 1, .begin 2, .request "members" (some "disk") 3,
    .finish none 4, .begin 5, .finish none 6]

theorem settled_of_reaches_overtaken :
    ∃ s, Reaches step Timely start s ∧ s.status.pending = false ∧ s.requests = 2 ∧
      (s.requests = 0 ∨ s.lastSuccess = some s.requests) := by
  have hrun : (replay step Timely start overtaken).any
      (fun s => decide (s.status.pending = false ∧ s.requests = 2)) = true := by
    decide +kernel
  obtain ⟨s, hs, hend⟩ := (Option.any_eq_true _ _).mp hrun
  obtain ⟨hpending, hrequests⟩ := of_decide_eq_true hend
  have hreaches := reaches_of_replay hs
  exact ⟨s, hreaches, hpending, hrequests, settled_of_reaches hreaches hpending⟩

/-! ## When the generation comes round -/

/-- `count` requests while an attempt runs. -/
theorem exists_requests (count : ℕ) {s : State} :
    ∃ t, Reaches step (fun _ _ => True) s t ∧ t.attempt = s.attempt ∧
      t.generation = s.generation + UInt64.ofNat count ∧ t.requests = s.requests + count := by
  induction count with
  | zero => exact ⟨s, .refl, rfl, by simp, rfl⟩
  | succ count ih =>
    obtain ⟨t, hreaches, hattempt, hgeneration, hrequests⟩ := ih
    have htaken : step t (.request "admission" (some "no route") 0) =
      some (requestRuntimeReconcile "admission" (some "no route") 0 t) := rfl
    refine ⟨_, .tail hreaches trivial htaken, hattempt, ?_, ?_⟩
    · show t.generation + 1 = _
      rw [hgeneration, UInt64.ofNat_add, UInt64.add_assoc]
      rfl
    · show t.requests + 1 = _
      rw [hrequests]
      rfl

/-- The state of the small run before its attempt ends: one request, and an attempt for it. -/
def underway : State :=
  beginAttempt 0 (requestRuntimeReconcile "admission" (some "no route") 0 start)

theorem reaches_underway : Reaches step (fun _ _ => True) start underway := by
  have hrequest : step start (.request "admission" (some "no route") 0) =
    some (requestRuntimeReconcile "admission" (some "no route") 0 start) := rfl
  have hbegin : step (requestRuntimeReconcile "admission" (some "no route") 0 start) (.begin 0) =
    some underway := rfl
  exact .tail (.tail .refl trivial hrequest) trivial hbegin

/-- **A generation that came round** is taken for the one noted: after 2^64 requests during one
attempt, its success clears the flag although it began before all of them. -/
theorem wrapped_generation_is_mistaken :
    ∃ s, Reaches step (fun _ _ => True) start s ∧ s.status.pending = false ∧
      s.requests = 2 ^ 64 + 1 ∧ s.lastSuccess = some 1 := by
  obtain ⟨t, hreaches, hattempt, hgeneration, hrequests⟩ := @exists_requests (2 ^ 64) underway
  have hsame : t.generation = 1 := by
    rw [hgeneration]
    decide
  have htaken : step t (.finish none 0) = some (finishAttempt ⟨1, 1⟩ none 0 t) := by
    show t.attempt.map _ = _
    rw [hattempt]
    rfl
  refine ⟨_, .tail (reaches_underway.trans hreaches) trivial htaken, ?_⟩
  unfold finishAttempt
  rw [if_pos hsame]
  refine ⟨rfl, ?_, rfl⟩
  rw [hrequests, Nat.add_comm]
  rfl

end RuntimeReconcile
