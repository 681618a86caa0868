/-
# Capability observations of TIX-TCP sessions

A monitor publishes what it observes, and a session takes it when it is woken
(`internal/transport/tixtcp/capability_monitor.go`).  What was published since is put together:
the capabilities that all observations have, which are handed out first, and the latest
observation.

* `publish_spec` : one observation takes away what it lacks and is the latest;
* `withdrawals_are_seen` : what an observation lacks is missing in the next one taken, and the
  last one taken is the latest.
-/
import Mathlib

namespace TixTcp

/-! ## Subscriptions -/

/-- Capabilities, and the text of the error if there was one. -/
structure Observation where
  capabilities : UInt64
  err : Option String
  deriving DecidableEq

structure Subscription where
  pending : Bool
  floor : Observation
  latest : Observation
  closed : Bool

def newSubscription : Subscription := ⟨false, ⟨0, none⟩, ⟨0, none⟩, false⟩

namespace Subscription

def publish (s : Subscription) (observation : Observation) : Subscription :=
  if s.closed then s
  else if !s.pending then
    { s with floor := observation, latest := observation, pending := true }
  else
    let capabilities := s.floor.capabilities &&& observation.capabilities
    let floor : Observation :=
      if capabilities ≠ s.floor.capabilities then ⟨capabilities, observation.err⟩
      else if observation.err ≠ none then { s.floor with err := observation.err }
      else s.floor
    { s with floor := floor, latest := observation }

/-- What is handed out, if anything is pending; the floor comes before the latest observation. -/
def take (s : Subscription) : Option Observation × Subscription :=
  if s.closed || !s.pending then (none, s)
  else if s.floor ≠ s.latest then (some s.floor, { s with floor := s.latest })
  else (some s.latest, { s with pending := false })

def close (s : Subscription) : Subscription := { s with closed := true, pending := false }

variable {s : Subscription}

/-- **One observation** that is published. -/
theorem publish_spec (hopen : s.closed = false) (observation : Observation) :
    (s.publish observation).closed = false ∧ (s.publish observation).pending = true ∧
      (s.publish observation).latest = observation ∧
      (s.publish observation).floor.capabilities =
        if s.pending then s.floor.capabilities &&& observation.capabilities
        else observation.capabilities := by
  unfold publish
  rw [if_neg (by simp [hopen])]
  cases hpending : s.pending with
  | false => exact ⟨hopen, rfl, rfl, rfl⟩
  | true =>
    rw [if_neg (by decide), if_pos rfl]
    refine ⟨hopen, rfl, rfl, ?_⟩
    dsimp only
    split_ifs with hfewer herr
    · rfl
    · exact (not_not.mp hfewer).symm
    · exact (not_not.mp hfewer).symm

/-- Observations one after the other leave at most the capabilities of each. -/
theorem floor_publishes (observations : List Observation) (hopen : s.closed = false)
    (hpending : s.pending = true) {bits : UInt64}
    (hbits : s.floor.capabilities &&& bits = s.floor.capabilities) :
    (observations.foldl publish s).closed = false ∧ (observations.foldl publish s).pending = true ∧
      (observations.foldl publish s).floor.capabilities &&& bits =
        (observations.foldl publish s).floor.capabilities := by
  induction observations generalizing s with
  | nil => exact ⟨hopen, hpending, hbits⟩
  | cons observation rest ih =>
    obtain ⟨hclosed, hwaits, -, hfloor⟩ := publish_spec hopen observation
    refine ih hclosed hwaits ?_
    rw [hfloor, if_pos hpending, UInt64.and_assoc, UInt64.and_comm observation.capabilities,
      ← UInt64.and_assoc, hbits]

/-- What is taken has the capabilities of the floor. -/
theorem take_of_pending (hopen : s.closed = false) (hpending : s.pending = true) :
    ∃ seen, s.take.1 = some seen ∧ seen.capabilities = s.floor.capabilities := by
  unfold take
  rw [if_neg (by simp [hopen, hpending])]
  split_ifs with hsame
  · exact ⟨_, rfl, rfl⟩
  · exact ⟨_, rfl, congrArg Observation.capabilities (not_not.mp hsame).symm⟩

end Subscription

/-! ## Runs -/

inductive Event where
  | publish (observation : Observation)
  | take

def Subscription.after (s : Subscription) : Event → Subscription
  | .publish observation => s.publish observation
  | .take => s.take.2

/-- The observations that were published, in order. -/
def published (events : List Event) : List Observation :=
  events.filterMap fun
    | .publish observation => some observation
    | .take => none

/-- In a run the subscription stays open, and what is pending is the latest observation. -/
theorem latest_of_pending (events : List Event) :
    (events.foldl Subscription.after newSubscription).closed = false ∧
      ((events.foldl Subscription.after newSubscription).pending = true →
        (published events).getLast? =
          some (events.foldl Subscription.after newSubscription).latest) := by
  induction events using List.reverseRecOn with
  | nil => exact ⟨rfl, nofun⟩
  | append_singleton events event ih =>
    obtain ⟨hopen, hlatest⟩ := ih
    rw [List.foldl_append, List.foldl_cons, List.foldl_nil]
    generalize events.foldl Subscription.after newSubscription = s at hopen hlatest ⊢
    cases event with
    | publish observation =>
      obtain ⟨hclosed, -, hnew, -⟩ := Subscription.publish_spec hopen observation
      refine ⟨hclosed, fun _ => ?_⟩
      show _ = some (s.publish observation).latest
      rw [hnew, published, List.filterMap_append]
      simp
    | take =>
      have hsame : published (events ++ [.take]) = published events := by simp [published]
      rw [hsame]
      show s.take.2.closed = false ∧ (s.take.2.pending = true → _ = some s.take.2.latest)
      unfold Subscription.take
      split_ifs
      · exact ⟨hopen, hlatest⟩
      · exact ⟨hopen, hlatest⟩
      · exact ⟨hopen, nofun⟩

/-- **Withdrawals are seen.**  In every run, the first take after an observation was published
hands out no capability that the observation lacks, whatever else was published in between; and a
take that leaves nothing pending hands out the latest observation. -/
theorem withdrawals_are_seen (events : List Event) :
    (∀ observation others, ∃ seen,
      ((observation :: others).foldl Subscription.publish
        (events.foldl Subscription.after newSubscription)).take.1 = some seen ∧
      seen.capabilities &&& observation.capabilities = seen.capabilities) ∧
    ∀ seen rest, (events.foldl Subscription.after newSubscription).take = (some seen, rest) →
      rest.pending = false → (published events).getLast? = some seen := by
  obtain ⟨hopen, hlatest⟩ := latest_of_pending events
  generalize events.foldl Subscription.after newSubscription = s at hopen hlatest ⊢
  constructor
  · intro observation others
    obtain ⟨hclosed, hpending, -, hfloor⟩ := Subscription.publish_spec hopen observation
    have hbits : (s.publish observation).floor.capabilities &&& observation.capabilities =
        (s.publish observation).floor.capabilities := by
      rw [hfloor]
      split_ifs
      · rw [UInt64.and_assoc, UInt64.and_self]
      · exact UInt64.and_self
    obtain ⟨hclosed, hpending, hbits⟩ := Subscription.floor_publishes others hclosed hpending hbits
    obtain ⟨seen, hseen, hfrom⟩ := Subscription.take_of_pending hclosed hpending
    exact ⟨seen, hseen, by rw [hfrom, hbits]⟩
  · intro seen rest htake hdone
    unfold Subscription.take at htake
    split_ifs at htake with hnothing hsame
    · cases htake
    · -- the floor was handed out, and the latest observation is still to come
      obtain ⟨-, rfl⟩ := Prod.mk.inj htake
      rw [Bool.or_eq_true, not_or, Bool.not_eq_true', Bool.not_eq_false] at hnothing
      exact absurd hnothing.2 (Bool.eq_false_iff.mp hdone)
    · obtain ⟨hseen, -⟩ := Prod.mk.inj htake
      rw [Bool.or_eq_true, not_or, Bool.not_eq_true', Bool.not_eq_false] at hnothing
      rw [hlatest hnothing.2, hseen]

end TixTcp
