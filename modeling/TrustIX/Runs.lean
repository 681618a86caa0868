/-
# Runs of a transition system

States reached by steps of which each meets a condition in the state it is taken in, the
induction rule for them, the replay of a concrete list of events, and what happens sooner or
later whichever of the allowed steps are taken.
-/
import Mathlib.Data.List.Basic
import Mathlib.Logic.Relation

namespace Runs

variable {σ ε : Type*} {step : σ → ε → Option σ} {ok ok' : σ → ε → Prop}

/-- The states that `start` reaches by steps that all meet `ok`. -/
inductive Reaches (step : σ → ε → Option σ) (ok : σ → ε → Prop) (start : σ) : σ → Prop
  | refl : Reaches step ok start start
  | tail {state next : σ} {event : ε} (reached : Reaches step ok start state)
      (allowed : ok state event) (taken : step state event = some next) :
      Reaches step ok start next

/-- What holds at the start and is kept by every allowed step holds in every state reached. -/
theorem Reaches.invariant {start state : σ} (Inv : σ → Prop) (hstart : Inv start)
    (hstep : ∀ s e t, Inv s → ok s e → step s e = some t → Inv t)
    (h : Reaches step ok start state) : Inv state := by
  induction h with
  | refl => exact hstart
  | tail _ allowed taken ih => exact hstep _ _ _ ih allowed taken

/-- The events taken one after the other, each checked against `ok`. -/
def replay (step : σ → ε → Option σ) (ok : σ → ε → Prop) [∀ s e, Decidable (ok s e)] (start : σ) :
    List ε → Option σ
  | [] => some start
  | event :: rest =>
    if ok start event then (step start event).bind fun next => replay step ok next rest else none

theorem Reaches.trans {start middle state : σ} (first : Reaches step ok start middle)
    (second : Reaches step ok middle state) : Reaches step ok start state := by
  induction second with
  | refl => exact first
  | tail _ allowed taken ih => exact .tail ih allowed taken

/-- A replay that goes through reaches the state it ends in. -/
theorem reaches_of_replay [∀ s e, Decidable (ok s e)] {events : List ε} {start state : σ}
    (h : replay step ok start events = some state) : Reaches step ok start state := by
  induction events generalizing start with
  | nil =>
    cases h
    exact .refl
  | cons event rest ih =>
    unfold replay at h
    split_ifs at h with hok
    obtain ⟨next, htaken, hrest⟩ := Option.bind_eq_some_iff.mp h
    exact .trans (.tail .refl hok htaken) (ih hrest)

/-! ## Inevitability -/

/-- Whichever allowed steps are taken, a state with `goal` comes: it is there, or some step is
allowed and every one leads to where it is inevitable. -/
inductive Inevitably (step : σ → ε → Option σ) (ok : σ → ε → Prop) (goal : σ → Prop) : σ → Prop
  | now {state : σ} (here : goal state) : Inevitably step ok goal state
  | later {state : σ} (enabled : ∃ event next, ok state event ∧ step state event = some next)
      (rest : ∀ event next, ok state event → step state event = some next →
        Inevitably step ok goal next) : Inevitably step ok goal state

/-- An invariant under which steps are possible and make a measure smaller. -/
theorem inevitably_of_measure {goal : σ → Prop} (Inv : σ → Prop) (measure : σ → ℕ)
    (henabled : ∀ s, Inv s → ∃ e t, ok s e ∧ step s e = some t)
    (hstep : ∀ s e t, Inv s → ok s e → step s e = some t →
      goal t ∨ (Inv t ∧ measure t < measure s)) {state : σ} (h : Inv state) :
    Inevitably step ok goal state := by
  induction hn : measure state using Nat.strongRecOn generalizing state with
  | _ n ih =>
    subst hn
    refine .later (henabled state h) ?_
    intro event next hok htaken
    rcases hstep state event next h hok htaken with hgoal | ⟨hnext, hless⟩
    · exact .now hgoal
    · exact ih _ hless hnext rfl

/-- What is inevitable cannot be kept off by an invariant. -/
theorem not_inevitably_of_invariant {goal : σ → Prop} (Inv : σ → Prop)
    (hstep : ∀ s e t, Inv s → ok s e → step s e = some t → Inv t)
    (hgoal : ∀ s, Inv s → ¬ goal s) {state : σ} (h : Inv state) :
    ¬ Inevitably step ok goal state := by
  intro hinevitable
  induction hinevitable with
  | now here => exact hgoal _ h here
  | later enabled _ ih =>
    obtain ⟨event, next, hok, htaken⟩ := enabled
    exact ih event next hok htaken (hstep _ _ _ h hok htaken)

/-! ## Acyclic relations -/

/-- No chain of the relation leads back to where it began. -/
def Acyclic {α : Type*} (r : α → α → Prop) : Prop := ∀ a, ¬ Relation.TransGen r a a

theorem acyclic_of_empty {α : Type*} {r : α → α → Prop} (h : ∀ a b, ¬ r a b) : Acyclic r := by
  intro a hcycle
  obtain ⟨b, hab, -⟩ := Relation.TransGen.head'_iff.mp hcycle
  exact h a b hab

/-- New edges that lead to nodes without an edge of their own close no cycle. -/
theorem Acyclic.of_sinks {α : Type*} {r s : α → α → Prop} (hr : Acyclic r)
    (h : ∀ a b, s a b → r a b ∨ ∀ c, ¬ s b c) : Acyclic s := by
  -- a chain that goes on at its end uses old edges only
  have hold : ∀ a b, Relation.TransGen s a b → (∃ c, s b c) → Relation.TransGen r a b := by
    intro a b hchain
    induction hchain with
    | single hab =>
      rintro ⟨c, hbc⟩
      rcases h _ _ hab with hedge | hsink
      · exact .single hedge
      · exact absurd hbc (hsink c)
    | tail _ hbc ih =>
      rintro ⟨d, hcd⟩
      rcases h _ _ hbc with hedge | hsink
      · exact .tail (ih ⟨_, hbc⟩) hedge
      · exact absurd hcd (hsink d)
  intro a hcycle
  obtain ⟨b, hab, -⟩ := Relation.TransGen.head'_iff.mp hcycle
  exact hr a (hold a a hcycle ⟨b, hab⟩)

end Runs
