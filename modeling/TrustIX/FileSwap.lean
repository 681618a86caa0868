/-
# Files that are replaced and put back

A disk holds finitely many files under their paths.  A file is replaced by moving what is
there to a free path first; the replacement is undone by moving it back.

* `undo_replace`, `undo_create` : a replacement is undone;
* `undoAll_of_journal` : so is a journal of them, from its end.
-/
import Mathlib

namespace FileSwap

variable {P F : Type} [DecidableEq P]

/-- The files of a disk, by path. -/
abbrev Disk (P F : Type) := Finmap fun _ : P => F

/-! ## Moving a file -/

/-- `rename`: the file at `a`, if there is one, is found at `b`. -/
def move (d : Disk P F) (a b : P) : Disk P F :=
  match d.lookup a with
  | none => d
  | some file => (d.erase a).insert b file

variable {d : Disk P F}

theorem lookup_move {a b : P} {file : F} (ha : d.lookup a = some file) (p : P) :
    (move d a b).lookup p = if p = b then some file else if p = a then none else d.lookup p := by
  unfold move
  rw [ha]
  by_cases hb : p = b
  · rw [if_pos hb, hb]
    exact Finmap.lookup_insert _
  · rw [if_neg hb]
    show ((d.erase a).insert b file).lookup p = _
    rw [Finmap.lookup_insert_of_ne _ hb]
    by_cases hp : p = a
    · rw [if_pos hp, hp]
      exact Finmap.lookup_erase a d
    · rw [if_neg hp]
      exact Finmap.lookup_erase_ne hp

/-- A file moved to a free path can be moved back. -/
theorem move_move {a b : P} {file : F} (ha : d.lookup a = some file)
    (hb : d.lookup b = none) : move (move d a b) b a = d := by
  have hmoved : (move d a b).lookup b = some file := by
    rw [lookup_move ha, if_pos rfl]
  apply Finmap.ext_lookup
  intro p
  rw [lookup_move hmoved, lookup_move ha]
  by_cases hpa : p = a
  · rw [if_pos hpa, hpa, ha]
  · rw [if_neg hpa, if_neg hpa]
    by_cases hpb : p = b
    · rw [if_pos hpb, hpb, hb]
    · rw [if_neg hpb, if_neg hpb]

/-! ## Free paths -/

/-- The first of the names that is free, among as many as may be needed. -/
def firstFree (name : ℕ → P) (d : Disk P F) : Option ℕ :=
  (List.range (d.keys.card + 1)).find? fun i => (d.lookup (name i)).isNone

theorem free_of_firstFree {name : ℕ → P} {i : ℕ} (h : firstFree name d = some i) :
    d.lookup (name i) = none := by
  have hfree := List.find?_some h
  exact Option.isNone_iff_eq_none.mp hfree

/-! ## Undoing -/

/-- A file that was replaced, and where the one before it is; none if there was none. -/
structure Change (P : Type) where
  target : P
  backup : Option P
  deriving DecidableEq

def Change.undo (change : Change P) (d : Disk P F) : Disk P F :=
  match change.backup with
  | none => d.erase change.target
  | some backup => move (d.erase change.target) backup change.target

theorem undo_create {target : P} (file : F) (htarget : d.lookup target = none) :
    Change.undo ⟨target, none⟩ (d.insert target file) = d := by
  apply Finmap.ext_lookup
  intro p
  show ((d.insert target file).erase target).lookup p = _
  by_cases hp : p = target
  · rw [hp, Finmap.lookup_erase, htarget]
  · rw [Finmap.lookup_erase_ne hp, Finmap.lookup_insert_of_ne _ hp]

/-- Whatever took the place of the file that was moved away, or nothing. -/
theorem undo_moved {d d' : Disk P F} {target backup : P} {file : F}
    (htarget : d.lookup target = some file) (hbackup : d.lookup backup = none)
    (hd' : ∀ p, p ≠ target → d'.lookup p = (move d target backup).lookup p) :
    Change.undo ⟨target, some backup⟩ d' = d := by
  have hne : backup ≠ target := by
    rintro rfl
    rw [htarget] at hbackup
    cases hbackup
  have herase : d'.erase target = move d target backup := by
    apply Finmap.ext_lookup
    intro p
    by_cases hp : p = target
    · rw [hp, Finmap.lookup_erase, lookup_move htarget, if_neg hne.symm, if_pos rfl]
    · rw [Finmap.lookup_erase_ne hp, hd' p hp]
  show move (d'.erase target) backup target = d
  rw [herase]
  exact move_move htarget hbackup

theorem undo_replace {target backup : P} {old : F} (new : F)
    (htarget : d.lookup target = some old) (hbackup : d.lookup backup = none) :
    Change.undo ⟨target, some backup⟩ ((move d target backup).insert target new) = d :=
  undo_moved htarget hbackup fun _ hp => Finmap.lookup_insert_of_ne _ hp

/-! ## Journals -/

/-- The changes that led from one disk to another, each of which can be undone. -/
inductive Journal : List (Change P) → Disk P F → Disk P F → Prop
  | nil (d : Disk P F) : Journal [] d d
  | snoc {changes : List (Change P)} {change : Change P} {d d' d'' : Disk P F} :
      Journal changes d d' → change.undo d'' = d' → Journal (changes ++ [change]) d d''

/-- All changes are undone, the last one first. -/
def undoAll (changes : List (Change P)) (d : Disk P F) : Disk P F :=
  changes.reverse.foldl (fun d change => change.undo d) d

theorem undoAll_concat (changes : List (Change P)) (change : Change P) (d : Disk P F) :
    undoAll (changes ++ [change]) d = undoAll changes (change.undo d) := by
  unfold undoAll
  rw [List.reverse_append, List.reverse_singleton, List.singleton_append, List.foldl_cons]

/-- **A journal is undone.** -/
theorem undoAll_of_journal {changes : List (Change P)} {d d' : Disk P F}
    (h : Journal changes d d') : undoAll changes d' = d := by
  induction h with
  | nil d => rfl
  | snoc hjournal hundo ih => rw [undoAll_concat, hundo, ih]

end FileSwap
