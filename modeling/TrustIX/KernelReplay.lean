/-
# The replay window of the kernel crypto module

`trustix_crypto.c` keeps the sequence numbers a receive slot has accepted in a ring
of 1024 tagged blocks of 64 numbers and commits them batch by batch: the whole batch
is validated against the state before it, then every number of it is marked.

* `Tracks`, `Live` : the slot represents the history of accepted numbers, and has
  lost none of the window;
* `Tracks.commit_ok`, `Live.commit_ok` : what one commit does to them;
* `replaySafe_iff` : a window setting keeps its promise on every run iff the
  effective window is at most 65473 numbers, which is what the ring can hold for
  every alignment.  The maximal setting, which the TIX-TCP transport asks for, is
  65536.
-/
import TrustIX.SlidingWindow
import TrustIX.TaggedRing
import TrustIX.WordBitmap

namespace KernelReplay

open SlidingWindow TaggedRing WordBitmap

/-! ## The slot -/

def replayMax : ℕ := 65536
def replayWords : ℕ := replayMax / 64
def replayBatchMax : ℕ := 64
def iocTagLen : ℕ := 16
def iocInputMax : ℕ := 512 * 1024

/-- The error numbers the replay path returns. -/
inductive Errno where
  | EINVAL
  | ESTALE
  | EOPNOTSUPP
  deriving DecidableEq, Repr

/-- The receive half of `struct trustix_aead_direct_slot`.  `decrypt` is the flag
`DIRECT_FLAG_DECRYPT`, with which the two arrays are allocated. -/
structure Slot where
  decrypt : Bool
  generation : ℕ
  replayFloor : ℕ
  replayLastSequence : ℕ
  seenWords : Fin 1024 → BitVec 64
  replayBlocks : Fin 1024 → ℕ
  replayWindow : ℕ
  replayInitialized : Bool

/-- A slot as it is published: zeroed, the arrays from `kcalloc`. -/
def newSlot (generation : ℕ) : Slot where
  decrypt := true
  generation := generation
  replayFloor := 0
  replayLastSequence := 0
  seenWords := fun _ => 0#64
  replayBlocks := fun _ => 0
  replayWindow := 0
  replayInitialized := false

/-- `trustix_aead_direct_replay_window`. -/
def replayWindow (window : ℕ) : ℕ :=
  if window = 0 ∨ window > replayMax then replayMax else window

/-- `(u32)block & (REPLAY_WORDS - 1)`. -/
def blockIndex (block : ℕ) : Fin 1024 := ⟨block % 2 ^ 32 % 1024, Nat.mod_lt _ (by decide)⟩

/-- `trustix_aead_direct_replay_seen`. -/
def replaySeen (slot : Slot) (sequence : ℕ) : Bool :=
  let block := sequence / 64
  let index := blockIndex block
  let mask := 1#64 <<< (sequence % 2 ^ 32 % 64)
  slot.replayBlocks index == block && (slot.seenWords index &&& mask) != 0#64

/-- `trustix_aead_direct_replay_mark`. -/
def replayMark (slot : Slot) (sequence : ℕ) : Slot :=
  let block := sequence / 64
  let index := blockIndex block
  let mask := 1#64 <<< (sequence % 2 ^ 32 % 64)
  let slot :=
    if slot.replayBlocks index ≠ block then
      { slot with
        replayBlocks := Function.update slot.replayBlocks index block
        seenWords := Function.update slot.seenWords index 0#64 }
    else slot
  { slot with
    seenWords := Function.update slot.seenWords index (slot.seenWords index ||| mask) }

/-- The validation loop: `earlier` are the operations before the current one and
`last` the running `last_sequence`. -/
def validateBatch (slot : Slot) (floor window : ℕ) :
    List ℕ → ℕ → List ℕ → Except Errno ℕ
  | _, last, [] => .ok last
  | earlier, last, sequence :: rest =>
    if sequence = 0 ∨ sequence ≤ floor then .error .ESTALE
    else if sequence ∈ earlier then .error .ESTALE
    else if sequence > last then
      validateBatch slot floor window (earlier ++ [sequence]) sequence rest
    else
      let delta := last - sequence
      if delta ≥ window ∨ delta ≥ replayMax ∨ replaySeen slot sequence = true then
        .error .ESTALE
      else validateBatch slot floor window (earlier ++ [sequence]) last rest

/-- The floor, window and last sequence a commit works with. -/
def effective (slot : Slot) (floor window : ℕ) : ℕ × ℕ × ℕ :=
  let window := replayWindow window
  let (floor, window, last) :=
    if slot.replayInitialized then
      (if slot.replayFloor > floor then slot.replayFloor else floor,
        if slot.replayWindow ≠ 0 ∧ slot.replayWindow < window then slot.replayWindow else window,
        slot.replayLastSequence)
    else (floor, window, floor)
  (floor, window, if floor > last then floor else last)

/-- `trustix_aead_direct_replay_commit_batch`, which changes nothing when it fails. -/
def replayCommitBatch (slot : Slot) (ops : List ℕ) (floor window : ℕ) : Except Errno Slot :=
  if ops.length = 0 ∨ ops.length > replayBatchMax ∨ slot.decrypt = false then .error .EINVAL
  else
    let (floor, window, last) := effective slot floor window
    match validateBatch slot floor window [] last ops with
    | .error err => .error err
    | .ok last =>
      .ok (ops.foldl replayMark
        { slot with
          replayFloor := floor
          replayLastSequence := last
          replayWindow := window
          replayInitialized := true })

/-- One record of a batch to open. -/
structure OpenOp where
  hasSrc : Bool
  hasDst : Bool
  cipherLen : ℕ
  sequence : ℕ

/-- `trustix_kernel_direct_open_replay_batch_checked` on the slot its id looks up.
`openBatch` authenticates the batch under the slot's key. -/
def openReplayBatchChecked (ready : Bool) (openBatch : List OpenOp → Except Errno Unit)
    (slot : Option Slot) (generation : ℕ) (ops : List OpenOp) (floor window : ℕ) :
    Except Errno Slot :=
  if generation = 0 ∨ ops.length = 0 ∨ ops.length > replayBatchMax then .error .EINVAL
  else if ready = false then .error .EOPNOTSUPP
  else if ops.any (fun op => !op.hasSrc || !op.hasDst || op.sequence == 0 ||
      decide (op.cipherLen < iocTagLen) || decide (op.cipherLen > iocInputMax)) then
    .error .EINVAL
  else
    match slot with
    | none => .error .ESTALE
    | some slot =>
      if slot.generation ≠ generation then .error .ESTALE
      else
        match openBatch ops with
        | .error err => .error err
        | .ok () => replayCommitBatch slot (ops.map OpenOp.sequence) floor window

/-- `tixTCPReplayWindowForKernelCrypto` of the TIX-TCP transport. -/
def tixTCPReplayWindowForKernelCrypto (window : ℕ) : ℕ :=
  if window ≥ 65536 then window else 65536

/-! ## The two arrays are a tagged ring -/

/-- The ring a slot's arrays make up. -/
def Slot.ring (slot : Slot) : Ring 1024 := ⟨slot.replayBlocks, slot.seenWords⟩

theorem blockIndex_eq (s : ℕ) : blockIndex (s / 64) = slotOf 1024 s := by
  apply Fin.ext
  show s / 64 % 2 ^ 32 % 1024 = s / 64 % 1024
  omega

theorem replaySeen_eq (slot : Slot) (s : ℕ) : replaySeen slot s = seen slot.ring s := by
  have hbit : s % 2 ^ 32 % 64 = s % 64 := by omega
  unfold replaySeen seen
  dsimp only
  rw [blockIndex_eq, hbit, and_one_shiftLeft_ne_zero _ _ (Nat.mod_lt _ (by decide))]
  rfl

theorem ring_replayMark (slot : Slot) (s : ℕ) : (replayMark slot s).ring = mark slot.ring s := by
  have hbit : s % 2 ^ 32 % 64 = s % 64 := by omega
  unfold replayMark
  dsimp only
  rw [blockIndex_eq, hbit, ← BitVec.twoPow_eq]
  by_cases htag : slot.replayBlocks (slotOf 1024 s) = s / 64
  · simp [Slot.ring, mark, htag]
  · simp [Slot.ring, mark, htag]

/-- Marking touches the two arrays only. -/
theorem foldl_replayMark (slot : Slot) (l : List ℕ) :
    (l.foldl replayMark slot).ring = markAll slot.ring l ∧
      (l.foldl replayMark slot).decrypt = slot.decrypt ∧
      (l.foldl replayMark slot).replayFloor = slot.replayFloor ∧
      (l.foldl replayMark slot).replayLastSequence = slot.replayLastSequence ∧
      (l.foldl replayMark slot).replayWindow = slot.replayWindow ∧
      (l.foldl replayMark slot).replayInitialized = slot.replayInitialized := by
  induction l generalizing slot with
  | nil => exact ⟨rfl, rfl, rfl, rfl, rfl, rfl⟩
  | cons t l ih =>
    obtain ⟨hring, hdec, hfloor, hlast, hwin, hinit⟩ := ih (replayMark slot t)
    have hframe : (replayMark slot t).decrypt = slot.decrypt ∧
        (replayMark slot t).replayFloor = slot.replayFloor ∧
        (replayMark slot t).replayLastSequence = slot.replayLastSequence ∧
        (replayMark slot t).replayWindow = slot.replayWindow ∧
        (replayMark slot t).replayInitialized = slot.replayInitialized := by
      unfold replayMark
      dsimp only
      split_ifs <;> exact ⟨rfl, rfl, rfl, rfl, rfl⟩
    obtain ⟨hdec', hfloor', hlast', hwin', hinit'⟩ := hframe
    rw [List.foldl_cons, markAll_cons, ← ring_replayMark]
    exact ⟨hring, hdec.trans hdec', hfloor.trans hfloor', hlast.trans hlast',
      hwin.trans hwin', hinit.trans hinit'⟩

/-! ## The validation loop -/

variable {floor window : ℕ} {slot : Slot}

variable {last final : ℕ}

/-- One round of the loop. -/
theorem validateBatch_cons_ok {earlier rest : List ℕ} {t : ℕ} :
    validateBatch slot floor window earlier last (t :: rest) = .ok final ↔
      (t ≠ 0 ∧ floor < t ∧ t ∉ earlier ∧
        (t ≤ last → last < t + window ∧ last < t + replayMax ∧ replaySeen slot t = false)) ∧
      validateBatch slot floor window (earlier ++ [t]) (max last t) rest = .ok final := by
  rw [validateBatch]
  split_ifs with hfloor hearlier hlast
  · simp only [false_iff]
    rintro ⟨⟨hz, hf, -, -⟩, -⟩
    omega
  · simp [hearlier]
  · rw [max_eq_right (le_of_lt hlast)]
    constructor
    · intro h
      exact ⟨⟨by omega, by omega, hearlier, by omega⟩, h⟩
    · exact fun h => h.2
  · have hle : t ≤ last := Nat.le_of_not_lt hlast
    rw [max_eq_left hle]
    dsimp only
    split_ifs with hdelta
    · simp only [false_iff]
      rintro ⟨⟨-, -, -, hin⟩, -⟩
      obtain ⟨hw, hm, hs⟩ := hin hle
      rcases hdelta with hd | hd | hd
      · omega
      · omega
      · rw [hs] at hd
        simp at hd
    · rw [not_or, not_or, Bool.not_eq_true] at hdelta
      constructor
      · intro h
        exact ⟨⟨by omega, by omega, hearlier, fun _ => ⟨by omega, by omega, hdelta.2.2⟩⟩, h⟩
      · exact fun h => h.2

/-- Everything a validated batch guarantees against the numbers `before` it that the
running last sequence covers. -/
structure Validated (floor window last : ℕ) (before ops : List ℕ) (final : ℕ) : Prop where
  above : ∀ t ∈ ops, floor < t
  final_eq : final = max last (highest ops)
  near : ∀ s ∈ before, ∀ t ∈ ops, s < t + window
  pairwise : ops.Pairwise (fun s t => s < t + window)

variable {ops : List ℕ}

theorem validated_of_ok {earlier before : List ℕ} (hw : 0 < window)
    (hbefore : ∀ s ∈ before, s ≤ last)
    (h : validateBatch slot floor window earlier last ops = .ok final) :
    Validated floor window last before ops final := by
  induction ops generalizing earlier before last with
  | nil =>
    injection h with h
    exact ⟨by simp, by simp [h], by simp, List.Pairwise.nil⟩
  | cons t rest ih =>
    obtain ⟨⟨hz, hfloor, -, hin⟩, hrest⟩ := validateBatch_cons_ok.mp h
    have hlive : last < t + window := by
      by_cases hle : t ≤ last
      · exact (hin hle).1
      · omega
    -- the rest is validated against `before` with `t` added
    have hcover : ∀ s ∈ before ++ [t], s ≤ max last t := by
      intro s hs
      rcases List.mem_append.mp hs with hs | hs
      · exact le_trans (hbefore s hs) (le_max_left _ _)
      · rw [List.mem_singleton.mp hs]
        exact le_max_right _ _
    obtain ⟨habove, hfinal, hnear, hpair⟩ := ih hcover hrest
    refine ⟨?_, ?_, ?_, ?_⟩
    · intro u hu
      rcases List.mem_cons.mp hu with rfl | hu
      · exact hfloor
      · exact habove u hu
    · rw [hfinal, max_assoc]
      rfl
    · intro s hs u hu
      rcases List.mem_cons.mp hu with rfl | hu
      · exact lt_of_le_of_lt (hbefore s hs) hlive
      · exact hnear s (List.mem_append_left _ hs) u hu
    · refine List.pairwise_cons.mpr ⟨?_, hpair⟩
      intro u hu
      exact hnear t (List.mem_append_right _ (List.mem_singleton_self t)) u hu

variable {accepted : List ℕ}

/-- The numbers of a validated batch are distinct, and new when every accepted number
that is still inside the window reads as seen. -/
theorem nodup_of_validateBatch {earlier : List ℕ}
    (hnd : (accepted ++ earlier).Nodup) (hlast : ∀ s ∈ accepted, s ≤ last)
    (hlive : ∀ s ∈ accepted, last < s + window → replaySeen slot s = true)
    (h : validateBatch slot floor window earlier last ops = .ok final) :
    (accepted ++ (earlier ++ ops)).Nodup := by
  induction ops generalizing earlier last with
  | nil => simpa using hnd
  | cons t rest ih =>
    obtain ⟨⟨-, -, hearlier, hin⟩, hrest⟩ := validateBatch_cons_ok.mp h
    have hnew : t ∉ accepted := by
      intro hmem
      obtain ⟨hwin, -, hunseen⟩ := hin (hlast t hmem)
      rw [hlive t hmem hwin] at hunseen
      simp at hunseen
    have hnd' : (accepted ++ (earlier ++ [t])).Nodup := by
      rw [← List.append_assoc]
      refine List.Nodup.append hnd (List.nodup_singleton t) ?_
      rw [List.disjoint_singleton, List.mem_append]
      rintro (hmem | hmem)
      · exact hnew hmem
      · exact hearlier hmem
    have := ih hnd' (fun s hs => le_trans (hlast s hs) (le_max_left _ _))
      (fun s hs hs' => hlive s hs (lt_of_le_of_lt (le_max_left _ _) hs')) hrest
    rwa [List.append_assoc, List.singleton_append] at this

/-! ## The slot tracks its history -/

/-- The slot, used with the effective window `w`, represents the history `accepted`:
it knows the highest number, and sees none that was not accepted. -/
structure Tracks (w : ℕ) (slot : Slot) (accepted : List ℕ) : Prop where
  decrypt : slot.decrypt = true
  window_eq : slot.replayInitialized = true → slot.replayWindow = w
  fresh : slot.replayInitialized = false → accepted = []
  last_eq : slot.replayLastSequence = highest accepted
  sound : ∀ s, replaySeen slot s = true → s ∈ accepted

/-- No number is lost from the window: what was accepted and is still inside it
reads as seen, and was accepted once. -/
structure Live (w : ℕ) (slot : Slot) (accepted : List ℕ) : Prop where
  seen : ∀ s ∈ accepted, highest accepted < s + w → replaySeen slot s = true
  nodup : accepted.Nodup

theorem replayWindow_bounds (window : ℕ) :
    0 < replayWindow window ∧ replayWindow window ≤ replayMax := by
  unfold replayWindow replayMax
  split_ifs <;> omega

theorem replaySeen_newSlot (generation s : ℕ) : replaySeen (newSlot generation) s = false := by
  simp [replaySeen, newSlot]

theorem tracks_newSlot (w generation : ℕ) : Tracks w (newSlot generation) [] where
  decrypt := rfl
  window_eq := by simp [newSlot]
  fresh := fun _ => rfl
  last_eq := rfl
  sound := by
    intro s hs
    rw [replaySeen_newSlot] at hs
    simp at hs

/-- What a commit works with, for a slot that tracks its history. -/
theorem Tracks.effective_eq (h : Tracks (replayWindow window) slot accepted) (floor : ℕ) :
    ∃ floor', floor' ≤ max slot.replayFloor floor ∧
      effective slot floor window
        = (floor', replayWindow window, max (highest accepted) floor') := by
  unfold effective
  cases hinit : slot.replayInitialized with
  | false =>
    refine ⟨floor, le_max_right _ _, ?_⟩
    simp [h.fresh hinit]
  | true =>
    refine ⟨max slot.replayFloor floor, le_rfl, ?_⟩
    have hwin := h.window_eq hinit
    have hfloor : (if slot.replayFloor > floor then slot.replayFloor else floor)
        = max slot.replayFloor floor := by
      split_ifs <;> omega
    simp only [if_true, hwin, lt_irrefl, and_false, if_false, hfloor, h.last_eq]
    split_ifs with hlast
    · rw [max_eq_right (le_of_lt hlast)]
    · rw [max_eq_left (Nat.le_of_not_lt hlast)]

variable {slot' : Slot}

/-- **A commit.**  What it takes, and the slot it leaves. -/
theorem Tracks.commit_ok (h : Tracks (replayWindow window) slot accepted)
    (hok : replayCommitBatch slot ops floor window = .ok slot') :
    ∃ floor' final, floor' ≤ max slot.replayFloor floor ∧
      validateBatch slot floor' (replayWindow window) [] (max (highest accepted) floor') ops
        = .ok final ∧
      final = highest (accepted ++ ops) ∧
      slot'.ring = markAll slot.ring ops ∧
      slot'.replayFloor = floor' ∧
      Tracks (replayWindow window) slot' (accepted ++ ops) := by
  obtain ⟨floor', hfloor, heff⟩ := h.effective_eq floor
  unfold replayCommitBatch at hok
  split_ifs at hok with hargs
  rw [not_or, not_or] at hargs
  rw [heff] at hok
  dsimp only at hok
  split at hok
  · simp at hok
  · rename_i final hvalid
    injection hok with hslot
    obtain ⟨hring, hdec, hfl, hlast, hwin, hinit⟩ := foldl_replayMark
      { slot with
        replayFloor := floor', replayLastSequence := final,
        replayWindow := replayWindow window, replayInitialized := true } ops
    rw [hslot] at hring hdec hfl hlast hwin hinit
    have hv : Validated floor' (replayWindow window) (max (highest accepted) floor')
        accepted ops final :=
      validated_of_ok (replayWindow_bounds window).1
        (fun s hs => le_trans (le_highest hs) (le_max_left _ _)) hvalid
    -- the first number of the batch is above the floor, so the floor drops out
    have hfinal : final = highest (accepted ++ ops) := by
      obtain ⟨t, ht⟩ := List.exists_mem_of_ne_nil ops
        (fun hnil => hargs.1 (by rw [hnil]; rfl))
      have habove := hv.above t ht
      have htop := le_highest ht
      rw [hv.final_eq, highest_append]
      omega
    refine ⟨floor', final, hfloor, hvalid, hfinal, hring, hfl, ?_⟩
    refine ⟨hdec.trans h.decrypt, fun _ => hwin, ?_, hlast.trans hfinal, ?_⟩
    · intro hfalse
      rw [hinit] at hfalse
      simp at hfalse
    · intro s hs
      rw [replaySeen_eq, hring] at hs
      rcases seen_of_seen_markAll hs with hmem | hold
      · exact List.mem_append_right _ hmem
      · exact List.mem_append_left _ (h.sound s (by rw [replaySeen_eq]; exact hold))

/-- A commit keeps every live number, when the ring reaches over the window. -/
theorem Live.commit_ok (hw : replayWindow window ≤ reach 1024)
    (ht : Tracks (replayWindow window) slot accepted)
    (hl : Live (replayWindow window) slot accepted)
    (hok : replayCommitBatch slot ops floor window = .ok slot') :
    Live (replayWindow window) slot' (accepted ++ ops) := by
  obtain ⟨floor', final, -, hvalid, hfinal, hring, -, -⟩ := ht.commit_ok hok
  have hlast : ∀ s ∈ accepted, s ≤ max (highest accepted) floor' :=
    fun s hs => le_trans (le_highest hs) (le_max_left _ _)
  have hv := validated_of_ok (replayWindow_bounds window).1 hlast hvalid
  constructor
  · rw [← hfinal]
    simp only [replaySeen_eq, hring]
    apply seen_markAll_of_near hw
    · intro s hs hlive
      rw [← replaySeen_eq]
      apply hl.seen s hs
      have : highest accepted ≤ final := by
        rw [hfinal, highest_append]
        exact le_max_left _ _
      omega
    · intro t hmem
      rw [hfinal, highest_append]
      exact le_trans (le_highest hmem) (le_max_right _ _)
    · exact hv.near
    · exact hv.pairwise
  · have := nodup_of_validateBatch (by simpa using hl.nodup) hlast
      (fun s hs hs' => hl.seen s hs (lt_of_le_of_lt (le_max_left _ _) hs')) hvalid
    simpa using this

/-- A number committed alone is accepted when it is above the floor and, unless it
is a new highest number, inside the window and not seen. -/
theorem Tracks.commit_singleton (h : Tracks (replayWindow window) slot accepted) (s floor : ℕ)
    (hzero : s ≠ 0) (hfloor : max slot.replayFloor floor < s)
    (hin : s ≤ highest accepted →
      highest accepted < s + replayWindow window ∧ replaySeen slot s = false) :
    ∃ slot', replayCommitBatch slot [s] floor window = .ok slot' := by
  obtain ⟨floor', hle, heff⟩ := h.effective_eq floor
  have hmax := (replayWindow_bounds window).2
  have hvalid : ∃ final, validateBatch slot floor' (replayWindow window) []
      (max (highest accepted) floor') [s] = .ok final := by
    refine ⟨_, validateBatch_cons_ok.mpr ⟨⟨hzero, by omega, List.not_mem_nil, ?_⟩, rfl⟩⟩
    intro hs
    obtain ⟨hwin, hunseen⟩ := hin (by omega)
    exact ⟨by omega, by omega, hunseen⟩
  obtain ⟨final, hvalid⟩ := hvalid
  unfold replayCommitBatch
  rw [if_neg (by simp [h.decrypt, replayBatchMax]), heff]
  dsimp only
  rw [hvalid]
  exact ⟨_, rfl⟩

/-- Opening a batch of records touches the replay state by a commit of their numbers
only, after the records were authenticated. -/
theorem openReplayBatchChecked_ok {ready : Bool} {openBatch : List OpenOp → Except Errno Unit}
    {slot : Option Slot} {generation : ℕ} {ops : List OpenOp}
    (h : openReplayBatchChecked ready openBatch slot generation ops floor window = .ok slot') :
    ∃ found, slot = some found ∧ found.generation = generation ∧ openBatch ops = .ok () ∧
      replayCommitBatch found (ops.map OpenOp.sequence) floor window = .ok slot' := by
  unfold openReplayBatchChecked at h
  split_ifs at h
  cases slot with
  | none => simp at h
  | some found =>
    dsimp only at h
    split_ifs at h with hgen
    cases hopen : openBatch ops with
    | error err => simp [hopen] at h
    | ok _ =>
      rw [hopen] at h
      exact ⟨found, rfl, not_not.mp hgen, rfl, h⟩

/-! ## Runs of commits -/

/-- Commit the batches one after the other, each with the floor it is given; the
numbers of the batches that were accepted, and the slot at the end. -/
def runCommits (window : ℕ) : Slot → List (List ℕ × ℕ) → List ℕ × Slot
  | slot, [] => ([], slot)
  | slot, (ops, floor) :: rest =>
    match replayCommitBatch slot ops floor window with
    | .error _ => runCommits window slot rest
    | .ok slot' =>
      let (accepted, final) := runCommits window slot' rest
      (ops ++ accepted, final)

/-- The promise of a window setting, over every run from a fresh slot: no number is
accepted twice, and a number committed alone that is non-zero, above the floor, was
never accepted and is above the highest accepted number or inside the window below
it, is accepted. -/
def ReplaySafe (window : ℕ) : Prop :=
  ∀ (generation : ℕ) (calls : List (List ℕ × ℕ)),
    let accepted := (runCommits window (newSlot generation) calls).1
    let slot := (runCommits window (newSlot generation) calls).2
    accepted.Nodup ∧
      ∀ s floor, s ≠ 0 → s ∉ accepted → max slot.replayFloor floor < s →
        (highest accepted < s ∨ highest accepted - s < replayWindow window) →
        ∃ slot', replayCommitBatch slot [s] floor window = .ok slot'

theorem tracks_runCommits (window : ℕ) (calls : List (List ℕ × ℕ))
    (h : Tracks (replayWindow window) slot accepted) :
    Tracks (replayWindow window) (runCommits window slot calls).2
      (accepted ++ (runCommits window slot calls).1) := by
  induction calls generalizing slot accepted with
  | nil => simpa [runCommits] using h
  | cons call rest ih =>
    obtain ⟨ops, floor⟩ := call
    unfold runCommits
    cases hok : replayCommitBatch slot ops floor window with
    | error err => exact ih h
    | ok slot' =>
      obtain ⟨_, _, -, -, -, -, -, h'⟩ := h.commit_ok hok
      simpa [List.append_assoc] using ih h'

theorem live_runCommits (hw : replayWindow window ≤ reach 1024) (calls : List (List ℕ × ℕ))
    (ht : Tracks (replayWindow window) slot accepted)
    (hl : Live (replayWindow window) slot accepted) :
    Live (replayWindow window) (runCommits window slot calls).2
      (accepted ++ (runCommits window slot calls).1) := by
  induction calls generalizing slot accepted with
  | nil => simpa [runCommits] using hl
  | cons call rest ih =>
    obtain ⟨ops, floor⟩ := call
    unfold runCommits
    cases hok : replayCommitBatch slot ops floor window with
    | error err => exact ih ht hl
    | ok slot' =>
      obtain ⟨_, _, -, -, -, -, -, ht'⟩ := ht.commit_ok hok
      simpa [List.append_assoc] using ih ht' (hl.commit_ok hw ht hok)

/-- The run that a wider window lets through: 63 is the last number of block 0, and
65536 the first of block 1024, which has the same slot. -/
def evictingCalls : List (List ℕ × ℕ) := [([63], 0), ([65536], 0), ([63], 0)]

/-- With an effective window above 65473, 63 is accepted a second time. -/
theorem runCommits_evictingCalls (generation : ℕ) (hw : 65473 < replayWindow window) :
    (runCommits window (newSlot generation) evictingCalls).1 = [63, 65536, 63] := by
  have h0 := tracks_newSlot (replayWindow window) generation
  obtain ⟨slot₁, hok₁⟩ := h0.commit_singleton 63 0 (by decide)
    (by simp [newSlot]) (by simp)
  obtain ⟨floor₁, _, hf₁, -, -, hring₁, hfloor₁, h1⟩ := h0.commit_ok hok₁
  rw [newSlot] at hf₁
  dsimp only at hf₁
  obtain ⟨slot₂, hok₂⟩ := h1.commit_singleton 65536 0 (by decide)
    (by omega) (by simp [highest])
  obtain ⟨floor₂, _, hf₂, -, -, hring₂, hfloor₂, h2⟩ := h1.commit_ok hok₂
  have hunseen : replaySeen slot₂ 63 = false := by
    rw [replaySeen_eq, hring₂, hring₁, markAll_cons, markAll_nil, seen_mark, if_pos (by decide)]
    simp
  obtain ⟨slot₃, hok₃⟩ := h2.commit_singleton 63 0 (by decide)
    (by omega) (fun _ => ⟨by simp [highest]; omega, hunseen⟩)
  simp [evictingCalls, runCommits, hok₁, hok₂, hok₃]

/-- **Exactly the windows the ring can hold are safe.**  A window setting keeps its
promise on every run from a fresh slot iff the effective window is at most
`1023 * 64 + 1` numbers. -/
theorem replaySafe_iff (window : ℕ) : ReplaySafe window ↔ replayWindow window ≤ 65473 := by
  constructor
  · intro hsafe
    by_contra hw
    have hnodup := (hsafe 1 evictingCalls).1
    rw [runCommits_evictingCalls 1 (Nat.lt_of_not_le hw)] at hnodup
    simp at hnodup
  · intro hw generation calls
    have htracks := tracks_runCommits window calls
      (tracks_newSlot (replayWindow window) generation)
    have hlive := live_runCommits hw calls (tracks_newSlot (replayWindow window) generation)
      ⟨by simp, List.nodup_nil⟩
    rw [List.nil_append] at htracks hlive
    refine ⟨hlive.nodup, ?_⟩
    intro s floor hzero hnew hfloor hin
    apply htracks.commit_singleton s floor hzero hfloor
    intro hle
    refine ⟨by omega, ?_⟩
    by_contra hseen
    rw [Bool.not_eq_false] at hseen
    exact hnew (htracks.sound s hseen)

/-- The window the TIX-TCP transport asks for, whatever it is configured with, lets
one packet be replayed. -/
theorem tixTCP_window_accepts_replay :
    (runCommits (tixTCPReplayWindowForKernelCrypto 64) (newSlot 1)
      [([63], 0), ([65536], 0), ([63], 0)]).1 = [63, 65536, 63] := by
  decide

end KernelReplay
