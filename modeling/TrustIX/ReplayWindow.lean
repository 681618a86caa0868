/-
# The userspace replay window (`internal/transport/secure/secure.go`)

`replayWindow` keeps the numbers seen below the highest one in a circular bitmap
whose head moves backwards.  The model follows the source function by function;
the uint64 quantities are natural numbers, since every sum and difference the
code forms stays inside `0 .. 2^64 - 1` (differences are guarded by a
comparison, sums are bounded by the window size).

The bitmap layer is `WordBitmap`; the meaning of the whole is `SlidingWindow`:
`Tracks` ties the physical bits to the accepted history, `simulates_accept` says
that one call decides as the history dictates and keeps the tie, and
`replayWindow_run_faithful` lifts it to every mixture of calls;
`replayWindow_whole_batches` adds the batches that go all or nothing.
-/
import TrustIX.WordBitmap
import TrustIX.SlidingWindow

open WordBitmap SlidingWindow

namespace ReplayWindow

/-! ## The data -/

def defaultReplayWindowSize : ℕ := 65536
def minReplayWindowSize : ℕ := 64
def maxReplayWindowSize : ℕ := 2 ^ 20

/-- `type replayWindow struct`, without its mutex: calls are serialised by it. -/
structure Window where
  highest : ℕ
  head : ℕ
  seen : List Word
  size : ℕ

def normalizeReplayWindowSize (size : ℕ) : ℕ :=
  if size = 0 then defaultReplayWindowSize
  else if size < minReplayWindowSize then minReplayWindowSize
  else if size > maxReplayWindowSize then maxReplayWindowSize
  else size

def replayWindowWords (size : ℕ) : ℕ := (size + 63) / 64

def newReplayWindow (size : ℕ) : Window :=
  let size := normalizeReplayWindowSize size
  { highest := 0
    head := 0
    seen := List.replicate (replayWindowWords size) 0#64
    size := size }

/-! ## Bits of the circular bitmap -/

def replayWindowPhysicalBit (head delta size : ℕ) : ℕ :=
  let bit := head + delta
  if bit ≥ size then bit - size else bit

def replayWindowBit (seen : List Word) (head size delta : ℕ) : Bool :=
  if delta ≥ size then false
  else
    let bit := replayWindowPhysicalBit head delta size
    let word := bit / 64
    if word ≥ seen.length then false
    else (seen.getD word 0#64 &&& (1#64 <<< (bit % 64))) != 0#64

def setReplayWindowBit (seen : List Word) (head size delta : ℕ) : List Word :=
  if delta ≥ size then seen
  else
    let bit := replayWindowPhysicalBit head delta size
    let word := bit / 64
    if word ≥ seen.length then seen
    else seen.modify word (· ||| (1#64 <<< (bit % 64)))

def maskReplayWindowTail (seen : List Word) (size : ℕ) : List Word :=
  if seen.length = 0 then seen
  else
    let remainder := size % 64
    if remainder = 0 then seen
    else seen.modify (seen.length - 1) (· &&& lowMask remainder)

/-! ## Clearing and advancing -/

def clearReplayWindowLinearBits (seen : List Word) (start count : ℕ) : List Word :=
  if count = 0 then seen
  else
    let stop := start + count
    let firstWord := start / 64
    let lastWord := (stop - 1) / 64
    let startBit := start % 64
    if firstWord = lastWord then
      let width := count
      let mask := BitVec.allOnes 64 <<< startBit
      let mask := if width < 64 then mask &&& lowMask (startBit + width) else mask
      seen.modify firstWord (· &&& ~~~mask)
    else
      -- the first word keeps its bits below `startBit`, then whole words go
      let (seen, firstWord) :=
        if startBit ≠ 0 then
          (seen.modify firstWord (· &&& lowMask startBit), firstWord + 1)
        else (seen, firstWord)
      let endWord := stop / 64
      let seen := zeroWords seen firstWord (endWord - firstWord)
      let endBit := stop % 64
      if endBit ≠ 0 then seen.modify endWord (· &&& ~~~(lowMask endBit)) else seen

def clearReplayWindowCircularBits (seen : List Word) (start count size : ℕ) : List Word :=
  if count = 0 ∨ size = 0 then seen
  else if count ≥ size then List.replicate seen.length 0#64
  else
    let start := start % size
    let first := min count (size - start)
    let seen := clearReplayWindowLinearBits seen start first
    clearReplayWindowLinearBits seen 0 (count - first)

/-- Returns the bitmap and the new head. -/
def advanceReplayWindowSeen (seen : List Word) (head shift size : ℕ) : List Word × ℕ :=
  if shift = 0 ∨ size = 0 then (seen, head)
  else if shift ≥ size then (List.replicate seen.length 0#64, 0)
  else
    let head := if head ≥ size then head % size else head
    let head := if shift > head then head + (size - shift) else head - shift
    (clearReplayWindowCircularBits seen head shift size, head)

/-! ## The calls -/

def ensureLocked (window : Window) : Window :=
  let size := normalizeReplayWindowSize window.size
  let words := replayWindowWords size
  if window.seen.length ≠ words then
    { window with size := size, seen := List.replicate words 0#64, head := 0 }
  else
    { window with
      size := size
      head := if window.head ≥ size then window.head % size else window.head
      seen := maskReplayWindowTail window.seen size }

/-- The verdict and the updated window; `size` is left alone. -/
def replayWindowAcceptLocked (window : Window) (seq : ℕ) : Bool × Window :=
  if seq = 0 then (false, window)
  else if seq > window.highest then
    let (seen, head) :=
      advanceReplayWindowSeen window.seen window.head (seq - window.highest) window.size
    (true, { window with
      highest := seq
      head := head
      seen := setReplayWindowBit seen head window.size 0 })
  else
    let delta := window.highest - seq
    if delta ≥ window.size ∨ replayWindowBit window.seen window.head window.size delta then
      (false, window)
    else
      (true, { window with
        seen := setReplayWindowBit window.seen window.head window.size delta })

def accept (window : Window) (seq : ℕ) : Bool × Window :=
  if seq = 0 then (false, window)
  else replayWindowAcceptLocked (ensureLocked window) seq

/-- All or nothing: the loop works on a copy that is written back at its end. -/
def acceptBatch (window : Window) (seqs : List ℕ) : Bool × Window :=
  if seqs = [] then (true, window)
  else
    let window := ensureLocked window
    let (results, next) := runTrace replayWindowAcceptLocked window seqs
    if results.all (·.2) then (true, next) else (false, window)

/-- The buffer of results: a fresh one, or the caller's cut to length and cleared. -/
def resultBuffer (seqs : List ℕ) (dst : List Bool) : List Bool :=
  if dst.length < seqs.length then List.replicate seqs.length false
  else (dst.take seqs.length).map (fun _ => false)

/-- One verdict per number.  `dst` is the caller's buffer up to its capacity. -/
def acceptBatchResults (window : Window) (seqs : List ℕ) (dst : List Bool) :
    List Bool × Window :=
  let dst := resultBuffer seqs dst
  if seqs = [] then (dst, window)
  else
    let (results, next) := runTrace replayWindowAcceptLocked (ensureLocked window) seqs
    (List.zipWith (fun kept p => p.2 || kept) dst results, next)

/-! ## What each helper does to the bits -/

theorem normalizeReplayWindowSize_bounds (size : ℕ) :
    64 ≤ normalizeReplayWindowSize size ∧ normalizeReplayWindowSize size ≤ 2 ^ 20 := by
  unfold normalizeReplayWindowSize defaultReplayWindowSize minReplayWindowSize
    maxReplayWindowSize
  split_ifs <;> omega

theorem normalizeReplayWindowSize_pos (size : ℕ) : 0 < normalizeReplayWindowSize size := by
  have := (normalizeReplayWindowSize_bounds size).1
  omega

/-- A normalised size is left alone, so `ensureLocked` never resizes a window. -/
theorem normalizeReplayWindowSize_idem (size : ℕ) :
    normalizeReplayWindowSize (normalizeReplayWindowSize size)
      = normalizeReplayWindowSize size := by
  obtain ⟨hmin, hmax⟩ := normalizeReplayWindowSize_bounds size
  generalize normalizeReplayWindowSize size = n at hmin hmax ⊢
  unfold normalizeReplayWindowSize minReplayWindowSize maxReplayWindowSize
  rw [if_neg (by omega), if_neg (by omega), if_neg (by omega)]

variable {head size : ℕ}

/-- The physical position never leaves the window. -/
theorem physicalBit_lt {delta : ℕ} (hh : head < size) (hd : delta < size) :
    replayWindowPhysicalBit head delta size < size := by
  unfold replayWindowPhysicalBit
  dsimp only
  split_ifs <;> omega

/-- Distinct offsets from one head are distinct positions. -/
theorem physicalBit_inj {d e : ℕ} (hd : d < size) (he : e < size)
    (h : replayWindowPhysicalBit head d size = replayWindowPhysicalBit head e size) : d = e := by
  unfold replayWindowPhysicalBit at h
  dsimp only at h
  split_ifs at h <;> omega

/-- A position inside the window is inside the word list. -/
theorem word_lt_words {i : ℕ} (h : i < size) : i / 64 < replayWindowWords size := by
  unfold replayWindowWords
  omega

variable {seen : List Word}

theorem replayWindowBit_eq {delta : ℕ} (hd : delta < size) :
    replayWindowBit seen head size delta
      = bit seen (replayWindowPhysicalBit head delta size) := by
  unfold replayWindowBit
  rw [if_neg (by omega)]
  dsimp only
  split_ifs with hlen
  · exact (bit_of_length_le _ _ hlen).symm
  · rw [and_one_shiftLeft_ne_zero _ _ (Nat.mod_lt _ (by decide)), bit]

theorem setReplayWindowBit_eq {delta : ℕ} (hlen : seen.length = replayWindowWords size)
    (hh : head < size) (hd : delta < size) :
    setReplayWindowBit seen head size delta
      = setBit seen (replayWindowPhysicalBit head delta size) := by
  have hword := word_lt_words (physicalBit_lt hh hd)
  unfold setReplayWindowBit
  rw [if_neg (by omega)]
  rw [if_neg (by omega), setBit]

/-- Masking the tail changes no bit of the window. -/
theorem bit_maskReplayWindowTail {i : ℕ} (hlen : seen.length = replayWindowWords size)
    (hi : i < size) : bit (maskReplayWindowTail seen size) i = bit seen i := by
  unfold maskReplayWindowTail
  dsimp only
  split_ifs with hnil hrem
  · rfl
  · rfl
  · rw [bit_modify_and, getLsbD_lowMask _ _ (by omega)]
    have hkeep : i / 64 ≠ seen.length - 1 ∨ i % 64 < size % 64 := by
      rw [hlen]
      unfold replayWindowWords
      omega
    rcases hkeep with h | h <;> simp [h]

theorem length_maskReplayWindowTail (seen : List Word) (size : ℕ) :
    (maskReplayWindowTail seen size).length = seen.length := by
  unfold maskReplayWindowTail
  dsimp only
  split_ifs <;> simp

/-! ### Clearing a stretch of positions -/

theorem length_clearReplayWindowLinearBits (seen : List Word) (start count : ℕ) :
    (clearReplayWindowLinearBits seen start count).length = seen.length := by
  unfold clearReplayWindowLinearBits
  dsimp only
  split_ifs <;> simp

/-- The mask of the one-word case covers exactly the positions to clear. -/
theorem getLsbD_oneWordMask (startBit width j : ℕ) (hw : startBit + width ≤ 64)
    (hpos : 0 < width) (hj : j < 64) :
    ((if width < 64 then BitVec.allOnes 64 <<< startBit &&& lowMask (startBit + width)
      else BitVec.allOnes 64 <<< startBit) : Word).getLsbD j
      = decide (startBit ≤ j ∧ j < startBit + width) := by
  split_ifs with hwidth
  · rw [BitVec.getLsbD_and, getLsbD_lowMask _ _ hw, BitVec.getLsbD_shiftLeft,
      BitVec.getLsbD_allOnes]
    simp only [← decide_not, ← Bool.decide_and]
    apply decide_eq_decide.mpr
    omega
  · rw [BitVec.getLsbD_shiftLeft, BitVec.getLsbD_allOnes]
    have hstart : startBit = 0 := by omega
    have hwide : width = 64 := by omega
    subst hstart hwide
    simp [hj]

/-- **Clearing is exact**: every position of the stretch is cleared and no other
one changes, for every alignment of its ends. -/
theorem bit_clearReplayWindowLinearBits (seen : List Word) (start count i : ℕ) :
    bit (clearReplayWindowLinearBits seen start count) i
      = (bit seen i && decide (i < start ∨ start + count ≤ i)) := by
  unfold clearReplayWindowLinearBits
  by_cases hcount : count = 0
  · have : i < start ∨ start + count ≤ i := by omega
    rw [if_pos hcount]
    simp [this]
  rw [if_neg hcount]
  have hmod : i % 64 < 64 := Nat.mod_lt _ (by decide)
  by_cases hone : start / 64 = (start + count - 1) / 64
  · rw [if_pos hone, bit_modify_and, BitVec.getLsbD_not,
      getLsbD_oneWordMask _ _ _ (by omega) (by omega) hmod]
    congr 1
    by_cases hword : i / 64 = start / 64
    · simp only [hword, ne_eq, not_true_eq_false, decide_false, Bool.false_or, hmod,
        decide_true, Bool.true_and, ← decide_not]
      apply decide_eq_decide.mpr
      omega
    · have : i < start ∨ start + count ≤ i := by omega
      simp [hword, this]
  · rw [if_neg hone]
    -- the loop and the last partial word, after the first word is dealt with
    have htail : ∀ (words : List Word) (first : ℕ), first ≤ (start + count) / 64 →
        bit (if (start + count) % 64 ≠ 0 then
              (zeroWords words first ((start + count) / 64 - first)).modify
                ((start + count) / 64) (· &&& ~~~(lowMask ((start + count) % 64)))
            else zeroWords words first ((start + count) / 64 - first)) i
          = (bit words i && decide (i / 64 < first ∨ start + count ≤ i)) := by
      intro words first hfirst
      split_ifs with hend
      · rw [bit_modify_and, bit_zeroWords, BitVec.getLsbD_not,
          getLsbD_lowMask _ _ (by omega), Bool.and_assoc]
        congr 1
        simp only [hmod, decide_true, Bool.true_and, ← decide_not, ← Bool.decide_or,
          ← Bool.decide_and]
        apply decide_eq_decide.mpr
        omega
      · rw [bit_zeroWords]
        congr 1
        apply decide_eq_decide.mpr
        omega
    by_cases hstart : start % 64 ≠ 0
    · rw [if_pos hstart]
      rw [htail _ _ (by omega), bit_modify_and, getLsbD_lowMask _ _ (by omega), Bool.and_assoc]
      congr 1
      rw [← Bool.decide_or, ← Bool.decide_and]
      apply decide_eq_decide.mpr
      omega
    · rw [if_neg hstart]
      rw [htail _ _ (by omega)]
      congr 1
      apply decide_eq_decide.mpr
      omega

theorem length_clearReplayWindowCircularBits (seen : List Word) (start count size : ℕ) :
    (clearReplayWindowCircularBits seen start count size).length = seen.length := by
  unfold clearReplayWindowCircularBits
  split_ifs <;> simp [length_clearReplayWindowLinearBits]

/-- Circular clearing, read at offsets from its start. -/
theorem bit_clearReplayWindowCircularBits {start count d : ℕ} (hs : start < size)
    (hc : count < size) (hd : d < size) :
    bit (clearReplayWindowCircularBits seen start count size) (replayWindowPhysicalBit start d size)
      = (bit seen (replayWindowPhysicalBit start d size) && decide (count ≤ d)) := by
  unfold clearReplayWindowCircularBits
  by_cases hcount : count = 0
  · simp [hcount]
  rw [if_neg (by omega), if_neg (by omega)]
  rw [Nat.mod_eq_of_lt hs, bit_clearReplayWindowLinearBits, bit_clearReplayWindowLinearBits,
    Bool.and_assoc, ← Bool.decide_and]
  congr 1
  apply decide_eq_decide.mpr
  unfold replayWindowPhysicalBit
  dsimp only
  split_ifs <;> omega

/-! ### Advancing the head -/

theorem length_advanceReplayWindowSeen (seen : List Word) (head shift size : ℕ) :
    (advanceReplayWindowSeen seen head shift size).1.length = seen.length := by
  unfold advanceReplayWindowSeen
  split_ifs <;> simp [length_clearReplayWindowCircularBits]

theorem advanceReplayWindowSeen_head_lt (seen : List Word) {shift : ℕ}
    (hh : head < size) : (advanceReplayWindowSeen seen head shift size).2 < size := by
  unfold advanceReplayWindowSeen
  dsimp only
  split_ifs <;> simp only <;> omega

/-- After advancing by `shift`, offset `d` holds what offset `d - shift` held, and
the offsets below `shift` are clear. -/
theorem bit_advanceReplayWindowSeen {shift d : ℕ} (hh : head < size) (hshift : 0 < shift)
    (hd : d < size) :
    bit (advanceReplayWindowSeen seen head shift size).1
        (replayWindowPhysicalBit (advanceReplayWindowSeen seen head shift size).2 d size)
      = (decide (shift ≤ d) && bit seen (replayWindowPhysicalBit head (d - shift) size)) := by
  unfold advanceReplayWindowSeen
  rw [if_neg (by omega)]
  by_cases hbig : shift ≥ size
  · have : ¬ shift ≤ d := by omega
    rw [if_pos hbig, bit_replicate_zero]
    simp [this]
  · rw [if_neg hbig]
    rw [if_neg (Nat.not_le.mpr hh)]
    have hhead : (if shift > head then head + (size - shift) else head - shift) < size := by
      split_ifs <;> omega
    rw [bit_clearReplayWindowCircularBits hhead (by omega) hd, Bool.and_comm]
    by_cases hle : shift ≤ d
    · have hsame : replayWindowPhysicalBit
            (if shift > head then head + (size - shift) else head - shift) d size
          = replayWindowPhysicalBit head (d - shift) size := by
        unfold replayWindowPhysicalBit
        dsimp only
        split_ifs <;> omega
      rw [hsame]
    · simp [hle]

/-! ## The window tracks its history -/

/-- The window of normalised size `n` represents the history `accepted`: offset
`delta` below the highest number is marked iff the number there was accepted. -/
structure Tracks (n : ℕ) (window : Window) (accepted : List ℕ) : Prop where
  size_eq : window.size = n
  length_seen : window.seen.length = replayWindowWords n
  head_lt : window.head < n
  highest_eq : window.highest = highest accepted
  zero_notMem : 0 ∉ accepted
  bits : ∀ delta, delta < n →
    (bit window.seen (replayWindowPhysicalBit window.head delta n) = true
      ↔ ∃ s ∈ accepted, s + delta = window.highest)

theorem tracks_newReplayWindow (size : ℕ) :
    Tracks (normalizeReplayWindowSize size) (newReplayWindow size) [] where
  size_eq := rfl
  length_seen := by simp [newReplayWindow]
  head_lt := normalizeReplayWindowSize_pos size
  highest_eq := rfl
  zero_notMem := List.not_mem_nil
  bits := by
    intro delta _
    simp [newReplayWindow, bit_replicate_zero]

variable {window : Window} {accepted : List ℕ} {m : ℕ}

/-- `ensureLocked` leaves a tracking window tracking. -/
theorem Tracks.ensureLocked (h : Tracks (normalizeReplayWindowSize m) window accepted) :
    Tracks (normalizeReplayWindowSize m) (ensureLocked window) accepted := by
  obtain ⟨hsize, hlen, hhead, hhigh, hzero, hbits⟩ := h
  have hnorm : normalizeReplayWindowSize window.size = normalizeReplayWindowSize m := by
    rw [hsize, normalizeReplayWindowSize_idem]
  unfold ReplayWindow.ensureLocked
  dsimp only
  rw [hnorm, if_neg (by simpa using hlen), if_neg (Nat.not_le.mpr hhead)]
  refine ⟨rfl, ?_, hhead, hhigh, hzero, ?_⟩
  · rw [length_maskReplayWindowTail, hlen]
  · intro delta hdelta
    rw [bit_maskReplayWindowTail hlen (physicalBit_lt hhead hdelta)]
    exact hbits delta hdelta

/-- A number above the highest one: the window advances and marks offset 0. -/
theorem Tracks.accept_above {n : ℕ} (h : Tracks n window accepted) {seq : ℕ}
    (hseq : window.highest < seq) :
    Tracks n (replayWindowAcceptLocked window seq).2 (accepted ++ [seq]) := by
  obtain ⟨hsize, hlen, hhead, hhigh, hzero, hbits⟩ := h
  subst hsize
  unfold replayWindowAcceptLocked
  rw [if_neg (by omega), if_pos hseq]
  dsimp only
  have hpos : 0 < window.size := by omega
  have hhead' := @advanceReplayWindowSeen_head_lt _ _ window.seen (seq - window.highest) hhead
  have hlen' := (length_advanceReplayWindowSeen window.seen window.head (seq - window.highest)
    window.size).trans hlen
  have hbit := fun delta => @bit_advanceReplayWindowSeen _ _ window.seen (seq - window.highest) delta
    hhead (by omega)
  generalize advanceReplayWindowSeen _ _ _ _ = advanced at hhead' hlen' hbit ⊢
  refine ⟨rfl, ?_, hhead', ?_, ?_, ?_⟩
  · rw [setReplayWindowBit_eq hlen' hhead' hpos, length_setBit, hlen']
  · rw [highest_append_singleton, ← hhigh, max_eq_right (le_of_lt hseq)]
  · rw [List.mem_append, List.mem_singleton]
    rintro (h0 | h0)
    · exact hzero h0
    · omega
  · intro delta hdelta
    dsimp only
    rw [setReplayWindowBit_eq hlen' hhead' hpos,
      bit_setBit _ _ _ (by rw [hlen']; exact word_lt_words (physicalBit_lt hhead' hpos)),
      hbit delta hdelta]
    by_cases hd0 : delta = 0
    · subst hd0
      simp only [decide_true, Bool.true_or, true_iff]
      exact ⟨seq, by simp, rfl⟩
    · have hphys : replayWindowPhysicalBit advanced.2 delta window.size ≠
          replayWindowPhysicalBit advanced.2 0 window.size :=
        fun he => hd0 (physicalBit_inj hdelta hpos he)
      rw [decide_eq_false hphys, Bool.false_or, Bool.and_eq_true, decide_eq_true_eq,
        hbits _ (by omega)]
      constructor
      · rintro ⟨hle, s, hs, hsum⟩
        exact ⟨s, List.mem_append_left _ hs, by omega⟩
      · rintro ⟨s, hs, hsum⟩
        rcases List.mem_append.mp hs with hs | hs
        · have hsle : s ≤ window.highest := by
            rw [hhigh]
            exact le_highest hs
          exact ⟨by omega, s, hs, by omega⟩
        · rw [List.mem_singleton] at hs
          omega

/-- A fresh number inside the window: only its own offset is marked. -/
theorem Tracks.accept_inside {n : ℕ} (h : Tracks n window accepted) {seq : ℕ} (hpos : seq ≠ 0)
    (hle : seq ≤ window.highest) (hin : window.highest - seq < n) :
    Tracks n { window with
        seen := setReplayWindowBit window.seen window.head window.size
          (window.highest - seq) } (accepted ++ [seq]) := by
  obtain ⟨hsize, hlen, hhead, hhigh, hzero, hbits⟩ := h
  subst hsize
  refine ⟨rfl, ?_, hhead, ?_, ?_, ?_⟩
  · show (setReplayWindowBit _ _ _ _).length = _
    rw [setReplayWindowBit_eq hlen hhead hin, length_setBit, hlen]
  · show window.highest = _
    rw [highest_append_singleton, ← hhigh, max_eq_left hle]
  · rw [List.mem_append, List.mem_singleton]
    rintro (h0 | h0)
    · exact hzero h0
    · exact hpos h0.symm
  · intro delta hdelta
    show bit (setReplayWindowBit _ _ _ _) _ = true ↔ _
    rw [setReplayWindowBit_eq hlen hhead hin,
      bit_setBit _ _ _ (by rw [hlen]; exact word_lt_words (physicalBit_lt hhead hin)),
      Bool.or_eq_true, decide_eq_true_eq, hbits delta hdelta]
    constructor
    · rintro (heq | ⟨s, hs, hsum⟩)
      · have hd : delta = window.highest - seq := physicalBit_inj hdelta hin heq
        exact ⟨seq, by simp, by dsimp only; omega⟩
      · exact ⟨s, List.mem_append_left _ hs, hsum⟩
    · rintro ⟨s, hs, hsum⟩
      rcases List.mem_append.mp hs with hs | hs
      · exact Or.inr ⟨s, hs, hsum⟩
      · rw [List.mem_singleton] at hs
        have hd : delta = window.highest - seq := by
          dsimp only at hsum
          omega
        exact Or.inl (by rw [hd])

/-- **One step.**  The locked decision is the one the history dictates, and the
window keeps tracking the history. -/
theorem simulates_acceptLocked (n : ℕ) : Simulates replayWindowAcceptLocked n (Tracks n) := by
  intro window accepted seq h
  by_cases hzero : seq = 0
  · have hstep : replayWindowAcceptLocked window seq = (false, window) := by
      rw [replayWindowAcceptLocked, if_pos hzero]
    rw [hstep]
    refine ⟨⟨fun hf => absurd hf (by simp), fun ha => absurd hzero ha.1⟩, by simpa using h⟩
  by_cases habove : window.highest < seq
  · have hstep : (replayWindowAcceptLocked window seq).1 = true := by
      rw [replayWindowAcceptLocked, if_neg hzero, if_pos habove]
    rw [hstep]
    refine ⟨⟨fun _ => ⟨hzero, ?_, Or.inl (h.highest_eq ▸ habove)⟩, fun _ => rfl⟩, ?_⟩
    · intro hmem
      have := le_highest hmem
      rw [← h.highest_eq] at this
      omega
    · simpa using h.accept_above habove
  · have hle : seq ≤ window.highest := Nat.le_of_not_lt habove
    -- the membership test of the code is the membership in the history
    have hseen : ∀ hd : window.highest - seq < n,
        (replayWindowBit window.seen window.head window.size (window.highest - seq) = true
          ↔ seq ∈ accepted) := by
      intro hd
      rw [h.size_eq, replayWindowBit_eq hd, h.bits _ hd]
      constructor
      · rintro ⟨s, hs, hsum⟩
        have : s = seq := by omega
        rwa [← this]
      · intro hs
        exact ⟨seq, hs, by omega⟩
    by_cases hreject : window.highest - seq ≥ window.size ∨
        replayWindowBit window.seen window.head window.size (window.highest - seq) = true
    · have hstep : replayWindowAcceptLocked window seq = (false, window) := by
        rw [replayWindowAcceptLocked, if_neg hzero, if_neg habove]
        exact if_pos hreject
      rw [hstep]
      refine ⟨⟨fun hf => absurd hf (by simp), ?_⟩, by simpa using h⟩
      rintro ⟨-, hnew, hcase⟩
      rw [← h.highest_eq] at hcase
      have hd : window.highest - seq < n := by omega
      rcases hreject with hbig | hbit
      · rw [h.size_eq] at hbig
        omega
      · exact absurd ((hseen hd).mp hbit) hnew
    · have hd : window.highest - seq < n := by
        rw [← h.size_eq]
        omega
      have hstep : replayWindowAcceptLocked window seq
          = (true, { window with
              seen := setReplayWindowBit window.seen window.head window.size
                (window.highest - seq) }) := by
        rw [replayWindowAcceptLocked, if_neg hzero, if_neg habove]
        exact if_neg hreject
      rw [hstep]
      refine ⟨⟨fun _ => ⟨hzero, ?_, Or.inr (h.highest_eq ▸ hd)⟩, fun _ => rfl⟩, ?_⟩
      · exact fun hmem => hreject (Or.inr ((hseen hd).mpr hmem))
      · simpa using h.accept_inside hzero hle hd

/-- **One `Accept`** decides as the history dictates and keeps tracking it. -/
theorem Tracks.accept (h : Tracks (normalizeReplayWindowSize m) window accepted) (seq : ℕ) :
    ((ReplayWindow.accept window seq).1 = true ↔
        Admits (normalizeReplayWindowSize m) accepted seq) ∧
      Tracks (normalizeReplayWindowSize m) (ReplayWindow.accept window seq).2
        (accepted ++ acceptedOf [(seq, (ReplayWindow.accept window seq).1)]) := by
  unfold ReplayWindow.accept
  split_ifs with hzero
  · refine ⟨⟨fun hf => absurd hf (by simp), fun ha => absurd hzero ha.1⟩, ?_⟩
    simpa using h
  · exact simulates_acceptLocked _ _ _ _ h.ensureLocked

/-! ## Runs of calls -/

/-- A call of the window's public interface that gives a verdict per number. -/
inductive Call where
  | accept (seq : ℕ)
  | acceptBatchResults (seqs : List ℕ) (dst : List Bool)

/-- The numbers a call offers. -/
def Call.seqs : Call → List ℕ
  | .accept seq => [seq]
  | .acceptBatchResults seqs _ => seqs

/-- One call: each number offered with its verdict, and the window after it. -/
def Call.run (window : Window) : Call → List (ℕ × Bool) × Window
  | .accept seq =>
    let (ok, window) := ReplayWindow.accept window seq
    ([(seq, ok)], window)
  | .acceptBatchResults seqs dst =>
    let (results, window) := ReplayWindow.acceptBatchResults window seqs dst
    (seqs.zip results, window)

/-- A run of calls from a window, with the verdicts in the order given. -/
def runCalls (window : Window) : List Call → List (ℕ × Bool) × Window
  | [] => ([], window)
  | call :: rest =>
    let (verdicts, window) := call.run window
    let (later, window) := runCalls window rest
    (verdicts ++ later, window)

theorem resultBuffer_eq (seqs : List ℕ) (dst : List Bool) :
    resultBuffer seqs dst = List.replicate seqs.length false := by
  unfold resultBuffer
  split_ifs with h
  · rfl
  · rw [List.map_const', List.length_take, min_eq_left (by omega)]

/-- The cleared buffer adds nothing to the verdicts written over it. -/
theorem zipWith_replicate_false (results : List (ℕ × Bool)) :
    List.zipWith (fun kept (p : ℕ × Bool) => p.2 || kept)
        (List.replicate results.length false) results = results.map (·.2) := by
  induction results with
  | nil => rfl
  | cons p rest ih =>
    rw [List.length_cons, List.replicate_succ, List.zipWith_cons_cons, ih, List.map_cons,
      Bool.or_false]

/-- The verdicts of a batch call are those of the locked loop. -/
theorem acceptBatchResults_eq (window : Window) (seqs : List ℕ) (dst : List Bool)
    (hne : seqs ≠ []) :
    acceptBatchResults window seqs dst
      = ((runTrace replayWindowAcceptLocked (ensureLocked window) seqs).1.map (·.2),
          (runTrace replayWindowAcceptLocked (ensureLocked window) seqs).2) := by
  unfold acceptBatchResults
  dsimp only
  rw [if_neg hne, resultBuffer_eq,
    ← length_runTrace replayWindowAcceptLocked (ensureLocked window) seqs,
    zipWith_replicate_false]

/-- **One call.**  Every call extends a faithful trace to a faithful trace. -/
theorem faithful_call {before : List (ℕ × Bool)}
    (hb : Faithful (normalizeReplayWindowSize m) before)
    (ht : Tracks (normalizeReplayWindowSize m) window (acceptedOf before)) (call : Call) :
    Faithful (normalizeReplayWindowSize m) (before ++ (call.run window).1) ∧
      Tracks (normalizeReplayWindowSize m) (call.run window).2
        (acceptedOf (before ++ (call.run window).1)) := by
  have hsim := simulates_acceptLocked (normalizeReplayWindowSize m)
  cases call with
  | accept seq =>
    by_cases hzero : seq = 0
    · have hrun : Call.run window (.accept seq) = ([(seq, false)], window) := by
        simp [Call.run, ReplayWindow.accept, hzero]
      rw [hrun]
      refine ⟨hb.snoc ⟨fun hf => absurd hf (by simp), fun ha => absurd hzero ha.1⟩, ?_⟩
      rw [acceptedOf_append]
      simpa using ht
    · have hrun : Call.run window (.accept seq)
          = runTrace replayWindowAcceptLocked (ensureLocked window) [seq] := by
        simp [Call.run, ReplayWindow.accept, hzero, runTrace]
      rw [hrun]
      exact faithful_runTrace _ hsim _ _ hb ht.ensureLocked
  | acceptBatchResults seqs dst =>
    by_cases hnil : seqs = []
    · subst hnil
      simpa [Call.run, acceptBatchResults] using ⟨hb, ht⟩
    · have hrun : Call.run window (.acceptBatchResults seqs dst)
          = runTrace replayWindowAcceptLocked (ensureLocked window) seqs := by
        rw [Call.run, acceptBatchResults_eq _ _ _ hnil]
        refine Prod.ext ?_ rfl
        have hfst := map_fst_runTrace replayWindowAcceptLocked (ensureLocked window) seqs
        show seqs.zip ((runTrace _ _ seqs).1.map (·.2)) = _
        nth_rewrite 1 [← hfst]
        rw [List.zip_map', List.map_id']
      rw [hrun]
      exact faithful_runTrace _ hsim _ _ hb ht.ensureLocked

/-- **The run lemma**, from any tracked state. -/
theorem faithful_runCalls (calls : List Call) {before : List (ℕ × Bool)}
    (hb : Faithful (normalizeReplayWindowSize m) before)
    (ht : Tracks (normalizeReplayWindowSize m) window (acceptedOf before)) :
    Faithful (normalizeReplayWindowSize m) (before ++ (runCalls window calls).1) := by
  induction calls generalizing window before with
  | nil => simpa [runCalls] using hb
  | cons call rest ih =>
    obtain ⟨hb', ht'⟩ := faithful_call hb ht call
    have hrest := ih hb' ht'
    simpa [runCalls, List.append_assoc] using hrest

/-- The trace of a run offers exactly the numbers of its calls, in order. -/
theorem map_fst_runCalls (calls : List Call) (window : Window) :
    (runCalls window calls).1.map (·.1) = calls.flatMap Call.seqs := by
  induction calls generalizing window with
  | nil => rfl
  | cons call rest ih =>
    have hcall : ((call.run window).1.map (·.1)) = call.seqs := by
      cases call with
      | accept seq => rfl
      | acceptBatchResults seqs dst =>
        have hlen : seqs.length = (acceptBatchResults window seqs dst).1.length := by
          by_cases hnil : seqs = []
          · subst hnil
            simp [acceptBatchResults, resultBuffer_eq]
          · rw [acceptBatchResults_eq _ _ _ hnil, List.length_map, length_runTrace]
        exact List.map_fst_zip (le_of_eq hlen)
    simp [runCalls, hcall, ih]

/-- **Replay protection.**  In every run of `Accept` and `AcceptBatchResults` calls
on a fresh window of any size, a number is accepted at a step iff it is non-zero,
was not accepted before, and is above the highest accepted number or less than
the normalised size below it; and no number is accepted twice. -/
theorem replayWindow_run_faithful (size : ℕ) (calls : List Call) :
    let tr := (runCalls (newReplayWindow size) calls).1
    tr.map (·.1) = calls.flatMap Call.seqs ∧
      (∀ i, (h : i < tr.length) →
        (tr[i].2 = true ↔
          tr[i].1 ≠ 0 ∧ tr[i].1 ∉ acceptedOf (tr.take i) ∧
            (highest (acceptedOf (tr.take i)) < tr[i].1 ∨
              highest (acceptedOf (tr.take i)) - tr[i].1
                < normalizeReplayWindowSize size))) ∧
      (acceptedOf tr).Nodup := by
  have hfaithful := faithful_runCalls calls (faithful_nil _) (tracks_newReplayWindow size)
  exact ⟨map_fst_runCalls calls _, hfaithful, hfaithful.nodup_accepted⟩

/-! ## Batches that go all or nothing -/

/-- A call of the whole interface, `AcceptBatch` with it. -/
inductive Offer where
  | each (call : Call)
  | whole (seqs : List ℕ)

/-- One call: the numbers it decides with their verdicts, and the window after it.  A batch that is
refused decides none. -/
def Offer.run (window : Window) : Offer → List (ℕ × Bool) × Window
  | .each call => call.run window
  | .whole seqs =>
    let (ok, window) := acceptBatch window seqs
    (if ok then seqs.map (·, true) else [], window)

def runOffers (window : Window) : List Offer → List (ℕ × Bool) × Window
  | [] => ([], window)
  | offer :: rest =>
    let (verdicts, window) := offer.run window
    let (later, window) := runOffers window rest
    (verdicts ++ later, window)

/-- Each number is admitted after the history and the numbers before it. -/
def AdmitsAll (size : ℕ) (accepted : List ℕ) : List ℕ → Prop
  | [] => True
  | seq :: rest => Admits size accepted seq ∧ AdmitsAll size (accepted ++ [seq]) rest

/-- A tracking window accepts throughout iff the history admits all of it. -/
theorem all_runTrace_iff (h : Tracks (normalizeReplayWindowSize m) window accepted)
    (seqs : List ℕ) :
    (runTrace replayWindowAcceptLocked window seqs).1.all (·.2) = true ↔
      AdmitsAll (normalizeReplayWindowSize m) accepted seqs := by
  induction seqs generalizing window accepted with
  | nil => exact iff_of_true rfl trivial
  | cons seq rest ih =>
    obtain ⟨hverdict, htracks⟩ := simulates_acceptLocked _ _ _ seq h
    rw [runTrace, List.all_cons, Bool.and_eq_true, AdmitsAll, ← hverdict]
    refine and_congr_right fun hseq => ?_
    have hseq : (replayWindowAcceptLocked window seq).1 = true := hseq
    rw [hseq, acceptedOf_singleton, if_pos rfl] at htracks
    exact ih htracks

theorem acceptBatch_iff (h : Tracks (normalizeReplayWindowSize m) window accepted)
    (seqs : List ℕ) :
    (acceptBatch window seqs).1 = true ↔ AdmitsAll (normalizeReplayWindowSize m) accepted seqs := by
  rw [← all_runTrace_iff h.ensureLocked seqs, acceptBatch]
  split_ifs with hnil
  · rw [hnil]
    exact iff_of_true rfl rfl
  · dsimp only
    split_ifs with hall <;> simp [hall]

/-- A faithful trace and a window that tracks it. -/
def Kept (m : ℕ) (before : List (ℕ × Bool)) (window : Window) : Prop :=
  Faithful (normalizeReplayWindowSize m) before ∧
    Tracks (normalizeReplayWindowSize m) window (acceptedOf before)

/-- **One call** of the whole interface. -/
theorem Kept.run {before : List (ℕ × Bool)} (h : Kept m before window) (offer : Offer) :
    Kept m (before ++ (offer.run window).1) (offer.run window).2 := by
  obtain ⟨hb, ht⟩ := h
  cases offer with
  | each call => exact faithful_call hb ht call
  | whole seqs =>
    by_cases hnil : seqs = []
    · subst hnil
      simpa [Offer.run, acceptBatch] using ⟨hb, ht⟩
    by_cases hall : (runTrace replayWindowAcceptLocked (ensureLocked window) seqs).1.all (·.2) = true
    · have hrun : (Offer.whole seqs).run window =
          runTrace replayWindowAcceptLocked (ensureLocked window) seqs := by
        simp only [Offer.run, acceptBatch, if_neg hnil, if_pos hall, if_true]
        refine Prod.ext ?_ rfl
        -- the verdicts of the loop are all true
        nth_rewrite 1 [← map_fst_runTrace replayWindowAcceptLocked (ensureLocked window) seqs]
        rw [List.map_map]
        refine (List.map_congr_left fun p hp => ?_).trans (List.map_id _)
        exact Prod.ext rfl (List.all_eq_true.mp hall p hp).symm
      rw [hrun]
      exact faithful_runTrace _ (simulates_acceptLocked _) _ seqs hb ht.ensureLocked
    · simpa [Offer.run, acceptBatch, hnil, hall] using ⟨hb, ht.ensureLocked⟩

theorem Kept.runOffers (offers : List Offer) {before : List (ℕ × Bool)}
    (h : Kept m before window) :
    Kept m (before ++ (runOffers window offers).1) (runOffers window offers).2 := by
  induction offers generalizing window before with
  | nil => simpa [ReplayWindow.runOffers] using h
  | cons offer rest ih => simpa [ReplayWindow.runOffers] using ih (h.run offer)

/-- **All or nothing.**  In every run of the whole interface on a fresh window each verdict is the
one its history dictates, and no number is accepted twice.  A batch is then accepted iff each of
its numbers is admitted after what was accepted and the numbers before it: a batch that was
refused has no part in any of it. -/
theorem replayWindow_whole_batches (size : ℕ) (offers : List Offer) :
    let run := runOffers (newReplayWindow size) offers
    Faithful (normalizeReplayWindowSize size) run.1 ∧ (acceptedOf run.1).Nodup ∧
      ∀ seqs, (acceptBatch run.2 seqs).1 = true ↔
        AdmitsAll (normalizeReplayWindowSize size) (acceptedOf run.1) seqs := by
  have hstart : Kept size [] (newReplayWindow size) :=
    ⟨faithful_nil _, tracks_newReplayWindow size⟩
  obtain ⟨hrun, htracks⟩ := hstart.runOffers offers
  exact ⟨hrun, hrun.nodup_accepted, acceptBatch_iff htracks⟩

end ReplayWindow
