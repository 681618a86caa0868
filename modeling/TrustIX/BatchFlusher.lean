/-
# Progress of the flusher

The flusher looks at the number of packets in the batch to decide whether there is something to
flush, and `flushDataSessionBatch` looks first at an error that was remembered.  That error is
forgotten only when a packet is put in an empty batch.

* `flusher_progress` : as long as no payload fails while packets wait in the batch, the flusher
  goes at most once to each batch between two waits, and sends what waits whichever way the
  steps of the session go;
* `blocked_forever` : with an error remembered and packets waiting it never sends them;
* `error_behind_a_batch` : a run to such a state, in which the flusher does not wait either.
-/
import TrustIX.BatchPipeline

namespace BatchPipeline

open Datapath Runs

/-! ## What the session does on its own -/

/-- The context of the flusher has not ended. -/
def Flusher.live : Flusher → Bool
  | .flushing _ last | .sending _ last => !last
  | .stopped => false
  | _ => true

/-- Steps of the flusher and of calls that still have to notify it, over a transport that works. -/
def Working (_ : State) : Event → Prop
  | .notify _ | .wake | .check _ | .interrupt | .timer | .flush | .sent none => True
  | _ => False

/-- The batch was given to the transport after what it had been given before. -/
def HandedAfter (before : List WireUnit) (batch : List Bytes) (s : State) : Prop :=
  ∃ others, s.send.handed = before ++ others ++ [.batch batch]

/-- The flusher went at most once to each batch since it last waited, and the batch that waits
will be sent. -/
def Progress (session : DataSession) (s : State) : Prop :=
  s.attempts.Nodup ∧ (s.send.queued ≠ [] → s.flusher.live = true →
    Inevitably (step session) Working (HandedAfter s.send.handed s.send.queued) s)

/-- No payload fails while packets wait in the batch. -/
def NoneWaiting (s : State) : Event → Prop
  | .sendFlushes _ (some _) | .sent (some _) => s.send.queued = []
  | _ => True

instance (s : State) (e : Event) : Decidable (NoneWaiting s e) :=
  match e with
  | .sendFlushes _ (some _) => inferInstanceAs (Decidable (s.send.queued = []))
  | .sent (some _) => inferInstanceAs (Decidable (s.send.queued = []))
  | .sendFlushes _ none | .sent none | .queue _ _ | .flushCall | .notify _ | .sendDirects _ _
  | .wake | .check _ | .interrupt | .timer | .cancel | .flush => isTrue trivial

/-! ## Remembered errors while packets are queued -/

/-- An error is remembered only while the batch is empty. -/
def Forgotten (failed : Option String) (queued : List Bytes) : Prop :=
  failed.isSome = true → queued = []

section Queue

variable {session : DataSession} {now : ℕ} {q : QueueState}

theorem init_failed (h : Forgotten q.failed q.queued) : (q.init now).failed = none := by
  unfold QueueState.init
  split_ifs with hempty
  · rfl
  · exact Option.not_isSome_iff_eq_none.mp fun hsome => hempty (h hsome)

theorem opened_failed {packet : Bytes} (h : Forgotten q.failed q.queued) :
    (QueueState.opened session now q packet).failed = none := by
  unfold QueueState.opened
  split_ifs
  · exact init_failed fun _ => QueueState.take_queued
  · exact init_failed h

theorem put_failed {packet : Bytes} : (q.put session now packet).failed = q.failed := by
  unfold QueueState.put
  simp only
  split
  · rw [QueueState.take_failed]
  · rfl

theorem forgotten_step {packet : Bytes} (h : Forgotten q.failed q.queued) :
    Forgotten (q.step session now packet).failed (q.step session now packet).queued := by
  cases halone : session.sendsAlone packet with
  | true =>
    rw [QueueState.step_of_alone halone]
    exact fun _ => QueueState.take_queued
  | false =>
    rw [QueueState.step_of_not_alone halone, put_failed, opened_failed h]
    exact fun hsome => absurd hsome (by simp)

theorem forgotten_queueLoop {s : SendState} {packets : List Bytes} (h : Forgotten s.failed s.queued) :
    Forgotten (queueLoop session now s packets).failed (queueLoop session now s packets).queued := by
  have hfold : ∀ q : QueueState, Forgotten q.failed q.queued →
      Forgotten (packets.foldl (QueueState.step session now) q).failed
        (packets.foldl (QueueState.step session now) q).queued := by
    induction packets with
    | nil => exact fun _ hq => hq
    | cons packet rest ih => exact fun q hq => ih _ (forgotten_step hq)
  unfold queueLoop
  split
  · exact fun _ => QueueState.take_queued
  · exact hfold _ h

/-- The batch was taken if it does not wait any more. -/
theorem flushes_ne_nil {s : SendState} {packets : List Bytes} (h : s.queued ≠ [])
    (hempty : (queueLoop session now s packets).queued = []) :
    0 < (queueLoop session now s packets).flushes.length := by
  obtain ⟨hbatched, -⟩ := @queueLoop_spec session now s packets
  rw [hempty, List.append_nil] at hbatched
  refine List.length_pos_of_ne_nil fun hnil => h ?_
  rw [hnil] at hbatched
  exact (List.append_eq_nil_iff.mp hbatched.symm).1

end Queue

/-! ## The invariant -/

/-- The batch `seen` is the one that waits, or was taken. -/
def Seen (s : State) (seen : ℕ) : Prop :=
  seen ≤ s.taken ∧ (s.send.queued = [] → seen < s.taken)

/-- How the attempts since the last wait compare with the batches. -/
def Ordered (s : State) : Flusher → Prop
  | .waiting => s.attempts = []
  | .checking => ∀ a ∈ s.attempts, a < s.taken
  | .sleeping seen => s.attempts = [] ∧ Seen s seen
  | .flushing seen last => (∀ a ∈ s.attempts, a < seen) ∧ (last = false → Seen s seen)
  | .sending _ last => last = false → ∀ a ∈ s.attempts, a < s.taken
  | .stopped => True

/-- The flusher has been, or will be, told that packets wait. -/
def Told (s : State) : Prop :=
  s.flusher = .waiting → s.send.queued ≠ [] → s.notified = true ∨ ∃ job ∈ s.jobs, job.notify = true

structure Steady (s : State) : Prop where
  forgotten : Forgotten s.send.failed s.send.queued
  told : Told s
  nodup : s.attempts.Nodup
  ordered : Ordered s s.flusher

theorem steady_start (session : DataSession) : Steady (start session) where
  forgotten := fun _ => rfl
  told := fun _ h => absurd rfl h
  nodup := List.nodup_nil
  ordered := by
    simp only [start]
    split_ifs
    · trivial
    · rfl

section Jobs

variable {jobs : List Job} {i : ℕ} {job : Job}

/-- A call that has notified the flusher is not the one that still has to. -/
theorem exists_notify_set (hjob : jobs[i]? = some job) (hdone : job.notify = false) (other : Job)
    (h : ∃ job ∈ jobs, job.notify = true) : ∃ job ∈ jobs.set i other, job.notify = true := by
  obtain ⟨waiting, hmem, hnotify⟩ := h
  obtain ⟨j, hj⟩ := List.mem_iff_getElem?.mp hmem
  refine ⟨waiting, List.mem_iff_getElem?.mpr ⟨j, ?_⟩, hnotify⟩
  rw [List.getElem?_set_ne, hj]
  rintro rfl
  rw [hjob] at hj
  cases hj
  rw [hdone] at hnotify
  cases hnotify

theorem exists_notify_eraseIdx (hjob : jobs[i]? = some job) (hdone : job.notify = false)
    (h : ∃ job ∈ jobs, job.notify = true) : ∃ job ∈ jobs.eraseIdx i, job.notify = true := by
  obtain ⟨waiting, hmem, hnotify⟩ := h
  obtain ⟨j, hj⟩ := List.mem_iff_getElem?.mp hmem
  refine ⟨waiting, List.mem_eraseIdx_iff_getElem?.mpr ⟨j, ?_, hj⟩, hnotify⟩
  rintro rfl
  rw [hjob] at hj
  cases hj
  rw [hdone] at hnotify
  cases hnotify

end Jobs

/-- More batches were taken, one at least if the one that waited does not any more. -/
def Advances (s t : State) : Prop :=
  s.taken ≤ t.taken ∧ (t.send.queued = [] → s.send.queued ≠ [] → s.taken < t.taken)

theorem Advances.seen {s t : State} {seen : ℕ} (h : Advances s t) (hs : Seen s seen) : Seen t seen := by
  obtain ⟨hle, hlt⟩ := h
  refine ⟨hs.1.trans hle, fun hempty => ?_⟩
  by_cases hqueued : s.send.queued = []
  · exact (hs.2 hqueued).trans_le hle
  · exact hs.1.trans_lt (hlt hempty hqueued)

/-- Batches that are taken by others do not disturb the flusher. -/
theorem Advances.ordered {s t : State} (h : Advances s t) (hattempts : t.attempts = s.attempts)
    {flusher : Flusher} (hs : Ordered s flusher) : Ordered t flusher := by
  have hbelow : (∀ a ∈ s.attempts, a < s.taken) → ∀ a ∈ t.attempts, a < t.taken := by
    rw [hattempts]
    exact fun hall a ha => (hall a ha).trans_le h.1
  cases flusher with
  | waiting => exact hattempts.trans hs
  | checking => exact hbelow hs
  | sleeping seen => exact ⟨hattempts.trans hs.1, h.seen hs.2⟩
  | flushing seen last =>
    refine ⟨?_, fun hlast => h.seen (hs.2 hlast)⟩
    rw [hattempts]
    exact hs.1
  | sending payload last => exact fun hlast => hbelow (hs hlast)
  | stopped => trivial

theorem advances_of_eq {s t : State} (htaken : t.taken = s.taken)
    (hqueued : t.send.queued = s.send.queued) : Advances s t := by
  refine ⟨htaken.ge, fun hempty hne => ?_⟩
  rw [hqueued] at hempty
  exact absurd hempty hne

section Steps

variable {session : DataSession} {s : State}

theorem steady_queue (h : Steady s) (now : ℕ) (packets : List Bytes) :
    Steady (s.queue session now packets) where
  forgotten := forgotten_queueLoop h.forgotten
  told := by
    intro _ hqueued
    refine .inr ⟨_, List.mem_append_right _ (List.mem_singleton_self _), ?_⟩
    simpa [State.queue] using hqueued
  nodup := h.nodup
  ordered := by
    have hadvances : Advances s (s.queue session now packets) :=
      ⟨Nat.le_add_right _ _, fun hempty hne => Nat.lt_add_of_pos_right (flushes_ne_nil hne hempty)⟩
    exact hadvances.ordered rfl h.ordered

theorem steady_flushCall (h : Steady s) : Steady s.flushCall := by
  unfold State.flushCall
  split_ifs with hnothing
  · exact h
  · exact {
      forgotten := fun _ => rfl
      told := fun _ hqueued => absurd rfl hqueued
      nodup := h.nodup
      ordered := (show Advances s { s.takeBatch with jobs := _ } from
        ⟨Nat.le_succ _, fun _ _ => Nat.lt_succ_self _⟩).ordered rfl h.ordered }

theorem steady_notify (h : Steady s) (i : ℕ) (job : Job) : Steady (s.notify i job) where
  forgotten := h.forgotten
  told := fun _ _ => .inl rfl
  nodup := h.nodup
  ordered := (advances_of_eq rfl rfl).ordered rfl h.ordered

theorem steady_sendFlushes (h : Steady s) {i : ℕ} {job : Job} {result : Result}
    (hjob : s.jobs[i]? = some job) (hdone : job.notify = false)
    (hok : NoneWaiting s (.sendFlushes i result)) : Steady (s.sendFlushes i job result) := by
  cases result with
  | none => exact {
      forgotten := h.forgotten
      told := fun hwaiting hqueued =>
        (h.told hwaiting hqueued).imp_right (exists_notify_set hjob hdone _)
      nodup := h.nodup
      ordered := (advances_of_eq rfl rfl).ordered rfl h.ordered }
  | some failure => exact {
      forgotten := fun _ => hok
      told := fun hwaiting hqueued =>
        (h.told hwaiting hqueued).imp_right (exists_notify_eraseIdx hjob hdone)
      nodup := h.nodup
      ordered := (advances_of_eq rfl rfl).ordered rfl h.ordered }

theorem steady_sendDirects (h : Steady s) {i : ℕ} {job : Job} {result : Result}
    (hjob : s.jobs[i]? = some job) (hdone : job.notify = false) :
    Steady (s.sendDirects i job result) := by
  cases result with
  | _ => exact {
      forgotten := h.forgotten
      told := fun hwaiting hqueued =>
        (h.told hwaiting hqueued).imp_right (exists_notify_eraseIdx hjob hdone)
      nodup := h.nodup
      ordered := (advances_of_eq rfl rfl).ordered rfl h.ordered }

theorem steady_check (h : Steady s) (hflusher : s.flusher = .checking) (now : ℕ) :
    Steady (s.check session now) := by
  have hordered : ∀ a ∈ s.attempts, a < s.taken := by
    have := h.ordered
    rwa [hflusher] at this
  unfold State.check
  split_ifs with hempty hdue
  · exact ⟨h.forgotten, fun _ hqueued => absurd hempty hqueued, List.nodup_nil, rfl⟩
  · exact ⟨h.forgotten, nofun, h.nodup, hordered,
      fun _ => ⟨le_rfl, fun hnone => absurd hnone hempty⟩⟩
  · exact ⟨h.forgotten, nofun, List.nodup_nil, rfl, le_rfl, fun hnone => absurd hnone hempty⟩

/-- The flusher goes to another batch than before; afterwards that one does not wait. -/
theorem steady_flush (h : Steady s) {seen : ℕ} {last : Bool}
    (hflusher : s.flusher = .flushing seen last) : Steady (s.flush seen last) := by
  have hordered := h.ordered
  rw [hflusher] at hordered
  obtain ⟨hbelow, hseen⟩ := hordered
  have hnodup : (s.attempts ++ [seen]).Nodup := by
    refine List.nodup_append.mpr ⟨h.nodup, List.nodup_singleton _, ?_⟩
    intro a ha b hb
    rw [List.mem_singleton.mp hb]
    exact (hbelow a ha).ne
  have hafter : ∀ taken, seen < taken → ∀ a ∈ s.attempts ++ [seen], a < taken := by
    intro taken hlt a ha
    rcases List.mem_append.mp ha with ha | ha
    · exact (hbelow a ha).trans hlt
    · rw [List.mem_singleton.mp ha]
      exact hlt
  unfold State.flush
  simp only
  split_ifs with hnothing
  · have hempty : s.send.queued = [] := hnothing.elim h.forgotten id
    refine ⟨h.forgotten, fun _ hqueued => absurd hempty hqueued, hnodup, ?_⟩
    cases last with
    | true => trivial
    | false => exact hafter s.taken ((hseen rfl).2 hempty)
  · refine ⟨fun _ => rfl, fun _ hqueued => absurd rfl hqueued, hnodup, ?_⟩
    exact fun hlast => hafter _ (Nat.lt_succ_of_le (hseen hlast).1)

theorem steady_sent (h : Steady s) {payload : List Bytes} {last : Bool} {error : Option String}
    (hflusher : s.flusher = .sending payload last) (hok : NoneWaiting s (.sent error)) :
    Steady (s.sent payload last error) := by
  have hordered := h.ordered
  rw [hflusher] at hordered
  have hnext : ∀ t : State, t.attempts = s.attempts → t.taken = s.taken →
      Ordered t (if last then .stopped else .checking) := by
    intro t hattempts htaken
    cases last with
    | true => trivial
    | false =>
      show ∀ a ∈ t.attempts, a < t.taken
      rw [hattempts, htaken]
      exact hordered rfl
  have hnot : ((if last then .stopped else .checking : Flusher)) ≠ .waiting := by
    cases last <;> simp
  cases error with
  | none => exact ⟨h.forgotten, fun hwaiting => absurd hwaiting hnot, h.nodup, hnext _ rfl rfl⟩
  | some text => exact ⟨fun _ => hok, fun hwaiting => absurd hwaiting hnot, h.nodup, hnext _ rfl rfl⟩

end Steps

/-- **One step** that lets no error be remembered behind a batch keeps the session steady. -/
theorem steady_step {session : DataSession} {s t : State} {e : Event} (h : Steady s)
    (hok : NoneWaiting s e) (hstep : step session s e = some t) : Steady t := by
  have hordered := h.ordered
  have hlast : ∀ seen, s.attempts = [] → Steady { s with flusher := .flushing seen true } := by
    intro seen hattempts
    refine ⟨h.forgotten, nofun, h.nodup, ?_, fun hfalse => Bool.noConfusion hfalse⟩
    show ∀ a ∈ s.attempts, a < seen
    simp [hattempts]
  have hchecking : s.attempts = [] → Steady { s with flusher := .checking, notified := false } := by
    intro hattempts
    refine ⟨h.forgotten, nofun, h.nodup, ?_⟩
    show ∀ a ∈ s.attempts, a < s.taken
    simp [hattempts]
  cases move_of_step hstep with
  | nothing => exact h
  | queue now packets => exact steady_queue h now packets
  | flushCall => exact steady_flushCall h
  | notify hfound hdue => exact steady_notify h _ _
  | sendFlushes hfound htold => exact steady_sendFlushes h hfound htold hok
  | sendDirects hfound htold hflushed => exact steady_sendDirects h hfound htold
  | wake hwaiting hnotified =>
    rw [hwaiting] at hordered
    exact hchecking hordered
  | check now hflusher => exact steady_check h hflusher now
  | interrupt hsleeping hnotified =>
    rw [hsleeping] at hordered
    exact hchecking hordered.1
  | @timer seen hsleeping =>
    rw [hsleeping] at hordered
    refine ⟨h.forgotten, nofun, h.nodup, ?_, fun _ => hordered.2⟩
    show ∀ a ∈ s.attempts, a < seen
    simp [hordered.1]
  | cancelWaiting hwaiting =>
    rw [hwaiting] at hordered
    exact hlast _ hordered
  | cancelSleeping hsleeping =>
    rw [hsleeping] at hordered
    exact hlast _ hordered.1
  | flush hflushing => exact steady_flush h hflushing
  | sent hsending => exact steady_sent h hsending hok

/-! ## What waits is sent -/

/-- Calls that still have to notify the flusher. -/
def State.untold (s : State) : ℕ := s.jobs.countP fun job => job.notify

def Flusher.rank : Flusher → ℕ
  | .sending _ _ => 4
  | .checking => 3
  | .sleeping _ => 2
  | .flushing _ _ => 1
  | _ => 0

/-- What each step of the session on its own makes smaller. -/
def State.distance (s : State) : ℕ :=
  8 * s.untold + 4 * s.notified.toNat + if s.send.queued = [] then 0 else s.flusher.rank

/-- The batch waits for a flusher that can take it, or the flusher is sending it. -/
def OnItsWay (batch : List Bytes) (s : State) : Prop :=
  (s.send.queued = batch ∧ s.send.failed = none ∧ s.flusher.live = true ∧ Told s) ∨
    s.flusher = .sending batch false

def Underway (before : List WireUnit) (batch : List Bytes) (s : State) : Prop :=
  (∃ others, s.send.handed = before ++ others) ∧ OnItsWay batch s

section Delivery

variable {session : DataSession} {before : List WireUnit} {batch : List Bytes} {s t : State}

theorem untold_notify {i : ℕ} {job : Job} (hjob : s.jobs[i]? = some job) (hnotify : job.notify = true) :
    (s.notify i job).untold + 1 = s.untold := by
  obtain ⟨hlt, hget⟩ := List.getElem?_eq_some_iff.mp hjob
  have hpos : 0 < s.jobs.countP fun job => job.notify :=
    List.countP_pos_iff.mpr ⟨job, List.mem_of_getElem? hjob, hnotify⟩
  unfold State.untold State.notify
  rw [List.countP_set hlt, hget, hnotify]
  simp only [if_true, Bool.false_eq_true, if_false]
  omega

/-- The session can go on. -/
theorem enabled_of_underway (hbatch : batch ≠ []) (h : Underway before batch s) :
    ∃ e t, Working s e ∧ step session s e = some t := by
  suffices hsome : ∃ e, Working s e ∧ (step session s e).isSome = true by
    obtain ⟨e, hworking, hstep⟩ := hsome
    obtain ⟨t, ht⟩ := Option.isSome_iff_exists.mp hstep
    exact ⟨e, t, hworking, ht⟩
  obtain ⟨-, ⟨hqueued, -, hlive, htold⟩ | hsending⟩ := h
  · cases hflusher : s.flusher with
    | waiting =>
      rcases htold hflusher (by rw [hqueued]; exact hbatch) with hnotified | ⟨job, hmem, hnotify⟩
      · exact ⟨.wake, trivial, by simp [step, hflusher, hnotified]⟩
      · obtain ⟨i, hi⟩ := List.mem_iff_getElem?.mp hmem
        exact ⟨.notify i, trivial, by simp [step, hi, hnotify]⟩
    | checking => exact ⟨.check 0, trivial, by simp [step, hflusher]⟩
    | sleeping seen => exact ⟨.timer, trivial, by simp [step, hflusher]⟩
    | flushing seen last => exact ⟨.flush, trivial, by simp [step, hflusher]⟩
    | sending payload last => exact ⟨.sent none, trivial, by simp [step, hflusher]⟩
    | stopped =>
      rw [hflusher] at hlive
      cases hlive
  · exact ⟨.sent none, trivial, by simp [step, hsending]⟩

/-- A step of the flusher that leaves the batch where it is. -/
theorem underway_of_send_eq (hbatch : batch ≠ []) (hhanded : ∃ others, s.send.handed = before ++ others)
    (hqueued : s.send.queued = batch) (hfailed : s.send.failed = none) (hsend : t.send = s.send)
    (hjobs : t.jobs = s.jobs) (hlive : t.flusher.live = true) (hwaiting : t.flusher ≠ .waiting)
    (hrank : 4 * t.notified.toNat + t.flusher.rank < 4 * s.notified.toNat + s.flusher.rank) :
    Underway before batch t ∧ t.distance < s.distance := by
  refine ⟨⟨?_, .inl ⟨?_, ?_, hlive, fun h => absurd h hwaiting⟩⟩, ?_⟩
  · rw [hsend]
    exact hhanded
  · rw [hsend]
    exact hqueued
  · rw [hsend]
    exact hfailed
  · have hne : s.send.queued ≠ [] := by
      rw [hqueued]
      exact hbatch
    unfold State.distance State.untold
    rw [hsend, hjobs, if_neg hne, if_neg hne]
    omega

/-- **One step** of the session on its own brings the batch nearer to the transport. -/
theorem underway_step (hbatch : batch ≠ []) {e : Event} (h : Underway before batch s)
    (hworking : Working s e) (hstep : step session s e = some t) :
    HandedAfter before batch t ∨ (Underway before batch t ∧ t.distance < s.distance) := by
  obtain ⟨⟨others, hhanded⟩, hway⟩ := h
  -- the flusher has no payload in hand, so the batch still waits
  have hturn : s.flusher ≠ .sending batch false → ∀ {t : State}, t.send = s.send → t.jobs = s.jobs →
      t.flusher.live = true → t.flusher ≠ .waiting →
      4 * t.notified.toNat + t.flusher.rank < 4 * s.notified.toNat + s.flusher.rank →
      Underway before batch t ∧ t.distance < s.distance := by
    intro hnot t hsend hjobs hlive hwaiting hrank
    obtain ⟨hqueued, hfailed, -, -⟩ := hway.resolve_right hnot
    exact underway_of_send_eq hbatch ⟨others, hhanded⟩ hqueued hfailed hsend hjobs hlive hwaiting hrank
  cases move_of_step hstep with
  | notify hfound hdue =>
    refine .inr ⟨⟨⟨others, hhanded⟩, ?_⟩, ?_⟩
    · rcases hway with ⟨hqueued, hfailed, hlive, -⟩ | hsending
      · exact .inl ⟨hqueued, hfailed, hlive, fun _ _ => .inl rfl⟩
      · exact .inr hsending
    · have huntold := untold_notify hfound hdue
      show 8 * (s.notify _ _).untold + 4 * 1 + (if s.send.queued = [] then 0 else s.flusher.rank) <
        8 * s.untold + 4 * s.notified.toNat + (if s.send.queued = [] then 0 else s.flusher.rank)
      omega
  | wake hwaiting hnotified =>
    exact .inr (hturn (by simp [hwaiting]) rfl rfl rfl nofun
      (by simp [hwaiting, hnotified, Flusher.rank]))
  | check now hchecking =>
    have hnot : s.flusher ≠ .sending batch false := by simp [hchecking]
    have hqueued : s.send.queued ≠ [] := by
      rw [(hway.resolve_right hnot).1]
      exact hbatch
    unfold State.check
    rw [if_neg hqueued]
    split_ifs
    · exact .inr (hturn hnot rfl rfl rfl nofun (by simp [hchecking, Flusher.rank]))
    · exact .inr (hturn hnot rfl rfl rfl nofun (by simp [hchecking, Flusher.rank]))
  | interrupt hsleeping hnotified =>
    exact .inr (hturn (by simp [hsleeping]) rfl rfl rfl nofun
      (by simp [hsleeping, hnotified, Flusher.rank]))
  | timer hsleeping =>
    exact .inr (hturn (by simp [hsleeping]) rfl rfl rfl nofun (by simp [hsleeping, Flusher.rank]))
  | @flush seen last hflushing =>
    -- the flusher takes this batch
    obtain ⟨hqueued, hfailed, hlive, -⟩ := hway.resolve_right (by simp [hflushing])
    have hlast : last = false := by
      rw [hflushing] at hlive
      simpa [Flusher.live] using hlive
    have hflush : s.flush seen last =
        { ({ s with attempts := s.attempts ++ [seen] } : State).takeBatch with
          flusher := .sending batch false } := by
      simp [State.flush, hfailed, hqueued, hbatch, hlast]
    rw [hflush]
    refine .inr ⟨⟨⟨others, hhanded⟩, .inr rfl⟩, ?_⟩
    simp [State.distance, State.untold, State.takeBatch, hqueued, hbatch, hflushing, Flusher.rank]
  | @sent payload last error hsending =>
    cases error with
    | some text => exact hworking.elim
    | none =>
      have hsent : (s.sent payload last none).send.handed =
          before ++ others ++ [.batch payload] := by
        rw [← hhanded]
        rfl
      rcases hway with ⟨hqueued, hfailed, hlive, -⟩ | hway
      · have hlast : last = false := by
          rw [hsending] at hlive
          simpa [Flusher.live] using hlive
        subst hlast
        refine .inr ⟨⟨⟨others ++ [.batch payload], by rw [hsent, List.append_assoc]⟩,
          .inl ⟨hqueued, hfailed, rfl, fun h => Flusher.noConfusion h⟩⟩, ?_⟩
        simp [State.distance, State.untold, State.sent, State.hand, State.resume, hqueued, hbatch,
          hsending, Flusher.rank]
      · rw [hsending] at hway
        cases hway
        exact .inl ⟨others, hsent⟩
  | nothing | queue | flushCall | sendFlushes | sendDirects | cancelWaiting | cancelSleeping =>
    exact hworking.elim

theorem progress_of_steady (h : Steady s) : Progress session s := by
  refine ⟨h.nodup, fun hqueued hlive => ?_⟩
  have hfailed : s.send.failed = none :=
    Option.not_isSome_iff_eq_none.mp fun hsome => hqueued (h.forgotten hsome)
  exact inevitably_of_measure (Underway s.send.handed s.send.queued) State.distance
    (fun _ hunderway => enabled_of_underway hqueued hunderway)
    (fun _ _ _ hunderway hworking hstep => underway_step hqueued hunderway hworking hstep)
    ⟨⟨[], by simp⟩, .inl ⟨rfl, hfailed, hlive, h.told⟩⟩

end Delivery

/-- **Progress**: in every run in which no payload fails while packets wait in the batch, the
flusher goes at most once to each batch between two waits, and what waits is sent as soon as the
transport works. -/
theorem flusher_progress (session : DataSession) (s : State)
    (h : Reaches (step session) NoneWaiting (start session) s) : Progress session s :=
  progress_of_steady (h.invariant Steady (steady_start session)
    fun _ _ _ hsteady hok hstep => steady_step hsteady hok hstep)

/-! ## An error behind a batch -/

section Blocked

variable {session : DataSession} {s t : State}

/-- An error is remembered while packets wait, and the flusher has nothing in hand. -/
def Blocked (before : List WireUnit) (batch : List Bytes) (s : State) : Prop :=
  s.send.handed = before ∧ s.send.queued = batch ∧ s.send.failed.isSome = true ∧
    ∀ payload last, s.flusher ≠ .sending payload last

theorem blocked_step {before : List WireUnit} {batch : List Bytes} {e : Event}
    (h : Blocked before batch s) (hworking : Working s e) (hstep : step session s e = some t) :
    Blocked before batch t := by
  obtain ⟨hhanded, hqueued, hfailed, hnot⟩ := h
  cases move_of_step hstep with
  | notify => exact ⟨hhanded, hqueued, hfailed, hnot⟩
  | wake | interrupt | timer => exact ⟨hhanded, hqueued, hfailed, nofun⟩
  | check now =>
    unfold State.check
    split_ifs <;> exact ⟨hhanded, hqueued, hfailed, nofun⟩
  | @flush seen last =>
    -- `flushDataSessionBatch` answers with the old error and leaves the batch
    have hflush : s.flush seen last =
        ({ s with attempts := s.attempts ++ [seen] } : State).resume last := by
      simp [State.flush, hfailed]
    rw [hflush]
    refine ⟨hhanded, hqueued, hfailed, fun payload other => ?_⟩
    cases last <;> exact fun h => Flusher.noConfusion h
  | sent hsending => exact absurd hsending (hnot _ _)
  | nothing | queue | flushCall | sendFlushes | sendDirects | cancelWaiting | cancelSleeping =>
    exact hworking.elim

/-- **Packets behind an error** are not sent by the flusher, however long the transport works. -/
theorem blocked_forever {before : List WireUnit} {batch : List Bytes} (h : Blocked before batch s) :
    ¬Inevitably (step session) Working (HandedAfter before batch) s := by
  refine not_inevitably_of_invariant (Blocked before batch)
    (fun _ _ _ hblocked hworking hstep => blocked_step hblocked hworking hstep) ?_ h
  rintro t ⟨hhanded, -, -, -⟩ ⟨others, hafter⟩
  rw [hhanded] at hafter
  have hlength := congrArg List.length hafter
  simp at hlength

/-- Once the batch is due, the inner loop goes round without waiting or sending. -/
theorem spins (hchecking : s.flusher = .checking) (hqueued : s.send.queued ≠ [])
    (hfailed : s.send.failed.isSome = true) (count : ℕ) :
    Reaches (step session) Working s
      { s with attempts := s.attempts ++ List.replicate count s.taken } := by
  induction count with
  | zero => simpa using Reaches.refl
  | succ count ih =>
    have hcheck : step session { s with attempts := s.attempts ++ List.replicate count s.taken }
        (.check (s.send.firstSeen + session.batching.delay)) =
        some { s with
          attempts := s.attempts ++ List.replicate count s.taken
          flusher := .flushing s.taken false } := by
      simp [step, hchecking, State.check, hqueued]
    have hflush : step session { s with
          attempts := s.attempts ++ List.replicate count s.taken
          flusher := .flushing s.taken false } .flush =
        some { s with attempts := s.attempts ++ List.replicate (count + 1) s.taken } := by
      simp [step, State.flush, hfailed, State.resume, hchecking, List.replicate_succ']
    exact .tail (.tail ih (show Working _ (.check _) from trivial) hcheck)
      (show Working _ .flush from trivial) hflush

end Blocked

/-! ## A run -/

/-- Batches of two packets; the transport is irrelevant to the steps. -/
def pairs : DataSession where
  stats := ⟨true, false, 1400⟩
  batching := ⟨true, 1000, 2, 5⟩
  native := false
  segmentFragmenting := false
  answer := fun _ => none

/-- Three packets are queued: two of them go as one payload, which fails, and one waits. -/
def failing : List Event :=
  [.queue 1 [[1], [2], [3]], .notify 0, .sendFlushes 0 (some (0, "broken pipe")), .wake,
    .check 10, .flush, .check 10, .flush]

/-- **An error behind a batch**: the flusher goes to the third packet's batch twice without a
wait, and could any number of times; it never sends that packet. -/
theorem error_behind_a_batch : ∃ s,
    Reaches (step pairs) (fun _ _ => True) (start pairs) s ∧ s.send.queued = [[3]] ∧
      s.flusher.live = true ∧ ¬s.attempts.Nodup ∧ ¬Progress pairs s ∧
      (∀ count, Reaches (step pairs) Working s
        { s with attempts := s.attempts ++ List.replicate count s.taken }) ∧
      ¬Inevitably (step pairs) Working (HandedAfter s.send.handed s.send.queued) s := by
  have hrun : (replay (step pairs) (fun _ _ => True) (start pairs) failing).any
      (fun s => decide (s.send.queued = [[3]] ∧ s.flusher = .checking ∧
        s.send.failed.isSome = true ∧ s.attempts = [1, 1])) = true := by
    decide +kernel
  obtain ⟨s, hs, hstate⟩ := (Option.any_eq_true _ _).mp hrun
  obtain ⟨hqueued, hchecking, hfailed, hattempts⟩ := of_decide_eq_true hstate
  have hdup : ¬s.attempts.Nodup := by
    rw [hattempts]
    decide
  have hne : s.send.queued ≠ [] := by
    rw [hqueued]
    decide
  have hblocked : Blocked s.send.handed s.send.queued s :=
    ⟨rfl, rfl, hfailed, fun _ _ h => by rw [hchecking] at h; cases h⟩
  exact ⟨s, reaches_of_replay hs, hqueued, by rw [hchecking]; rfl, hdup, fun h => hdup h.1,
    fun count => spins hchecking hne hfailed count, blocked_forever hblocked⟩

/-- A payload fails while no packet waits; a packet that is queued later is sent. -/
theorem flusher_progress_after_failure : ∃ s,
    Reaches (step pairs) NoneWaiting (start pairs) s ∧ s.send.queued = [[3]] ∧
      s.attempts.Nodup ∧
      Inevitably (step pairs) Working (HandedAfter s.send.handed [[3]]) s := by
  have hrun : (replay (step pairs) NoneWaiting (start pairs)
      [.queue 1 [[1], [2]], .sendFlushes 0 (some (0, "broken pipe")), .queue 2 [[3]]]).any
      (fun s => decide (s.send.queued = [[3]] ∧ s.flusher.live = true)) = true := by
    decide +kernel
  obtain ⟨s, hs, hstate⟩ := (Option.any_eq_true _ _).mp hrun
  obtain ⟨hqueued, hlive⟩ := of_decide_eq_true hstate
  have hreach := reaches_of_replay hs
  obtain ⟨hnodup, hsent⟩ := flusher_progress pairs s hreach
  refine ⟨s, hreach, hqueued, hnodup, ?_⟩
  have hinevitable := hsent (by rw [hqueued]; decide) hlive
  rwa [hqueued] at hinevitable

end BatchPipeline
