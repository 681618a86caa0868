/-
# Senders and the flusher of a session

Packets of several senders wait in one batch of the session.  A call of
`queueDataSessionPackets` changes the batch under `batchMu` and sends what it took out of it
afterwards, without that lock; `runDataSessionBatchFlusher` takes a batch that has waited long
enough and sends it, on its own (`internal/daemon/datapath.go`).

A step is what one of them does under one lock, or one send.
-/
import TrustIX.SessionSend
import TrustIX.Runs

namespace BatchPipeline

open Datapath

/-- A call that has released `batchMu`: it still has to notify the flusher, to send payloads and
to send packets that go alone. -/
structure Job where
  notify : Bool
  flushes : List (List Bytes)
  directs : List Bytes
  deriving DecidableEq

/-- Where `runDataSessionBatchFlusher` is. -/
inductive Flusher where
  /-- It waits for a notification or the end of the context. -/
  | waiting
  /-- It is about to look how long the batch still has to wait. -/
  | checking
  /-- It waits for its timer, a notification or the end of the context. -/
  | sleeping (seen : ℕ)
  /-- It is about to flush; with `last` it returns afterwards. -/
  | flushing (seen : ℕ) (last : Bool)
  /-- It has taken a payload and is about to send it. -/
  | sending (payload : List Bytes) (last : Bool)
  | stopped
  deriving DecidableEq

/-- A session with its callers and its flusher.  `taken` counts the batches that were taken, so
that it names the one that waits; `attempts` are the batches for which the flusher went to
`flushDataSessionBatch` since it last waited. -/
structure State where
  send : SendState
  notified : Bool
  jobs : List Job
  flusher : Flusher
  taken : ℕ
  attempts : List ℕ

/-- A send that went through, or the number of packets before the one with an error. -/
abbrev Result := Option (ℕ × String)

inductive Event where
  | queue (now : ℕ) (packets : List Bytes)
  | flushCall
  | notify (job : ℕ)
  | sendFlushes (job : ℕ) (result : Result)
  | sendDirects (job : ℕ) (result : Result)
  | wake
  | check (now : ℕ)
  | interrupt
  | timer
  | cancel
  | flush
  | sent (error : Option String)

namespace State

/-- The part of `queueDataSessionPackets` under `batchMu`. -/
def queue (session : DataSession) (s : State) (now : ℕ) (packets : List Bytes) : State :=
  let q := queueLoop session now s.send packets
  { s with
    send := { s.send with queued := q.queued, firstSeen := q.firstSeen, failed := q.failed }
    jobs := s.jobs ++ [⟨!q.queued.isEmpty, q.flushes, q.directs⟩]
    taken := s.taken + q.flushes.length }

/-- The payload is taken out of the batch. -/
def takeBatch (s : State) : State :=
  { s with send := { s.send with queued := [], firstSeen := 0 }, taken := s.taken + 1 }

def hand (s : State) (units : List WireUnit) : State :=
  { s with send := { s.send with handed := s.send.handed ++ units } }

/-- `rememberDataSessionBatchError`. -/
def rememberError (s : State) (text : String) : State :=
  { s with send := { s.send with failed := some text } }

/-- `flushDataSessionBatch` of a sender, up to its send. -/
def flushCall (s : State) : State :=
  if s.send.failed.isSome ∨ s.send.queued = [] then s
  else { s.takeBatch with jobs := s.jobs ++ [⟨false, [s.send.queued], []⟩] }

def notify (s : State) (i : ℕ) (job : Job) : State :=
  { s with notified := true, jobs := s.jobs.set i { job with notify := false } }

/-- The call sends its payloads; after an error it returns. -/
def sendFlushes (s : State) (i : ℕ) (job : Job) : Result → State
  | none => { s.hand (job.flushes.map .batch) with jobs := s.jobs.set i { job with flushes := [] } }
  | some (count, text) =>
    { (s.hand ((job.flushes.take count).map .batch)).rememberError text with
      jobs := s.jobs.eraseIdx i }

/-- The call sends the packets that go alone, and returns. -/
def sendDirects (s : State) (i : ℕ) (job : Job) : Result → State
  | none => { s.hand (job.directs.map .single) with jobs := s.jobs.eraseIdx i }
  | some (count, _) =>
    { s.hand ((job.directs.take count).map .single) with jobs := s.jobs.eraseIdx i }

/-- The turn of the inner loop up to `flushDataSessionBatchAsync` or the timer; `batchFlushWait`
has no more to wait for a batch without a time. -/
def check (session : DataSession) (s : State) (now : ℕ) : State :=
  if s.send.queued = [] then { s with flusher := .waiting, attempts := [] }
  else if s.send.firstSeen = 0 ∨ now - s.send.firstSeen ≥ session.batching.delay then
    { s with flusher := .flushing s.taken false }
  else { s with flusher := .sleeping s.taken, attempts := [] }

/-- After a flush the loop goes on, or the flusher returns. -/
def resume (s : State) (last : Bool) : State :=
  { s with flusher := if last then .stopped else .checking }

/-- `flushDataSessionBatch` of the flusher, up to its send. -/
def flush (s : State) (seen : ℕ) (last : Bool) : State :=
  let s := { s with attempts := s.attempts ++ [seen] }
  if s.send.failed.isSome ∨ s.send.queued = [] then s.resume last
  else { s.takeBatch with flusher := .sending s.send.queued last }

def sent (s : State) (payload : List Bytes) (last : Bool) : Option String → State
  | none => (s.hand [.batch payload]).resume last
  | some text => (s.rememberError text).resume last

end State

/-- Steps; there is none where the event does not fit the state. -/
def step (session : DataSession) (s : State) : Event → Option State
  | .queue now packets => if packets = [] then some s else some (s.queue session now packets)
  | .flushCall => some s.flushCall
  | .notify i => (s.jobs[i]?).bind fun job => if job.notify then some (s.notify i job) else none
  | .sendFlushes i result => (s.jobs[i]?).bind fun job =>
    if !job.notify ∧ job.flushes ≠ [] ∧ (result.all fun r => r.1 < job.flushes.length) then
      some (s.sendFlushes i job result) else none
  | .sendDirects i result => (s.jobs[i]?).bind fun job =>
    if !job.notify ∧ job.flushes = [] ∧ (result.all fun r => r.1 < job.directs.length) then
      some (s.sendDirects i job result) else none
  | .wake => if s.flusher = .waiting ∧ s.notified then
      some { s with flusher := .checking, notified := false } else none
  | .check now => if s.flusher = .checking then some (s.check session now) else none
  | .interrupt => match s.flusher with
      | .sleeping _ => if s.notified then some { s with flusher := .checking, notified := false }
          else none
      | _ => none
  | .timer => match s.flusher with
      | .sleeping seen => some { s with flusher := .flushing seen false }
      | _ => none
  | .cancel => match s.flusher with
      | .waiting => some { s with flusher := .flushing s.taken true }
      | .sleeping seen => some { s with flusher := .flushing seen true }
      | _ => none
  | .flush => match s.flusher with
      | .flushing seen last => some (s.flush seen last)
      | _ => none
  | .sent error => match s.flusher with
      | .sending payload last => some (s.sent payload last error)
      | _ => none

/-- A new session; without a delay the flusher returns at once. -/
def start (session : DataSession) : State where
  send := ⟨[], [], 0, none⟩
  notified := false
  jobs := []
  flusher := if session.batching.delay = 0 then .stopped else .waiting
  taken := 0
  attempts := []

/-! ## What a step does -/

/-- A step with what it found. -/
inductive Move (session : DataSession) (s : State) : Event → State → Prop
  | nothing {now : ℕ} : Move session s (.queue now []) s
  | queue (now : ℕ) (packets : List Bytes) :
      Move session s (.queue now packets) (s.queue session now packets)
  | flushCall : Move session s .flushCall s.flushCall
  | notify {i : ℕ} {job : Job} (found : s.jobs[i]? = some job) (due : job.notify = true) :
      Move session s (.notify i) (s.notify i job)
  | sendFlushes {i : ℕ} {job : Job} {result : Result} (found : s.jobs[i]? = some job)
      (told : job.notify = false) : Move session s (.sendFlushes i result) (s.sendFlushes i job result)
  | sendDirects {i : ℕ} {job : Job} {result : Result} (found : s.jobs[i]? = some job)
      (told : job.notify = false) (flushed : job.flushes = []) :
      Move session s (.sendDirects i result) (s.sendDirects i job result)
  | wake (waiting : s.flusher = .waiting) (notified : s.notified = true) :
      Move session s .wake { s with flusher := .checking, notified := false }
  | check (now : ℕ) (checking : s.flusher = .checking) :
      Move session s (.check now) (s.check session now)
  | interrupt {seen : ℕ} (sleeping : s.flusher = .sleeping seen) (notified : s.notified = true) :
      Move session s .interrupt { s with flusher := .checking, notified := false }
  | timer {seen : ℕ} (sleeping : s.flusher = .sleeping seen) :
      Move session s .timer { s with flusher := .flushing seen false }
  | cancelWaiting (waiting : s.flusher = .waiting) :
      Move session s .cancel { s with flusher := .flushing s.taken true }
  | cancelSleeping {seen : ℕ} (sleeping : s.flusher = .sleeping seen) :
      Move session s .cancel { s with flusher := .flushing seen true }
  | flush {seen : ℕ} {last : Bool} (flushing : s.flusher = .flushing seen last) :
      Move session s .flush (s.flush seen last)
  | sent {payload : List Bytes} {last : Bool} {error : Option String}
      (sending : s.flusher = .sending payload last) :
      Move session s (.sent error) (s.sent payload last error)

theorem move_of_step {session : DataSession} {s t : State} {e : Event}
    (h : step session s e = some t) : Move session s e t := by
  cases e with
  | queue now packets =>
    simp only [step] at h
    split_ifs at h with hempty <;> cases h
    · rw [hempty]
      exact .nothing
    · exact .queue now packets
  | flushCall =>
    cases h
    exact .flushCall
  | notify i =>
    obtain ⟨job, hfound, h⟩ := Option.bind_eq_some_iff.mp h
    split_ifs at h with hdue
    cases h
    exact .notify hfound hdue
  | sendFlushes i result =>
    obtain ⟨job, hfound, h⟩ := Option.bind_eq_some_iff.mp h
    split_ifs at h with hguard
    cases h
    exact .sendFlushes hfound (by simpa using hguard.1)
  | sendDirects i result =>
    obtain ⟨job, hfound, h⟩ := Option.bind_eq_some_iff.mp h
    split_ifs at h with hguard
    cases h
    exact .sendDirects hfound (by simpa using hguard.1) hguard.2.1
  | wake =>
    simp only [step] at h
    split_ifs at h with hguard
    cases h
    exact .wake hguard.1 hguard.2
  | check now =>
    simp only [step] at h
    split_ifs at h with hchecking
    cases h
    exact .check now hchecking
  | interrupt =>
    simp only [step] at h
    split at h
    · split_ifs at h with hnotified
      cases h
      exact .interrupt ‹_› hnotified
    · cases h
  | timer =>
    simp only [step] at h
    split at h
    · cases h
      exact .timer ‹_›
    · cases h
  | cancel =>
    simp only [step] at h
    split at h
    · cases h
      exact .cancelWaiting ‹_›
    · cases h
      exact .cancelSleeping ‹_›
    · cases h
  | flush =>
    simp only [step] at h
    split at h
    · cases h
      exact .flush ‹_›
    · cases h
  | sent error =>
    simp only [step] at h
    split at h
    · cases h
      exact .sent ‹_›
    · cases h

end BatchPipeline
