/-
# The config log store

The in-memory and the file store of the configuration log
(`internal/configlog/memory.go`, `file.go`, `commit_error.go`). Every file-system step
of a write can fail; the store keeps the file's text and the list it mirrors.

* `MemoryStore.appendEvent_eq_ok` : what the store accepts is what the hash chain
  links;
* `load_encodeEvents` : a file written by the store reads back as the events written;
* `step_cases` : a call either leaves the store as it was or applies the whole batch;
* `fileStore_run_integrity` : the four integrity properties, over every run.
-/
import TrustIX.ConfigEvent
import TrustIX.HashChain

namespace ConfigStore

open ConfigEvent Fallible HashChain

/-! ## Errors -/

inductive StoreError where
  | invalid (text : String)
  | conflict (text : String)
  | encode (text : String)
  | decode (text : String)
  /-- File-system steps that failed while the old file stayed in place. -/
  | io (steps : List String)
  /-- `CommitError`: the new file is in place, its directory may not be on disk. -/
  | commit (step : String)
  deriving DecidableEq

/-- `CommitSucceeded`. -/
def commitSucceeded : StoreError → Bool
  | .commit _ => true
  | _ => false

/-! ## The memory store -/

section Memory

variable (sha256Hex : List Char → String)

/-- One round of the loop of `MemoryStore.AppendBatch`. -/
def MemoryStore.appendEvent (next : List Event) (event : Event) :
    Except StoreError (List Event) := do
  event.validateBasic.mapError .invalid
  if event.seq ≠ next.length + 1 then
    .error (.conflict ("expected seq " ++ toString (next.length + 1) ++ ", got " ++
      toString event.seq))
  else
    match next.getLast? with
    | none =>
      if event.prevHash ≠ "" then .error (.conflict "first event must not have prev_hash")
      else .ok (next ++ [event])
    | some last => do
      let prevHash ← (last.hash sha256Hex).mapError .encode
      if event.prevHash ≠ prevHash then .error (.conflict "prev_hash mismatch")
      else .ok (next ++ [event])

def MemoryStore.appendBatch (stored events : List Event) : Except StoreError (List Event) :=
  events.foldlM (MemoryStore.appendEvent sha256Hex) stored

def MemoryStore.head (stored : List Event) : Except String Head :=
  match stored.getLast? with
  | none => .ok ⟨0, ""⟩
  | some last => (last.hash sha256Hex).map fun hash => ⟨last.seq, hash⟩

def MemoryStore.range (stored : List Event) (fromSeq toSeq : ℕ) :
    Except String (List Event) :=
  if fromSeq = 0 then .error "from seq is required"
  else if toSeq < fromSeq then
    .error ("to seq " ++ toString toSeq ++ " is before from seq " ++ toString fromSeq)
  else if toSeq > stored.length then
    .error ("to seq " ++ toString toSeq ++ " exceeds head " ++ toString stored.length)
  else .ok ((stored.drop (fromSeq - 1)).take (toSeq - fromSeq + 1))

/-- The chain of the log: positions, back links and hashes of events. -/
def chain : Format Event String where
  seq := Event.seq
  prev := Event.prevHash
  digest := fun event => (event.hash sha256Hex).toOption
  root := ""

end Memory

variable {sha256Hex : List Char → String}

variable {result : List Event} {event : Event}

/-- **What the store accepts** is a valid event that the chain links. -/
theorem MemoryStore.appendEvent_eq_ok {next : List Event} :
    MemoryStore.appendEvent sha256Hex next event = .ok result ↔
      event.validateBasic = .ok () ∧ Linked (chain sha256Hex) next event ∧
        result = next ++ [event] := by
  unfold MemoryStore.appendEvent Linked tip
  constructor
  · intro h
    obtain ⟨⟨⟩, hvalid, h⟩ := bind_eq_ok.mp h
    refine ⟨mapError_eq_ok.mp hvalid, ?_⟩
    obtain ⟨hseq, h⟩ := guard_eq_ok.mp h
    cases hlast : next.getLast? with
    | none =>
      simp only [hlast] at h
      obtain ⟨hprev, h⟩ := guard_eq_ok.mp h
      injection h with h
      exact ⟨⟨not_not.mp hseq, congrArg some (not_not.mp hprev).symm⟩, h.symm⟩
    | some last =>
      simp only [hlast] at h
      obtain ⟨hash, hhash, h⟩ := bind_eq_ok.mp h
      obtain ⟨hprev, h⟩ := guard_eq_ok.mp h
      injection h with h
      refine ⟨⟨not_not.mp hseq, ?_⟩, h.symm⟩
      rw [mapError_eq_ok, ← not_not.mp hprev] at hhash
      exact toOption_eq_some.mpr hhash
  · rintro ⟨hvalid, ⟨hseq, htip⟩, rfl⟩
    refine bind_eq_ok.mpr ⟨(), mapError_eq_ok.mpr hvalid, ?_⟩
    have hseq' : ¬ event.seq ≠ next.length + 1 := not_not.mpr hseq
    rw [if_neg hseq']
    cases hlast : next.getLast? with
    | none =>
      simp only [hlast, Option.some.injEq] at htip
      exact if_neg (not_not.mpr htip.symm)
    | some last =>
      simp only [hlast] at htip
      refine bind_eq_ok.mpr ⟨event.prevHash, mapError_eq_ok.mpr (toOption_eq_some.mp htip), ?_⟩
      exact if_neg (by simp)

variable {stored : List Event}

theorem MemoryStore.appendBatch_eq_append {events : List Event}
    (h : MemoryStore.appendBatch sha256Hex stored events = .ok result) :
    result = stored ++ events := by
  induction events generalizing stored with
  | nil =>
    injection h with h
    simp [h]
  | cons event events ih =>
    obtain ⟨next, hnext, hrest⟩ := bind_eq_ok.mp h
    obtain ⟨-, -, rfl⟩ := MemoryStore.appendEvent_eq_ok.mp hnext
    rw [ih hrest, List.append_assoc, List.singleton_append]

/-- The stored events are valid and chained. -/
def WellFormed (sha256Hex : List Char → String) (stored : List Event) : Prop :=
  Chained (chain sha256Hex) stored ∧ ∀ event ∈ stored, event.validateBasic = .ok ()

theorem wellFormed_nil : WellFormed sha256Hex [] := ⟨chained_nil, by simp⟩

theorem WellFormed.appendEvent (h : WellFormed sha256Hex stored)
    (happend : MemoryStore.appendEvent sha256Hex stored event = .ok result) :
    WellFormed sha256Hex result := by
  obtain ⟨hvalid, hlinked, rfl⟩ := MemoryStore.appendEvent_eq_ok.mp happend
  refine ⟨chained_concat.mpr ⟨h.1, hlinked⟩, ?_⟩
  exact List.forall_mem_append.mpr ⟨h.2, List.forall_mem_singleton.mpr hvalid⟩

theorem WellFormed.appendBatch {events : List Event} (h : WellFormed sha256Hex stored)
    (happend : MemoryStore.appendBatch sha256Hex stored events = .ok result) :
    WellFormed sha256Hex result :=
  foldlM_induct h (fun _ hb _ _ _ hstep => hb.appendEvent hstep) happend

/-- A well-formed list is rebuilt by appending its events to an empty store. -/
theorem WellFormed.appendBatch_nil (h : WellFormed sha256Hex stored) :
    MemoryStore.appendBatch sha256Hex [] stored = .ok stored := by
  induction stored using List.reverseRecOn with
  | nil => rfl
  | append_singleton log event ih =>
    obtain ⟨hchained, hvalid⟩ := h
    have hlog : WellFormed sha256Hex log :=
      ⟨hchained.of_append, fun e he => hvalid e (List.mem_append_left _ he)⟩
    have hevent : MemoryStore.appendEvent sha256Hex log event = .ok (log ++ [event]) :=
      MemoryStore.appendEvent_eq_ok.mpr
        ⟨hvalid event (by simp), hchained.linked, rfl⟩
    rw [MemoryStore.appendBatch] at ih ⊢
    rw [List.foldlM_append, ih hlog, ok_bind, List.foldlM_cons, hevent, ok_bind]
    rfl

/-! ## The file -/

/-- `encodeEvents`: one JSON text a line. -/
def encodeEvents : List Event → Except String (List Char)
  | [] => .ok []
  | event :: rest => do
    let line ← event.marshal
    let tail ← encodeEvents rest
    .ok (line ++ '\n' :: tail)

section Load

variable (sha256Hex : List Char → String)

/-- The loop of `load`: values are decoded and appended until the input ends. -/
def loadLoop : ℕ → List Event → List Char → Except StoreError (List Event)
  | 0, _, _ => .error (.decode "out of fuel")
  | fuel + 1, stored, text =>
    if JsonText.skipSpace text = [] then .ok stored
    else
      match JsonText.parseValue (text.length + 1) text with
      | none => .error (.decode "invalid character or unexpected EOF")
      | some (value, rest) => do
        let event ← (decodeEvent value).mapError .decode
        let stored ← MemoryStore.appendEvent sha256Hex stored event
        loadLoop fuel stored rest

/-- `load`; a missing file is an empty log. Every value takes a character or more, so
the fuel lasts. -/
def load : Option (List Char) → Except StoreError (List Event)
  | none => .ok []
  | some text => loadLoop sha256Hex (text.length + 1) [] text

end Load

variable {text : List Char}

/-- What is loaded is well formed, with times in whole minutes of offset, if it was so before. -/
theorem WellFormed.loadLoop {fuel : ℕ} (h : WellFormed sha256Hex stored)
    (hwhole : ∀ event ∈ stored, event.WholeMinute)
    (hload : loadLoop sha256Hex fuel stored text = .ok result) :
    WellFormed sha256Hex result ∧ ∀ event ∈ result, event.WholeMinute := by
  induction fuel generalizing stored text with
  | zero => cases hload
  | succ fuel ih =>
    unfold ConfigStore.loadLoop at hload
    split_ifs at hload
    · cases hload
      exact ⟨h, hwhole⟩
    · split at hload
      · cases hload
      · obtain ⟨event, hdecode, hload⟩ := bind_eq_ok.mp hload
        obtain ⟨next, hnext, hload⟩ := bind_eq_ok.mp hload
        have hwell := h.appendEvent hnext
        obtain ⟨-, -, rfl⟩ := MemoryStore.appendEvent_eq_ok.mp hnext
        exact ih hwell (List.forall_mem_append.mpr ⟨hwhole, List.forall_mem_singleton.mpr
          (wholeMinute_of_decodeEvent (mapError_eq_ok.mp hdecode))⟩) hload

theorem wellFormed_of_load {file : Option (List Char)} (h : load sha256Hex file = .ok stored) :
    WellFormed sha256Hex stored ∧ ∀ event ∈ stored, event.WholeMinute := by
  cases file with
  | none =>
    cases h
    exact ⟨wellFormed_nil, nofun⟩
  | some text => exact wellFormed_nil.loadLoop nofun h

/-- One line of the file, after white space. -/
theorem loadLoop_line {line spaces : List Char} (h : event.marshal = .ok line)
    (hspaces : ∀ c ∈ spaces, JsonText.isSpace c = true) (fuel : ℕ) (stored : List Event)
    (rest : List Char) :
    loadLoop sha256Hex (fuel + 1) stored (spaces ++ (line ++ '\n' :: rest)) = (do
      let stored ← MemoryStore.appendEvent sha256Hex stored event.reload
      loadLoop sha256Hex fuel stored ('\n' :: rest)) := by
  obtain ⟨v, hv, rfl⟩ := map_eq_ok.mp h
  have hvalid := Event.valid_toJson hv
  obtain ⟨c, tail, hprint, hspace, -, -⟩ := JsonText.Json.print_head hvalid
  have hskip : JsonText.skipSpace (spaces ++ (v.print ++ '\n' :: rest)) ≠ [] := by
    rw [JsonText.skipSpace_append hspaces, hprint, List.cons_append, JsonText.skipSpace_cons hspace]
    simp
  have hparse := JsonText.parseValue_print v hvalid
    ((spaces ++ (v.print ++ '\n' :: rest)).length + 1) ('\n' :: rest)
    (by simp only [List.length_append]; omega) (JsonText.numberEnds_cons (by decide) rest)
  rw [loadLoop, if_neg hskip, JsonText.parseValue_spaces hspaces, hparse]
  simp only [decodeEvent_toJson hv, Except.mapError, ok_bind]

/-- **A written file is read back line by line.** -/
theorem loadLoop_encodeEvents {events : List Event} {spaces : List Char}
    (h : encodeEvents events = .ok text) (hspaces : ∀ c ∈ spaces, JsonText.isSpace c = true)
    {fuel : ℕ} (hfuel : events.length < fuel) (stored : List Event) :
    loadLoop sha256Hex fuel stored (spaces ++ text)
      = MemoryStore.appendBatch sha256Hex stored (events.map Event.reload) := by
  -- after the first line the newline that ends it is still unread
  induction events generalizing text spaces fuel stored with
  | nil =>
    injection h with h
    obtain ⟨fuel, rfl⟩ : ∃ n, fuel = n + 1 := ⟨fuel - 1, by simp at hfuel; omega⟩
    have hskip : JsonText.skipSpace (spaces ++ []) = [] := by
      rw [JsonText.skipSpace_append hspaces]
      rfl
    rw [← h, loadLoop, if_pos hskip]
    rfl
  | cons event events ih =>
    obtain ⟨line, hline, h⟩ := bind_eq_ok.mp h
    obtain ⟨tail, htail, h⟩ := bind_eq_ok.mp h
    cases h
    obtain ⟨fuel, rfl⟩ : ∃ n, fuel = n + 1 := ⟨fuel - 1, by simp at hfuel; omega⟩
    rw [loadLoop_line hline hspaces, List.map_cons, MemoryStore.appendBatch, List.foldlM_cons]
    congr 1
    funext next
    have hnewline : ∀ c ∈ ['\n'], JsonText.isSpace c = true := by
      simp [JsonText.isSpace]
    exact ih htail hnewline (by simpa using hfuel) next

theorem length_le_encodeEvents {events : List Event}
    (h : encodeEvents events = .ok text) : events.length ≤ text.length := by
  induction events generalizing text with
  | nil => simp
  | cons event events ih =>
    obtain ⟨line, -, h⟩ := bind_eq_ok.mp h
    obtain ⟨tail, htail, h⟩ := bind_eq_ok.mp h
    injection h with h
    have hle := ih htail
    rw [← h, List.length_cons, List.length_append, List.length_cons]
    omega

/-- Loading a written file appends what the JSON keeps of the events. -/
theorem load_encodeEvents {events : List Event} (h : encodeEvents events = .ok text) :
    load sha256Hex (some text)
      = MemoryStore.appendBatch sha256Hex [] (events.map Event.reload) := by
  have hfuel := length_le_encodeEvents h
  show loadLoop sha256Hex (text.length + 1) [] ([] ++ text) = _
  exact loadLoop_encodeEvents h (by simp) (by omega) []

/-- With times of whole minutes a well-formed list is read back as it is. -/
theorem load_encodeEvents_eq {events : List Event} (h : encodeEvents events = .ok text)
    (hwell : WellFormed sha256Hex events) (hwhole : ∀ event ∈ events, event.WholeMinute) :
    load sha256Hex (some text) = .ok events := by
  have hmap : events.map Event.reload = events := by
    conv_rhs => rw [← List.map_id events]
    apply List.map_congr_left
    intro event hevent
    rw [Event.reload_eq_self (hwhole event hevent), id]
  rw [load_encodeEvents h, hmap, hwell.appendBatch_nil]

/-! ## Writing the file -/

/-- The steps of `writeFileAtomic` that fail. -/
structure WriteFaults where
  mkdirAll : Bool
  createTemp : Bool
  write : Bool
  chmod : Bool
  sync : Bool
  close : Bool
  rename : Bool
  syncDirectory : Bool
  /-- The deferred close and removal of the temporary file. -/
  deferredClose : Bool
  deferredRemove : Bool
  deriving DecidableEq

def noFaults : WriteFaults :=
  ⟨false, false, false, false, false, false, false, false, false, false⟩

/-- What the deferred function joins to the error. -/
def WriteFaults.deferred (faults : WriteFaults) (closed : Bool) : List String :=
  (if !closed && faults.deferredClose then ["close temporary file"] else []) ++
    (if faults.deferredRemove then ["remove temporary file"] else [])

/-- `writeFileAtomic`: whether the new file is in place, and the error. -/
def writeFileAtomic (faults : WriteFaults) : Bool × Option StoreError :=
  if faults.mkdirAll then (false, some (.io ["create directory"]))
  else if faults.createTemp then (false, some (.io ["create temporary file"]))
  else if faults.write then
    (false, some (.io ("write temporary file" :: faults.deferred false)))
  else if faults.chmod then
    (false, some (.io ("chmod temporary file" :: faults.deferred false)))
  else if faults.sync then
    (false, some (.io ("sync temporary file" :: faults.deferred false)))
  else if faults.close then
    (false, some (.io ("close temporary file" :: faults.deferred true)))
  else if faults.rename then
    (false, some (.io ("rename temporary file" :: faults.deferred true)))
  else if faults.syncDirectory then (true, some (.commit "sync directory"))
  else (true, none)

/-- The error of a write is a commit error iff the file is in place. -/
def Consistent (result : Bool × Option StoreError) : Prop :=
  (∃ steps, result = (false, some (.io steps))) ∨
    (∃ step, result = (true, some (.commit step))) ∨ result = (true, none)

theorem consistent_io (steps : List String) : Consistent (false, some (.io steps)) :=
  .inl ⟨steps, rfl⟩

theorem consistent_writeFileAtomic (faults : WriteFaults) :
    Consistent (writeFileAtomic faults) := by
  refine iteInduction (fun _ => consistent_io _) fun _ => ?_
  refine iteInduction (fun _ => consistent_io _) fun _ => ?_
  refine iteInduction (fun _ => consistent_io _) fun _ => ?_
  refine iteInduction (fun _ => consistent_io _) fun _ => ?_
  refine iteInduction (fun _ => consistent_io _) fun _ => ?_
  refine iteInduction (fun _ => consistent_io _) fun _ => ?_
  refine iteInduction (fun _ => consistent_io _) fun _ => ?_
  exact iteInduction (fun _ => .inr (.inl ⟨_, rfl⟩)) fun _ => .inr (.inr rfl)

/-- The steps of `BackupFile` that fail. -/
structure BackupFaults where
  stat : Bool
  mkdirAll : Bool
  statBackup : Bool
  read : Bool
  write : WriteFaults
  prune : Bool
  deriving DecidableEq

/-- `BackupFile`: the error only, since nothing reads the copies back. An error after
the copy is in place is wrapped as text, so it is no commit error. -/
def backupFile (faults : BackupFaults) (file : Option (List Char)) : Option StoreError :=
  if faults.stat then some (.io ["stat config log for backup"])
  else
    match file with
    | none => none
    | some text =>
      if text = [] then none
      else if faults.mkdirAll then some (.io ["create config log backup directory"])
      else if faults.statBackup then some (.io ["stat config log backup"])
      else if faults.read then some (.io ["read config log for backup"])
      else
        match writeFileAtomic faults.write with
        | (true, some _) => some (.io ["commit config log backup"])
        | (false, some err) => some err
        | (_, none) => if faults.prune then some (.io ["prune config log backup"]) else none

variable {err : StoreError}

theorem commitSucceeded_of_backupFile {faults : BackupFaults}
    (h : backupFile faults file = some err) : commitSucceeded err = false := by
  unfold backupFile at h
  rcases consistent_writeFileAtomic faults.write with ⟨steps, hw⟩ | ⟨step, hw⟩ | hw
  all_goals
    simp only [hw] at h
    repeat' split at h
    all_goals first | (cases h; done) | (injection h with h; subst h; rfl)

/-! ## The file store -/

/-- The file's text, and the list that mirrors it. -/
structure FileStore where
  file : Option (List Char)
  memory : List Event
  deriving DecidableEq

section Store

variable (sha256Hex : List Char → String)

def newFileStore (file : Option (List Char)) : Except StoreError FileStore :=
  (load sha256Hex file).map fun memory => ⟨file, memory⟩

/-- The end of both writing calls: the new file and list are taken together. -/
def FileStore.commit (store : FileStore) (faults : WriteFaults) (payload : List Char)
    (next : List Event) : Option StoreError × FileStore :=
  match writeFileAtomic faults with
  | (true, err) => (err, ⟨some payload, next⟩)
  | (false, err) => (err, store)

def FileStore.appendBatch (store : FileStore) (faults : WriteFaults) (events : List Event) :
    Option StoreError × FileStore :=
  if events = [] then (none, store)
  else
    match MemoryStore.appendBatch sha256Hex store.memory events with
    | .error err => (some err, store)
    | .ok next =>
      match encodeEvents next with
      | .error text => (some (.encode text), store)
      | .ok payload => store.commit faults payload next

/-- The steps of `ReplaceAll` that fail. -/
structure ReplaceFaults where
  mkdirAll : Bool
  backup : BackupFaults
  write : WriteFaults
  deriving DecidableEq

def FileStore.replaceAll (store : FileStore) (faults : ReplaceFaults) (events : List Event) :
    Option StoreError × FileStore :=
  match MemoryStore.appendBatch sha256Hex [] events with
  | .error err => (some err, store)
  | .ok next =>
    match encodeEvents events with
    | .error text => (some (.encode text), store)
    | .ok payload =>
      if faults.mkdirAll then (some (.io ["create config log directory"]), store)
      else
        match backupFile faults.backup store.file with
        | some err => (some err, store)
        | none => store.commit faults.write payload next

/-! ## Runs -/

/-- A call on the store, with the file-system steps that fail in it. -/
inductive Call where
  | append (event : Event) (faults : WriteFaults)
  | appendBatch (events : List Event) (faults : WriteFaults)
  | replaceAll (events : List Event) (faults : ReplaceFaults)

/-- The events a call brings. -/
def Call.events : Call → List Event
  | .append event _ => [event]
  | .appendBatch events _ => events
  | .replaceAll events _ => events

/-- The list a call asks for. -/
def Call.applied (stored : List Event) : Call → List Event
  | .append event _ => stored ++ [event]
  | .appendBatch events _ => stored ++ events
  | .replaceAll events _ => events

def step (store : FileStore) : Call → Option StoreError × FileStore
  | .append event faults => store.appendBatch sha256Hex faults [event]
  | .appendBatch events faults => store.appendBatch sha256Hex faults events
  | .replaceAll events faults => store.replaceAll sha256Hex faults events

def run (store : FileStore) (calls : List Call) : FileStore :=
  calls.foldl (fun s call => (step sha256Hex s call).2) store

end Store

/-- What a call did, by the error it returned. -/
inductive Outcome (sha256Hex : List Char → String) (store : FileStore) (call : Call) :
    Option StoreError × FileStore → Prop where
  /-- Nothing, and the error says so. -/
  | rejected {err : StoreError} (herr : commitSucceeded err = false) :
      Outcome sha256Hex store call (some err, store)
  /-- There was nothing to do. -/
  | empty (hempty : call.applied store.memory = store.memory) :
      Outcome sha256Hex store call (none, store)
  /-- The whole batch is in the file and in memory. -/
  | applied {err : Option StoreError} {payload : List Char}
      (herr : ∀ e, err = some e → commitSucceeded e = true)
      (hencode : encodeEvents (call.applied store.memory) = .ok payload)
      (hwell : WellFormed sha256Hex store.memory →
        WellFormed sha256Hex (call.applied store.memory)) :
      Outcome sha256Hex store call (err, ⟨some payload, call.applied store.memory⟩)

variable {store : FileStore} {call : Call}

theorem outcome_commit (faults : WriteFaults) {payload : List Char}
    (hencode : encodeEvents (call.applied store.memory) = .ok payload)
    (hwell : WellFormed sha256Hex store.memory → WellFormed sha256Hex (call.applied store.memory)) :
    Outcome sha256Hex store call
      (store.commit faults payload (call.applied store.memory)) := by
  unfold FileStore.commit
  rcases consistent_writeFileAtomic faults with ⟨steps, hw⟩ | ⟨step, hw⟩ | hw
  · rw [hw]
    exact .rejected rfl
  · rw [hw]
    refine .applied ?_ hencode hwell
    rintro e ⟨⟩
    rfl
  · rw [hw]
    refine .applied ?_ hencode hwell
    rintro e ⟨⟩

/-- An error of the memory store is no commit error. -/
theorem commitSucceeded_of_appendEvent {next : List Event}
    (h : MemoryStore.appendEvent sha256Hex next event = .error err) :
    commitSucceeded err = false := by
  rcases bind_eq_error.mp h with h | ⟨-, -, h⟩
  · obtain ⟨text, -, rfl⟩ := mapError_eq_error.mp h
    rfl
  · by_cases hseq : event.seq ≠ next.length + 1
    · rw [if_pos hseq] at h
      injection h with h
      exact h ▸ rfl
    rw [if_neg hseq] at h
    split at h
    · split_ifs at h
      injection h with h
      exact h ▸ rfl
    · rcases bind_eq_error.mp h with h | ⟨hash, -, h⟩
      · obtain ⟨text, -, rfl⟩ := mapError_eq_error.mp h
        rfl
      · split_ifs at h
        injection h with h
        exact h ▸ rfl

theorem commitSucceeded_of_appendBatch {events : List Event}
    (h : MemoryStore.appendBatch sha256Hex stored events = .error err) :
    commitSucceeded err = false := by
  obtain ⟨next, event, hevent⟩ := exists_of_foldlM_eq_error h
  exact commitSucceeded_of_appendEvent hevent

theorem outcome_appendBatch (store : FileStore) (faults : WriteFaults) {events : List Event}
    (happlied : call.applied store.memory = store.memory ++ events) :
    Outcome sha256Hex store call (store.appendBatch sha256Hex faults events) := by
  unfold FileStore.appendBatch
  split_ifs with hnil
  · refine .empty ?_
    rw [happlied, hnil, List.append_nil]
  · cases happend : MemoryStore.appendBatch sha256Hex store.memory events with
    | error err => exact .rejected (commitSucceeded_of_appendBatch happend)
    | ok next =>
      have hnext : next = call.applied store.memory := by
        rw [MemoryStore.appendBatch_eq_append happend, happlied]
      subst hnext
      dsimp only
      cases hencode : encodeEvents (call.applied store.memory) with
      | error text => exact .rejected rfl
      | ok payload => exact outcome_commit faults hencode fun h => h.appendBatch happend

theorem outcome_replaceAll (store : FileStore) (faults : ReplaceFaults) {events : List Event}
    (happlied : call.applied store.memory = events) :
    Outcome sha256Hex store call (store.replaceAll sha256Hex faults events) := by
  unfold FileStore.replaceAll
  cases happend : MemoryStore.appendBatch sha256Hex [] events with
  | error err => exact .rejected (commitSucceeded_of_appendBatch happend)
  | ok next =>
    have hnext : next = events := MemoryStore.appendBatch_eq_append happend
    subst hnext
    cases hencode : encodeEvents next with
    | error text => exact .rejected rfl
    | ok payload =>
      split_ifs with hmkdir
      · exact .rejected rfl
      · cases hbackup : backupFile faults.backup store.file with
        | some err => exact .rejected (commitSucceeded_of_backupFile hbackup)
        | none =>
          rw [← happlied] at hencode ⊢
          refine outcome_commit faults.write hencode fun _ => ?_
          exact happlied ▸ wellFormed_nil.appendBatch happend

/-- **A call leaves the store as it was or applies the whole batch**, and its error says
which. -/
theorem outcome_step (sha256Hex : List Char → String) (store : FileStore) (call : Call) :
    Outcome sha256Hex store call (step sha256Hex store call) := by
  cases call with
  | append event faults => exact outcome_appendBatch store faults rfl
  | appendBatch events faults => exact outcome_appendBatch store faults rfl
  | replaceAll events faults => exact outcome_replaceAll store faults rfl

/-! ## Invariants of a run -/

/-- The list in memory is well formed. -/
theorem wellFormed_step (h : WellFormed sha256Hex store.memory)
    (call : Call) : WellFormed sha256Hex (step sha256Hex store call).2.memory := by
  have hout := outcome_step sha256Hex store call
  generalize step sha256Hex store call = result at hout ⊢
  cases hout with
  | rejected _ => exact h
  | empty _ => exact h
  | applied _ _ hwell => exact hwell h

theorem wellFormed_run (h : WellFormed sha256Hex store.memory)
    (calls : List Call) : WellFormed sha256Hex (run sha256Hex store calls).memory := by
  induction calls generalizing store with
  | nil => exact h
  | cons call calls ih => exact ih (wellFormed_step h call)

/-- The file reads back as the list in memory, whose times have whole minutes. -/
def Mirrored (sha256Hex : List Char → String) (store : FileStore) : Prop :=
  WellFormed sha256Hex store.memory ∧ (∀ event ∈ store.memory, event.WholeMinute) ∧
    load sha256Hex store.file = .ok store.memory

theorem mirrored_newFileStore {file : Option (List Char)}
    (h : newFileStore sha256Hex file = .ok store) : Mirrored sha256Hex store := by
  obtain ⟨memory, hload, rfl⟩ := map_eq_ok.mp h
  exact ⟨(wellFormed_of_load hload).1, (wellFormed_of_load hload).2, hload⟩

theorem wholeMinute_applied (hstored : ∀ event ∈ stored, event.WholeMinute)
    (hcall : ∀ event ∈ call.events, event.WholeMinute) :
    ∀ event ∈ call.applied stored, event.WholeMinute := by
  cases call with
  | append event faults => exact List.forall_mem_append.mpr ⟨hstored, hcall⟩
  | appendBatch events faults => exact List.forall_mem_append.mpr ⟨hstored, hcall⟩
  | replaceAll events faults => exact hcall

theorem mirrored_step (h : Mirrored sha256Hex store)
    (hcall : ∀ event ∈ call.events, event.WholeMinute) :
    Mirrored sha256Hex (step sha256Hex store call).2 := by
  obtain ⟨hwell, hwhole, hload⟩ := h
  have hout := outcome_step sha256Hex store call
  generalize step sha256Hex store call = result at hout ⊢
  cases hout with
  | rejected _ => exact ⟨hwell, hwhole, hload⟩
  | empty _ => exact ⟨hwell, hwhole, hload⟩
  | applied _ hencode happlied =>
    have hwhole' := wholeMinute_applied hwhole hcall
    exact ⟨happlied hwell, hwhole', load_encodeEvents_eq hencode (happlied hwell) hwhole'⟩

theorem mirrored_run (h : Mirrored sha256Hex store) {calls : List Call}
    (hcalls : ∀ call ∈ calls, ∀ event ∈ call.events, event.WholeMinute) :
    Mirrored sha256Hex (run sha256Hex store calls) := by
  induction calls generalizing store with
  | nil => exact h
  | cons call calls ih =>
    exact ih (mirrored_step h (hcalls call List.mem_cons_self))
      fun c hc => hcalls c (List.mem_cons_of_mem _ hc)

/-! ## The head determines the log -/

theorem MemoryStore.head_eq_ok (h : WellFormed sha256Hex stored) {head : Head}
    (hhead : MemoryStore.head sha256Hex stored = .ok head) :
    head.seq = stored.length ∧ tip (chain sha256Hex) stored = some head.hash := by
  unfold MemoryStore.head at hhead
  rcases List.eq_nil_or_concat' stored with rfl | ⟨log, last, rfl⟩
  · cases hhead
    exact ⟨rfl, rfl⟩
  · simp only [List.getLast?_append, List.getLast?_singleton, Option.some_or] at hhead
    obtain ⟨hash, hhash, rfl⟩ := map_eq_ok.mp hhead
    refine ⟨?_, ?_⟩
    · rw [List.length_append]
      exact h.1.linked.1
    · rw [tip_concat]
      exact toOption_eq_some.mpr hhash

/-- **Logs with one head agree** on every event, up to signatures. -/
theorem agree_of_head_eq (hsha : Function.Injective sha256Hex) {stored' : List Event}
    (h : WellFormed sha256Hex stored) (h' : WellFormed sha256Hex stored') {head : Head}
    (hhead : MemoryStore.head sha256Hex stored = .ok head)
    (hhead' : MemoryStore.head sha256Hex stored' = .ok head) :
    List.Forall₂ Event.Agree stored stored' := by
  obtain ⟨hlength, htip⟩ := MemoryStore.head_eq_ok h hhead
  obtain ⟨hlength', htip'⟩ := MemoryStore.head_eq_ok h' hhead'
  refine forall₂_of_tip_eq (F := chain sha256Hex) ?_ ?_ h.1 h'.1 ?_ htip htip'
  · intro e e' d hd hd'
    obtain ⟨text, htext, hd⟩ := map_eq_ok.mp (toOption_eq_some.mp hd)
    obtain ⟨text', htext', hd'⟩ := map_eq_ok.mp (toOption_eq_some.mp hd')
    rw [← hd'] at hd
    rw [← hsha hd] at htext'
    exact agree_of_signingBytes_eq htext htext'
  · intro e e' hagree
    exact hagree.prevHash
  · omega

/-! ## Integrity -/

/-- Positions `1..n`, an empty first back link, and the hash of the event before in
every other. -/
structure Intact (sha256Hex : List Char → String) (stored : List Event) : Prop where
  seq : ∀ i (hi : i < stored.length), stored[i].seq = i + 1
  first : ∀ h : 0 < stored.length, stored[0].prevHash = ""
  link : ∀ i (hi : i + 1 < stored.length), stored[i].hash sha256Hex = .ok stored[i + 1].prevHash

theorem WellFormed.intact (h : WellFormed sha256Hex stored) : Intact sha256Hex stored where
  seq := h.1.seq_eq
  first := h.1.prev_zero
  link := fun i hi => toOption_eq_some.mp (h.1.prev_succ i hi)

/-- The call failed and says that nothing was committed. -/
def Failed (err : Option StoreError) : Prop := ∃ e, err = some e ∧ commitSucceeded e = false

/-- A call that failed did nothing; any other applied its whole batch. -/
theorem step_all_or_nothing (store : FileStore) (call : Call) :
    (Failed (step sha256Hex store call).1 → (step sha256Hex store call).2 = store) ∧
      (¬ Failed (step sha256Hex store call).1 →
        (step sha256Hex store call).2.memory = call.applied store.memory) := by
  have hout := outcome_step sha256Hex store call
  generalize step sha256Hex store call = result at hout ⊢
  cases hout with
  | rejected herr => exact ⟨fun _ => rfl, fun h => absurd ⟨_, rfl, herr⟩ h⟩
  | empty hempty => exact ⟨fun _ => rfl, fun _ => hempty.symm⟩
  | applied herr _ _ =>
    refine ⟨?_, fun _ => rfl⟩
    rintro ⟨e, he, hfalse⟩
    rw [herr e he] at hfalse
    cases hfalse

/-- **Integrity of the config log.** After any run of calls, whatever steps fail in
them: the log is intact; the next call is all or nothing; the file reads back as the
list in memory, if the events brought have zone offsets of whole minutes; and a store
with the same head holds the same log up to signatures. -/
theorem fileStore_run_integrity (hsha : Function.Injective sha256Hex)
    {file : Option (List Char)} {store : FileStore}
    (hopen : newFileStore sha256Hex file = .ok store) (calls : List Call) :
    Intact sha256Hex (run sha256Hex store calls).memory ∧
    (∀ call,
      (Failed (step sha256Hex (run sha256Hex store calls) call).1 →
        (step sha256Hex (run sha256Hex store calls) call).2 = run sha256Hex store calls) ∧
      (¬ Failed (step sha256Hex (run sha256Hex store calls) call).1 →
        (step sha256Hex (run sha256Hex store calls) call).2.memory
          = call.applied (run sha256Hex store calls).memory)) ∧
    ((∀ call ∈ calls, ∀ event ∈ call.events, event.WholeMinute) →
      load sha256Hex (run sha256Hex store calls).file
        = .ok (run sha256Hex store calls).memory) ∧
    (∀ (file' : Option (List Char)) (store' : FileStore) (calls' : List Call) (head : Head),
      newFileStore sha256Hex file' = .ok store' →
      MemoryStore.head sha256Hex (run sha256Hex store calls).memory = .ok head →
      MemoryStore.head sha256Hex (run sha256Hex store' calls').memory = .ok head →
      (run sha256Hex store calls).memory.length = (run sha256Hex store' calls').memory.length ∧
      List.Forall₂ Event.Agree (run sha256Hex store calls).memory
        (run sha256Hex store' calls').memory) := by
  have hstart := mirrored_newFileStore hopen
  have hwell := wellFormed_run hstart.1 calls
  refine ⟨hwell.intact, step_all_or_nothing _, ?_, ?_⟩
  · intro hwhole
    exact (mirrored_run hstart hwhole).2.2
  · intro file' store' calls' head hopen' hhead hhead'
    have hwell' := wellFormed_run (mirrored_newFileStore hopen').1 calls'
    have hagree := agree_of_head_eq hsha hwell hwell' hhead hhead'
    exact ⟨hagree.length_eq, hagree⟩

/-- An event created in a zone `offset` seconds east of UTC. -/
def eventInZone (offset : ℤ) (seq : ℕ) (prevHash : String) : Event :=
  let noon : GoTime.Time :=
    { date := ⟨2024, 5, 17, GoTime.may_range, by decide⟩
      hour := 12
      minute := 0
      second := 0
      nano := 0
      offset := offset
      hour_lt := GoTime.noon_lt
      minute_lt := GoTime.zero_lt_minute
      second_lt := GoTime.zero_lt_minute
      nano_lt := GoTime.zero_lt_second }
  ⟨"lab", "e", seq, prevHash, "/domain/trust", actionUpsert, some [], "ix-a", some [1], noon,
    noon, []⟩

/-- A run whose only write is committed without its directory being synced. -/
theorem fileStore_run_integrity_unsynced :
    let store := run String.ofList ⟨none, []⟩
      [.append (eventInZone 3600 1 "") { noFaults with syncDirectory := true }]
    store.memory.length = 1 ∧ load String.ofList store.file = .ok store.memory := by
  refine ⟨by decide +kernel, ?_⟩
  have hinjective : Function.Injective String.ofList := fun _ _ h => String.ofList_injective h
  refine (@fileStore_run_integrity String.ofList hinjective none ⟨none, []⟩ rfl _).2.2.1 ?_
  intro call hcall event hevent
  rw [List.mem_singleton] at hcall
  subst hcall
  rw [Call.events, List.mem_singleton] at hevent
  subst hevent
  decide

def firstEvent : Event := eventInZone 30 1 ""

def secondEvent : Event :=
  eventInZone 30 2 ((firstEvent.hash String.ofList).toOption.getD "")

/-- An append in which no step fails. -/
theorem step_append_noFaults {store : FileStore} {event : Event} {text : List Char}
    (happend : MemoryStore.appendEvent sha256Hex store.memory event = .ok (store.memory ++ [event]))
    (hencode : encodeEvents (store.memory ++ [event]) = .ok text) :
    step sha256Hex store (.append event noFaults) =
      (none, ⟨some text, store.memory ++ [event]⟩) := by
  have hbatch : MemoryStore.appendBatch sha256Hex store.memory [event] =
      .ok (store.memory ++ [event]) := by
    rw [MemoryStore.appendBatch, List.foldlM_cons, happend, ok_bind]
    rfl
  show FileStore.appendBatch sha256Hex store noFaults [event] = _
  rw [FileStore.appendBatch, if_neg (by simp), hbatch]
  simp only [hencode]
  rfl

/-- An event that does not link to the last one is refused. -/
theorem appendEvent_mismatch {log : List Event} {last event : Event} {hash : String}
    (hvalid : event.validateBasic = .ok ()) (hseq : event.seq = log.length + 2)
    (hhash : last.hash sha256Hex = .ok hash) (hprev : event.prevHash ≠ hash) :
    MemoryStore.appendEvent sha256Hex (log ++ [last]) event =
      .error (.conflict "prev_hash mismatch") := by
  have hlength : ¬ event.seq ≠ (log ++ [last]).length + 1 := by
    rw [hseq, List.length_append, List.length_singleton]
    omega
  rw [MemoryStore.appendEvent, hvalid, Except.mapError, ok_bind, if_neg hlength]
  simp only [List.getLast?_concat, hhash, Except.mapError, ok_bind, if_pos hprev]

theorem run_cons {next : FileStore} {err : Option StoreError}
    (h : step sha256Hex store call = (err, next)) (calls : List Call) :
    run sha256Hex store (call :: calls) = run sha256Hex next calls := by
  rw [run, List.foldl_cons, h]
  rfl

theorem appendEvent_firstEvent :
    MemoryStore.appendEvent String.ofList [] firstEvent = .ok [firstEvent] :=
  MemoryStore.appendEvent_eq_ok.mpr ⟨rfl, ⟨rfl, rfl⟩, rfl⟩

theorem hash_firstEvent : firstEvent.hash String.ofList = .ok secondEvent.prevHash := rfl

theorem appendEvent_secondEvent :
    MemoryStore.appendEvent String.ofList [firstEvent] secondEvent =
      .ok [firstEvent, secondEvent] :=
  MemoryStore.appendEvent_eq_ok.mpr
    ⟨by decide +kernel, ⟨rfl, toOption_eq_some.mpr hash_firstEvent⟩, rfl⟩

/-- The signed text of the first event says `+00:00`, and says `Z` once it was read back. -/
theorem hash_reload_firstEvent {hash : String}
    (h : firstEvent.reload.hash String.ofList = .ok hash) : secondEvent.prevHash ≠ hash := by
  intro heq
  obtain ⟨text, htext, rfl⟩ := map_eq_ok.mp h
  obtain ⟨text', htext', heq'⟩ := map_eq_ok.mp (hash_firstEvent.trans (congrArg _ heq))
  obtain rfl := String.ofList_injective heq'
  have hcreated := (agree_of_signingBytes_eq htext' htext).createdAt
  revert hcreated
  decide

/-- A zone offset with seconds is lost in the file: the first event reads back with
another JSON form, so its hash is not the one the second event carries. -/
theorem seconds_of_zone_break_reload :
    let store := run String.ofList ⟨none, []⟩
      [.append firstEvent noFaults, .append secondEvent noFaults]
    store.memory = [firstEvent, secondEvent] ∧
      load String.ofList store.file = .error (.conflict "prev_hash mismatch") := by
  obtain ⟨line, hline⟩ : ∃ text, encodeEvents [firstEvent] = .ok text := ⟨_, rfl⟩
  obtain ⟨text, htext⟩ : ∃ text, encodeEvents [firstEvent, secondEvent] = .ok text := ⟨_, rfl⟩
  obtain ⟨hash, hhash⟩ : ∃ hash, firstEvent.reload.hash String.ofList = .ok hash := ⟨_, rfl⟩
  have hstep₁ : step String.ofList ⟨none, []⟩ (.append firstEvent noFaults) =
      (none, ⟨some line, [firstEvent]⟩) :=
    @step_append_noFaults _ ⟨none, []⟩ _ _ appendEvent_firstEvent hline
  have hstep₂ : step String.ofList ⟨some line, [firstEvent]⟩ (.append secondEvent noFaults) =
      (none, ⟨some text, [firstEvent, secondEvent]⟩) :=
    @step_append_noFaults _ ⟨some line, [firstEvent]⟩ _ _ appendEvent_secondEvent htext
  have hrun : run String.ofList ⟨none, []⟩
      [.append firstEvent noFaults, .append secondEvent noFaults] =
        ⟨some text, [firstEvent, secondEvent]⟩ := by
    rw [run_cons hstep₁, run_cons hstep₂]
    rfl
  have happend : MemoryStore.appendEvent String.ofList [] firstEvent.reload =
      .ok [firstEvent.reload] :=
    MemoryStore.appendEvent_eq_ok.mpr ⟨by decide +kernel, ⟨rfl, rfl⟩, rfl⟩
  rw [hrun]
  refine ⟨rfl, ?_⟩
  have hmismatch : MemoryStore.appendEvent String.ofList [firstEvent.reload] secondEvent.reload =
      .error (.conflict "prev_hash mismatch") :=
    @appendEvent_mismatch _ [] _ _ _ (by decide +kernel) rfl hhash (hash_reload_firstEvent hhash)
  rw [load_encodeEvents htext, MemoryStore.appendBatch, List.map_cons, List.foldlM_cons, happend,
    ok_bind, List.map_cons, List.foldlM_cons, hmismatch]
  rfl

end ConfigStore
