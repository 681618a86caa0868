/-
# Synchronising the kernel's tables

`syncKernelDatapathStateLocked` brings the tables of a loaded kernel module to the routes,
sessions, wires and flows that the daemon wants.  It writes the wanted records over what is there
and compares numbers of entries; the tables are cleared only if the numbers still differ.

* `syncLocked_establishes_iff` : the tables are right whenever it returns without an error, and one
  of two calls does so, exactly if the first call clears the tables or if the wanted records fit
  beside the present ones and tables of the right sizes have the right keys;
* `stale_flow_and_full_table` : a stale key stays, and a full table is never repaired.
-/
import TrustIX.KeyedTable
import TrustIX.Stateful

namespace KernelSync

open Stateful

/-! ## The kernel -/

/-- The kinds of records. -/
inductive Kind where
  | route
  | session
  | flow
  | sessionWire
  | sessionCrypto
  deriving DecidableEq

abbrev Key := Vector UInt64 4

structure Value where
  flags : UInt32
  words : Vector UInt64 8
  deriving DecidableEq

structure Upsert where
  kind : Kind
  key : Key
  value : Value

/-- `DatapathStateRecord`, for the operations that a synchronisation uses. -/
inductive Record where
  | upsert (record : Upsert)
  | clear (kind : Kind)

/-- The tables, none of them larger than its capacity. -/
structure Kernel (cap : Kind → ℕ) where
  table : Kind → Table Key Value
  bounded : ∀ kind, (table kind).size ≤ cap kind

variable {cap : Kind → ℕ}

variable {kernel : Kernel cap}

namespace Kernel

/-- One table replaced. -/
def set (kernel : Kernel cap) (kind : Kind) (t : Table Key Value) (h : t.size ≤ cap kind) :
    Kernel cap where
  table := Function.update kernel.table kind t
  bounded other := by
    by_cases hkind : other = kind
    · subst hkind
      rw [Function.update_self]
      exact h
    · rw [Function.update_of_ne hkind]
      exact kernel.bounded other

@[simp] theorem set_table (kernel : Kernel cap) (kind : Kind) (t : Table Key Value)
    (h : t.size ≤ cap kind) : (kernel.set kind t h).table = Function.update kernel.table kind t := rfl

theorem size_insert_le_cap {record : Upsert}
    (h : record.key ∈ kernel.table record.kind ∨ (kernel.table record.kind).size < cap record.kind) :
    Table.size (AList.insert record.key record.value (kernel.table record.kind)) ≤
      cap record.kind := by
  by_cases hmem : record.key ∈ kernel.table record.kind
  · rw [Table.size_insert_of_mem hmem]
    exact kernel.bounded record.kind
  · rw [Table.size_insert_of_not_mem hmem]
    exact h.resolve_left hmem

/-- `trustix_datapath_state_apply_to_table`: a new key needs a free slot. -/
def apply (kernel : Kernel cap) : Record → Option (Kernel cap)
  | .clear kind => some (kernel.set kind ∅ (Nat.zero_le _))
  | .upsert record =>
    if h : record.key ∈ kernel.table record.kind ∨
        (kernel.table record.kind).size < cap record.kind then
      some (kernel.set record.kind
        (AList.insert record.key record.value (kernel.table record.kind)) (size_insert_le_cap h))
    else none

/-- The numbers of entries. -/
def sizes (kernel : Kernel cap) (kind : Kind) : ℕ := (kernel.table kind).size

end Kernel

/-- A failure that has nothing to do with the capacities: how many records of a batch are applied
before it, and whether their number is reported. -/
structure Fault where
  after : ℕ
  reported : Bool
  err : String

/-- The loop over a batch in the kernel: how many records were applied, and the error that ended
it. -/
def runBatch : List Record → Option Fault → Kernel cap → (ℕ × Option String) × Kernel cap
  | [], fault, kernel => ((0, fault.map (·.err)), kernel)
  | record :: rest, fault, kernel =>
    if fault.any (·.after = 0) then ((0, fault.map (·.err)), kernel)
    else
      match kernel.apply record with
      | none => ((0, some "no space left on device"), kernel)
      | some kernel =>
        let (result, kernel) :=
          runBatch rest (fault.map fun f => { f with after := f.after - 1 }) kernel
        ((result.1 + 1, result.2), kernel)

/-! ## The daemon -/

/-- The tables, whether the daemon has set them up, and what goes wrong at each of the next calls
to the outside. -/
structure System (cap : Kind → ℕ) where
  kernel : Kernel cap
  initialized : Bool
  faults : List (Option Fault)

abbrev SyncM (cap : Kind → ℕ) := ExceptT String (StateM (System cap))

def nextFault : SyncM cap (Option Fault) :=
  modifyGet fun s => (s.faults.headD none, { s with faults := s.faults.tail })

/-- A call that does nothing here unless it fails. -/
def attempt (context : String) : SyncM cap Unit := do
  match ← nextFault with
  | none => pure ()
  | some fault => throw (context ++ fault.err)

/-- `kernelDatapathStateStatsQuery`; the capacities are those of the tables. -/
def stateStatsQuery (context : String) : SyncM cap (Kind → ℕ) := do
  attempt context
  let s ← get
  pure s.kernel.sizes

/-- `kernelDatapathApplyStateBatch`. -/
def applyStateBatch (records : List Record) : SyncM cap (ℕ × Option String) := do
  let fault ← nextFault
  let (applied, err) ← modifyGet fun s =>
    let (result, kernel) := runBatch records fault s.kernel
    (result, { s with kernel := kernel })
  pure (if fault.any (!·.reported) then 0 else applied, err)

def stateBatchMax : ℕ := 4096

/-- What is left of the records after a batch of the first `limit` ones, unless the loop ends. -/
def remaining (total limit applied : ℕ) (err : Option String) (records : List Record) :
    Except String (List Record) :=
  if applied > limit then
    .error ("apply kernel datapath state returned invalid applied count " ++ toString applied ++
      " for batch of " ++ toString limit)
  else
    match err with
    | some err =>
      if applied = 0 then
        .error ("apply kernel datapath state after " ++ toString (total - records.length) ++
          " of " ++ toString total ++ " records: " ++ err)
      else .ok (records.drop applied)
    | none =>
      if applied ≠ limit then
        .error ("apply kernel datapath state applied " ++ toString applied ++ " of " ++
          toString limit ++ " records without an error")
      else .ok (records.drop limit)

/-- `applyKernelDatapathStateRecords`, for as many batches as `fuel`. -/
def applyLoop (total : ℕ) : ℕ → List Record → SyncM cap Unit
  | 0, records => if records = [] then pure () else throw "out of fuel"
  | fuel + 1, records =>
    if records = [] then pure ()
    else do
      attempt ""
      let limit := min records.length stateBatchMax
      let (applied, err) ← applyStateBatch (records.take limit)
      match remaining total limit applied err records with
      | .error err => throw err
      | .ok rest => applyLoop total fuel rest

def applyRecords (records : List Record) : SyncM cap Unit :=
  applyLoop records.length records.length records

/-- What the daemon wants; there are crypto records only if the module has that table. -/
structure Desired where
  upserts : List Upsert
  cryptoReady : Bool
  cryptoOnly : cryptoReady = false → ∀ record ∈ upserts, record.kind ≠ .sessionCrypto

namespace Desired

/-- The records of a kind. -/
def ofKind (upserts : List Upsert) (kind : Kind) : List (Key × Value) :=
  (upserts.filter (·.kind = kind)).map fun record => (record.key, record.value)

/-- `kernelDatapathStateRecordCounts`: each key counts once. -/
def count (desired : Desired) (kind : Kind) : ℕ :=
  ((ofKind desired.upserts kind).map Prod.fst).dedup.length

/-- `kernelDatapathStateClearRecords`. -/
def clearRecords (desired : Desired) : List Record :=
  [.clear .route, .clear .session, .clear .sessionWire, .clear .flow] ++
    if desired.cryptoReady then [.clear .sessionCrypto] else []

def upsertRecords (desired : Desired) : List Record := desired.upserts.map .upsert

end Desired

/-- The kinds whose entries are counted. -/
def countedKinds : List Kind := [.route, .session, .flow, .sessionWire]

/-- `kernelDatapathStateCountsMatch`. -/
def countsMatch (stats : Kind → ℕ) (desired : Desired) : Bool :=
  countedKinds.all fun kind => stats kind = desired.count kind

/-- `validateKernelDatapathStateCapacity`. -/
def exceedsCapacity (cap : Kind → ℕ) (desired : Desired) : Bool :=
  desired.count .route > cap .route || desired.count .session > cap .session ||
    desired.count .flow > cap .flow ||
    (cap .sessionWire > 0 && desired.count .sessionWire > cap .sessionWire)

def ratio (desired : Desired) (cap : Kind → ℕ) (kind : Kind) : String :=
  toString (desired.count kind) ++ "/" ++ toString (cap kind)

/-- An error with a text before it. -/
def wrapError {α : Type} (context : String) (x : SyncM cap α) : SyncM cap α :=
  tryCatch x fun err => throw (context ++ err)

/-- All tables cleared and written. -/
def resetState (desired : Desired) : SyncM cap Unit := do
  tryCatch (applyRecords (desired.clearRecords ++ desired.upsertRecords)) fun err => do
    modify fun s => { s with initialized := false }
    throw ("reset kernel datapath state: " ++ err)
  modify fun s => { s with initialized := true }

/-- The tables written over; the result says whether they have to be cleared. -/
def repairState (desired : Desired) : SyncM cap Bool := do
  wrapError "repair kernel datapath state without clearing live tables: "
    (applyRecords desired.upsertRecords)
  let refreshed ← stateStatsQuery
    "re-query kernel datapath state after non-destructive repair: "
  pure !(countsMatch refreshed desired)

/-- Whether the tables have to be cleared; if not, they have been written over. -/
def upsertOrRepair (stats : Kind → ℕ) (desired : Desired) : SyncM cap Bool := do
  let s ← get
  if !s.initialized then pure true
  else if countsMatch stats desired then do
    applyRecords desired.upsertRecords
    pure false
  else repairState desired

def resetIf (reset : Bool) (desired : Desired) : SyncM cap Unit :=
  if reset then resetState desired else pure ()

/-- `syncKernelDatapathStateLocked` with the module loaded. -/
def syncLocked (desired : Desired) : SyncM cap Unit := do
  attempt ""
  let stats ← stateStatsQuery "query kernel datapath state capacity: "
  rejectWhen (cap .route = 0 ∨ cap .session = 0 ∨ cap .flow = 0)
    ("kernel datapath reported invalid state capacity routes=" ++ toString (cap .route) ++
      " sessions=" ++ toString (cap .session) ++ " flows=" ++ toString (cap .flow))
  attempt ""
  rejectWhen (exceedsCapacity cap desired)
    ("kernel datapath desired state exceeds capacity routes=" ++ ratio desired cap .route ++
      " sessions=" ++ ratio desired cap .session ++ " flows=" ++ ratio desired cap .flow ++
      " session_wires=" ++ ratio desired cap .sessionWire)
  let reset ← upsertOrRepair stats desired
  resetIf reset desired
  attempt "release retired tix_tcp crypto states after full kernel datapath sync: "

/-! ## Batches -/

/-- The records applied one after the other, all of them. -/
def applyAll (records : List Record) (kernel : Kernel cap) : Option (Kernel cap) :=
  records.foldlM Kernel.apply kernel

theorem applyAll_append (first second : List Record) (kernel : Kernel cap) :
    applyAll (first ++ second) kernel = (applyAll first kernel).bind (applyAll second) :=
  List.foldlM_append

theorem applyAll_take_drop (n : ℕ) (records : List Record) (kernel : Kernel cap) :
    applyAll records kernel = (applyAll (records.take n) kernel).bind (applyAll (records.drop n)) := by
  rw [← applyAll_append, List.take_append_drop]

variable {records : List Record} {after : Kernel cap} {err : Option String} {n : ℕ}

/-- **A batch** applies the records that it reports, and all of them if it reports no error. -/
theorem runBatch_spec {fault : Option Fault}
    (h : runBatch records fault kernel = ((n, err), after)) :
    n ≤ records.length ∧ applyAll (records.take n) kernel = some after ∧
      (err = none → n = records.length) := by
  induction records generalizing fault kernel n with
  | nil =>
    cases h
    exact ⟨le_rfl, rfl, fun _ => rfl⟩
  | cons record rest ih =>
    unfold runBatch at h
    split_ifs at h with hnow
    · obtain ⟨f, rfl, -⟩ := (Option.any_eq_true _ _).mp hnow
      cases h
      exact ⟨Nat.zero_le _, rfl, nofun⟩
    · cases happly : kernel.apply record with
      | none =>
        rw [happly] at h
        cases h
        exact ⟨Nat.zero_le _, rfl, nofun⟩
      | some next =>
        rcases hrest : runBatch rest (fault.map fun f => { f with after := f.after - 1 }) next with
          ⟨⟨m, err'⟩, last⟩
        simp only [happly, hrest] at h
        cases h
        obtain ⟨hle, hall, hfull⟩ := ih hrest
        refine ⟨by simpa using hle, ?_, fun herr => by simpa using hfull herr⟩
        show (kernel.apply record).bind _ = _
        rw [happly]
        exact hall

/-- A batch that nothing disturbs goes on until a table is full. -/
theorem runBatch_none (h : runBatch records none kernel = ((n, err), after)) :
    err = none ∨ ∃ record rest, records.drop n = record :: rest ∧ after.apply record = none := by
  induction records generalizing kernel n with
  | nil =>
    cases h
    exact .inl rfl
  | cons record rest ih =>
    unfold runBatch at h
    cases happly : kernel.apply record with
    | none =>
      simp only [happly] at h
      cases h
      exact .inr ⟨record, rest, rfl, happly⟩
    | some next =>
      rcases hrest : runBatch rest none next with ⟨⟨m, err'⟩, last⟩
      simp only [happly, Option.map_none, hrest] at h
      cases h
      exact ih hrest

/-! ## Lists of records -/

variable {s s' : System cap}

variable {context : String}

theorem attempt_ok (h : outcome (attempt context) s = (.ok (), s')) :
    s'.kernel = s.kernel ∧ s'.initialized = s.initialized := by
  obtain ⟨fault, s₁, hfault, hrest⟩ := outcome_bind_eq_ok.mp h
  cases hfault
  cases hhead : s.faults.headD none with
  | none =>
    rw [hhead] at hrest
    cases hrest
    exact ⟨rfl, rfl⟩
  | some fault =>
    rw [hhead] at hrest
    cases hrest

theorem outcome_attempt_nil (context : String) (kernel : Kernel cap) (initialized : Bool) :
    outcome (attempt context) ⟨kernel, initialized, []⟩ =
      (.ok (), (⟨kernel, initialized, []⟩ : System cap)) := rfl

theorem applyStateBatch_ok {applied : ℕ}
    (h : outcome (applyStateBatch records) s = (.ok (applied, err), s')) :
    ∃ n ≤ records.length, (applied = n ∨ applied = 0) ∧ (err = none → n = records.length) ∧
      applyAll (records.take n) s.kernel = some s'.kernel ∧ s'.initialized = s.initialized := by
  obtain ⟨fault, s₁, hfault, hrest⟩ := outcome_bind_eq_ok.mp h
  cases hfault
  rcases hrun : runBatch records (s.faults.headD none) s.kernel with ⟨⟨n, err'⟩, after⟩
  obtain ⟨hle, hall, hfull⟩ := runBatch_spec hrun
  obtain ⟨result, s₂, hresult, hlast⟩ := outcome_bind_eq_ok.mp hrest
  rw [outcome_modifyGet, hrun] at hresult
  cases hresult
  cases hlast
  refine ⟨n, hle, ?_, hfull, hall, rfl⟩
  split_ifs
  · exact .inr rfl
  · exact .inl rfl

theorem applyStateBatch_undisturbed {next : Kernel cap} {initialized : Bool}
    (h : runBatch records none kernel = ((n, err), next)) :
    outcome (applyStateBatch records) ⟨kernel, initialized, []⟩ =
      (.ok (n, err), ⟨next, initialized, []⟩) := by
  have heq : outcome (applyStateBatch records) ⟨kernel, initialized, []⟩ =
      (.ok (runBatch records none kernel).1, ⟨(runBatch records none kernel).2, initialized, []⟩) :=
    rfl
  rw [heq, h]

theorem remaining_eq_ok {total limit applied : ℕ} {rest : List Record} :
    remaining total limit applied err records = .ok rest ↔
      rest = records.drop applied ∧ applied ≤ limit ∧ (err = none → applied = limit) ∧
        (err ≠ none → applied ≠ 0) := by
  unfold remaining
  by_cases hlimit : applied > limit
  · rw [if_pos hlimit]
    simp
    omega
  · rw [if_neg hlimit]
    cases err with
    | none =>
      by_cases happlied : applied = limit
      · simp [happlied, eq_comm]
      · simp [happlied]
    | some err =>
      by_cases happlied : applied = 0
      · simp [happlied]
      · simp only [happlied, if_false, Except.ok.injEq, eq_comm]
        simp
        omega

/-- **A loop that returns without an error** has applied all records. -/
theorem applyLoop_ok {total fuel : ℕ} (h : outcome (applyLoop total fuel records) s = (.ok (), s')) :
    applyAll records s.kernel = some s'.kernel ∧ s'.initialized = s.initialized := by
  induction fuel generalizing records s with
  | zero =>
    unfold applyLoop at h
    split_ifs at h with hnil
    · cases h
      exact ⟨hnil ▸ rfl, rfl⟩
    · cases h
  | succ fuel ih =>
    unfold applyLoop at h
    split_ifs at h with hnil
    · cases h
      exact ⟨hnil ▸ rfl, rfl⟩
    · obtain ⟨_, s₁, hattempt, hrest⟩ := outcome_bind_eq_ok.mp h
      obtain ⟨⟨applied, err⟩, s₂, hbatch, hlast⟩ := outcome_bind_eq_ok.mp hrest
      obtain ⟨hkernel₁, hinit₁⟩ := attempt_ok hattempt
      obtain ⟨n, hn, happlied, hfull, hall, hinit₂⟩ := applyStateBatch_ok hbatch
      dsimp only at hlast
      cases hremaining : remaining total (min records.length stateBatchMax) applied err records with
      | error err =>
        rw [hremaining] at hlast
        cases hlast
      | ok rest =>
        rw [hremaining] at hlast
        obtain ⟨rfl, hlimit, hok, herr⟩ := remaining_eq_ok.mp hremaining
        obtain ⟨htail, hinit₃⟩ := ih hlast
        -- the number that is reported is the number of records applied
        have hsame : n = applied := by
          cases err with
          | none =>
            have := hfull rfl
            rw [List.length_take] at this
            have := hok rfl
            omega
          | some err => exact (happlied.resolve_right (herr nofun)).symm
        subst hsame
        rw [List.take_take, min_eq_left hlimit, hkernel₁] at hall
        refine ⟨?_, by rw [hinit₃, hinit₂, hinit₁]⟩
        rw [applyAll_take_drop n, hall]
        exact htail

/-- **Without disturbances** the loop ends with an error only if a table is full. -/
theorem applyLoop_undisturbed {total fuel : ℕ} (kernel : Kernel cap) (initialized : Bool)
    (hfuel : records.length ≤ fuel) :
    (∃ after, applyAll records kernel = some after ∧
        outcome (applyLoop total fuel records) ⟨kernel, initialized, []⟩ =
          (.ok (), ⟨after, initialized, []⟩)) ∨
      (applyAll records kernel = none ∧ ∃ err n after,
        applyAll (records.take n) kernel = some after ∧
          outcome (applyLoop total fuel records) ⟨kernel, initialized, []⟩ =
            (.error err, ⟨after, initialized, []⟩)) := by
  induction fuel generalizing records kernel with
  | zero =>
    obtain rfl := List.length_eq_zero_iff.mp (Nat.le_zero.mp hfuel)
    exact .inl ⟨kernel, rfl, rfl⟩
  | succ fuel ih =>
    by_cases hnil : records = []
    · subst hnil
      exact .inl ⟨kernel, rfl, rfl⟩
    have hpos : 0 < min records.length stateBatchMax :=
      lt_min (List.length_pos_iff.mpr hnil) (by decide)
    rcases hrun : runBatch (records.take (min records.length stateBatchMax)) none kernel with
      ⟨⟨n, err⟩, next⟩
    obtain ⟨hle, hall, hfull⟩ := runBatch_spec hrun
    rw [List.length_take, min_eq_left (min_le_left _ _)] at hle hfull
    rw [List.take_take, min_eq_left hle] at hall
    have hloop : outcome (applyLoop total (fuel + 1) records) ⟨kernel, initialized, []⟩ =
        outcome (match remaining total (min records.length stateBatchMax) n err records with
          | .error err => throw err
          | .ok rest => applyLoop total fuel rest) ⟨next, initialized, []⟩ := by
      rw [applyLoop, if_neg hnil, outcome_bind_of_ok (outcome_attempt_nil _ _ _),
        outcome_bind_of_ok (applyStateBatch_undisturbed hrun)]
    rw [hloop]
    cases hremaining : remaining total (min records.length stateBatchMax) n err records with
    | ok rest =>
      obtain ⟨rfl, -, hok, herr⟩ := remaining_eq_ok.mp hremaining
      have hn : n ≠ 0 := by
        cases err with
        | none =>
          have := hok rfl
          omega
        | some err => exact herr nofun
      have hrest : (records.drop n).length ≤ fuel := by
        rw [List.length_drop]
        omega
      rw [applyAll_take_drop n records kernel, hall]
      rcases ih next hrest with ⟨after, hafter, hout⟩ | ⟨hnone, err', m, after, hafter, hout⟩
      · exact .inl ⟨after, hafter, hout⟩
      · refine .inr ⟨hnone, err', n + m, after, ?_, hout⟩
        rw [List.take_add, applyAll_append, hall]
        exact hafter
    | error err' =>
      -- nothing was applied, and nothing but the capacity can be the reason
      have herr : err ≠ none ∧ n = 0 := by
        by_contra hcontra
        have hok : remaining total (min records.length stateBatchMax) n err records =
            .ok (records.drop n) :=
          remaining_eq_ok.mpr ⟨rfl, hle, hfull, fun hne hzero => hcontra ⟨hne, hzero⟩⟩
        rw [hremaining] at hok
        cases hok
      obtain ⟨record, rest, hdrop, happly⟩ := (runBatch_none hrun).resolve_left herr.1
      obtain ⟨-, rfl⟩ := herr
      cases hall
      refine .inr ⟨?_, err', 0, kernel, rfl, rfl⟩
      rw [applyAll_take_drop (min records.length stateBatchMax)]
      rw [List.drop_zero] at hdrop
      rw [hdrop]
      show ((kernel.apply record).bind _).bind _ = none
      rw [happly]
      rfl

/-! ## What upserts and clears leave -/

open Desired

theorem ofKind_cons (record : Upsert) (rest : List Upsert) (kind : Kind) :
    ofKind (record :: rest) kind =
      if record.kind = kind then (record.key, record.value) :: ofKind rest kind
      else ofKind rest kind := by
  unfold ofKind
  split_ifs with h
  · rw [List.filter_cons_of_pos (by simpa using h), List.map_cons]
  · rw [List.filter_cons_of_neg (by simpa using h)]

/-- The tables have room for the records beside what they have. -/
def Fits (kernel : Kernel cap) (upserts : List Upsert) : Prop :=
  ∀ kind, ((kernel.table kind).write (ofKind upserts kind)).size ≤ cap kind

theorem Kernel.apply_upsert_table {record : Upsert} (h : kernel.apply (.upsert record) = some after)
    (kind : Kind) (rest : List Upsert) :
    (after.table kind).write (ofKind rest kind) =
      (kernel.table kind).write (ofKind (record :: rest) kind) := by
  simp only [Kernel.apply] at h
  split_ifs at h
  cases h
  rw [ofKind_cons]
  split_ifs with hkind
  · subst hkind
    rw [Kernel.set_table, Function.update_self, Table.write_cons]
  · rw [Kernel.set_table, Function.update_of_ne (Ne.symm hkind)]

variable {upserts : List Upsert}

/-- **Upserts** are writes to the tables of their kinds. -/
theorem applyAll_table
    (h : applyAll (upserts.map .upsert) kernel = some after) (kind : Kind) :
    after.table kind = (kernel.table kind).write (ofKind upserts kind) := by
  induction upserts generalizing kernel with
  | nil =>
    cases h
    rfl
  | cons record rest ih =>
    obtain ⟨next, hnext, hrest⟩ := Option.bind_eq_some_iff.mp h
    rw [ih hrest, Kernel.apply_upsert_table hnext]

/-- **Upserts go through** if the tables have room for them. -/
theorem applyAll_isSome_iff :
    (applyAll (upserts.map .upsert) kernel).isSome ↔ Fits kernel upserts := by
  constructor
  · intro h kind
    obtain ⟨after, hafter⟩ := Option.isSome_iff_exists.mp h
    rw [← applyAll_table hafter]
    exact after.bounded kind
  · intro h
    induction upserts generalizing kernel with
    | nil => rfl
    | cons record rest ih =>
      have hroom : record.key ∈ kernel.table record.kind ∨
          (kernel.table record.kind).size < cap record.kind := by
        by_contra hcontra
        rw [not_or] at hcontra
        have hfits := h record.kind
        rw [ofKind_cons, if_pos rfl, Table.write_cons] at hfits
        have hle := (Table.size_le_write _ _).trans hfits
        rw [Table.size_insert_of_not_mem hcontra.1] at hle
        exact hcontra.2 hle
      obtain ⟨next, hnext⟩ : ∃ next, kernel.apply (.upsert record) = some next := ⟨_, dif_pos hroom⟩
      show ((kernel.apply (.upsert record)).bind (applyAll (rest.map .upsert))).isSome
      rw [hnext]
      refine ih fun kind => ?_
      rw [Kernel.apply_upsert_table hnext]
      exact h kind

/-- Some of the records do not change whether all of them fit. -/
theorem fits_of_take
    (h : applyAll ((upserts.map .upsert).take n) kernel = some after) :
    Fits after upserts ↔ Fits kernel upserts := by
  rw [← List.map_take] at h
  have hsize : ∀ kind, ((after.table kind).write (ofKind upserts kind)).size =
      ((kernel.table kind).write (ofKind upserts kind)).size := by
    intro kind
    apply Table.size_congr
    intro k
    rw [applyAll_table h, Table.mem_write, Table.mem_write, Table.mem_write]
    have hsub : k ∈ (ofKind (upserts.take n) kind).map Prod.fst →
        k ∈ (ofKind upserts kind).map Prod.fst := by
      intro hk
      exact (((List.take_sublist n upserts).filter _).map _).map _ |>.subset hk
    tauto
  unfold Fits
  simp only [hsize]

/-- The tables that a clear leaves. -/
theorem applyAll_clearRecords (desired : Desired) (kernel : Kernel cap) :
    ∃ cleared, applyAll desired.clearRecords kernel = some cleared ∧ ∀ kind, cleared.table kind =
      if kind = .sessionCrypto ∧ desired.cryptoReady = false then kernel.table kind else ∅ := by
  cases hready : desired.cryptoReady with
  | false =>
    refine ⟨_, by rw [clearRecords, hready]; rfl, fun kind => ?_⟩
    cases kind <;> rfl
  | true =>
    refine ⟨_, by rw [clearRecords, hready]; rfl, fun kind => ?_⟩
    cases kind <;> rfl

/-- Exactly the wanted keys, with the value of the last record for each. -/
def Exact (kernel : Kernel cap) (desired : Desired) : Prop :=
  ∀ kind ∈ countedKinds, ∀ key, (kernel.table kind).lookup key =
    (Table.write ∅ (ofKind desired.upserts kind)).lookup key

/-- The tables have no key that is not wanted. -/
def NoneStale (kernel : Kernel cap) (desired : Desired) : Prop :=
  ∀ kind ∈ countedKinds, ∀ key ∈ kernel.table kind, key ∈ (ofKind desired.upserts kind).map Prod.fst

variable {desired : Desired}

theorem exact_iff_noneStale (h : applyAll desired.upsertRecords kernel = some after) :
    Exact after desired ↔ NoneStale kernel desired := by
  have hkind : ∀ kind, (∀ key, (after.table kind).lookup key =
      (Table.write ∅ (ofKind desired.upserts kind)).lookup key) ↔
        ∀ key ∈ kernel.table kind, key ∈ (ofKind desired.upserts kind).map Prod.fst := by
    intro kind
    rw [applyAll_table h]
    exact Table.lookup_write_eq_iff
  unfold Exact NoneStale
  simp only [hkind]

/-- **Sizes that are right after the upserts** leave no room for stale keys. -/
theorem noneStale_of_countsMatch (h : applyAll desired.upsertRecords kernel = some after)
    (hmatch : countsMatch after.sizes desired = true) : NoneStale kernel desired := by
  intro kind hkind key hkey
  have hsize : (after.table kind).size = desired.count kind :=
    of_decide_eq_true (List.all_eq_true.mp hmatch kind hkind)
  rw [applyAll_table h, count, ← Table.size_write_empty] at hsize
  have hmem := Table.mem_of_size_le
    (fun k hk => Table.mem_write.mpr (.inr ((Table.mem_write.mp hk).resolve_left
      (AList.notMem_empty k)))) hsize.le key (Table.mem_write.mpr (.inl hkey))
  exact (Table.mem_write.mp hmem).resolve_left (AList.notMem_empty key)

/-- **After a clear** exactly the wanted records are there. -/
theorem exact_of_reset
    (h : applyAll (desired.clearRecords ++ desired.upsertRecords) kernel = some after) :
    Exact after desired := by
  obtain ⟨cleared, hcleared, htables⟩ := applyAll_clearRecords desired kernel
  rw [applyAll_append, hcleared] at h
  refine (exact_iff_noneStale h).mpr fun kind hkind key hkey => ?_
  rw [htables, if_neg (by rintro ⟨rfl, -⟩; simp [countedKinds] at hkind)] at hkey
  exact absurd hkey (AList.notMem_empty key)

/-- The wanted records are within the capacities. -/
def Within (cap : Kind → ℕ) (desired : Desired) : Prop := ∀ kind, desired.count kind ≤ cap kind

theorem reset_isSome (hwithin : Within cap desired) (kernel : Kernel cap) :
    (applyAll (desired.clearRecords ++ desired.upsertRecords) kernel).isSome := by
  obtain ⟨cleared, hcleared, htables⟩ := applyAll_clearRecords desired kernel
  rw [applyAll_append, hcleared]
  refine applyAll_isSome_iff.mpr fun kind => ?_
  rw [htables]
  split_ifs with hcrypto
  · obtain ⟨rfl, hready⟩ := hcrypto
    have hnone : ofKind desired.upserts .sessionCrypto = [] := by
      rw [ofKind, List.filter_eq_nil_iff.mpr (by simpa using desired.cryptoOnly hready), List.map_nil]
    rw [hnone]
    exact kernel.bounded _
  · rw [Table.size_write_empty]
    exact hwithin kind

/-! ## One call -/

theorem wrapError_ok {α : Type} {x : SyncM cap α} {a : α}
    (h : outcome (wrapError context x) s = (.ok a, s')) : outcome x s = (.ok a, s') := by
  rcases hx : outcome x s with ⟨err | b, s₁⟩
  · rw [wrapError, outcome_tryCatch_of_error hx] at h
    cases h
  · rw [wrapError, outcome_tryCatch_of_ok hx] at h
    exact h

theorem stateStatsQuery_ok {stats : Kind → ℕ}
    (h : outcome (stateStatsQuery context) s = (.ok stats, s')) :
    stats = s.kernel.sizes ∧ s'.kernel = s.kernel ∧ s'.initialized = s.initialized := by
  obtain ⟨_, s₁, hattempt, hrest⟩ := outcome_bind_eq_ok.mp h
  obtain ⟨hkernel, hinit⟩ := attempt_ok hattempt
  cases hrest
  exact ⟨by rw [hkernel], hkernel, hinit⟩

theorem resetState_ok
    (h : outcome (resetState desired) s = (.ok (), s')) : Exact s'.kernel desired := by
  obtain ⟨_, s₁, happly, hrest⟩ := outcome_bind_eq_ok.mp h
  cases hrest
  rcases hx : outcome (applyRecords (desired.clearRecords ++ desired.upsertRecords)) s with
    ⟨err | _, s₂⟩
  · rw [outcome_tryCatch_of_error hx] at happly
    cases happly
  · rw [outcome_tryCatch_of_ok hx] at happly
    cases happly
    exact exact_of_reset (applyLoop_ok hx).1

/-- The tables are as wanted unless they have to be cleared, or have stale keys in the right
number. -/
theorem upsertOrRepair_ok {reset : Bool}
    (h : outcome (upsertOrRepair s.kernel.sizes desired) s = (.ok reset, s')) :
    reset = true ∨ Exact s'.kernel desired ∨
      (s.initialized = true ∧ countsMatch s.kernel.sizes desired = true ∧
        ¬ NoneStale s.kernel desired) := by
  obtain ⟨_, s₁, hget, hrest⟩ := outcome_bind_eq_ok.mp h
  cases hget
  cases hinit : s.initialized with
  | false =>
    rw [hinit] at hrest
    cases hrest
    exact .inl rfl
  | true =>
    rw [hinit] at hrest
    by_cases hmatch : countsMatch s.kernel.sizes desired = true
    · rw [if_neg (by simp), if_pos hmatch] at hrest
      obtain ⟨_, s₂, happly, hlast⟩ := outcome_bind_eq_ok.mp hrest
      cases hlast
      by_cases hstale : NoneStale s.kernel desired
      · exact .inr (.inl ((exact_iff_noneStale (applyLoop_ok happly).1).mpr hstale))
      · exact .inr (.inr ⟨rfl, hmatch, hstale⟩)
    · rw [if_neg (by simp), if_neg hmatch] at hrest
      obtain ⟨_, s₂, happly, hquery⟩ := outcome_bind_eq_ok.mp hrest
      obtain ⟨stats, s₃, hstats, hlast⟩ := outcome_bind_eq_ok.mp hquery
      cases hlast
      obtain ⟨rfl, hkernel, -⟩ := stateStatsQuery_ok hstats
      have hall := (applyLoop_ok (wrapError_ok happly)).1
      cases hrefreshed : countsMatch s₂.kernel.sizes desired with
      | false => exact .inl rfl
      | true =>
        refine .inr (.inl ?_)
        rw [hkernel]
        exact (exact_iff_noneStale hall).mpr (noneStale_of_countsMatch hall hrefreshed)

/-- **A call that returns without an error** leaves the wanted records, or stale keys that were
there in the right number. -/
theorem syncLocked_ok (h : outcome (syncLocked desired) s = (.ok (), s')) :
    Exact s'.kernel desired ∨
      (s.initialized = true ∧ countsMatch s.kernel.sizes desired = true ∧
        ¬ NoneStale s.kernel desired) := by
  obtain ⟨_, s₁, h₁, hrest₁⟩ := outcome_bind_eq_ok.mp h
  obtain ⟨hkernel₁, hinit₁⟩ := attempt_ok h₁
  obtain ⟨stats, s₂, h₂, hrest₂⟩ := outcome_bind_eq_ok.mp hrest₁
  obtain ⟨rfl, hkernel₂, hinit₂⟩ := stateStatsQuery_ok h₂
  obtain ⟨_, s₃, h₃, hrest₃⟩ := outcome_bind_eq_ok.mp hrest₂
  obtain ⟨-, rfl⟩ := outcome_rejectWhen_eq_ok.mp h₃
  obtain ⟨_, s₄, h₄, hrest₄⟩ := outcome_bind_eq_ok.mp hrest₃
  obtain ⟨hkernel₄, hinit₄⟩ := attempt_ok h₄
  obtain ⟨_, s₅, h₅, hrest₅⟩ := outcome_bind_eq_ok.mp hrest₄
  obtain ⟨-, rfl⟩ := outcome_rejectWhen_eq_ok.mp h₅
  obtain ⟨reset, s₆, h₆, hrest₆⟩ := outcome_bind_eq_ok.mp hrest₅
  obtain ⟨_, s₇, h₇, h₈⟩ := outcome_bind_eq_ok.mp hrest₆
  rw [(attempt_ok h₈).1]
  have hkernel : s₅.kernel = s.kernel := by rw [hkernel₄, hkernel₂, hkernel₁]
  have hinit : s₅.initialized = s.initialized := by rw [hinit₄, hinit₂, hinit₁]
  have hstats : s₁.kernel.sizes = s₅.kernel.sizes := by rw [hkernel, hkernel₁]
  rw [hstats] at h₆
  rw [← hkernel, ← hinit]
  cases reset with
  | true => exact .inl (resetState_ok h₇)
  | false =>
    cases h₇
    exact (upsertOrRepair_ok h₆).resolve_left nofun

/-! ## Calls that nothing disturbs -/

theorem outcome_stateStatsQuery_nil (context : String) (kernel : Kernel cap) (initialized : Bool) :
    outcome (stateStatsQuery context) ⟨kernel, initialized, []⟩ =
      (.ok kernel.sizes, (⟨kernel, initialized, []⟩ : System cap)) := rfl

theorem resetState_undisturbed (hwithin : Within cap desired) (kernel : Kernel cap)
    (initialized : Bool) :
    ∃ after, outcome (resetState desired) ⟨kernel, initialized, []⟩ = (.ok (), ⟨after, true, []⟩) := by
  have hsome := reset_isSome hwithin kernel
  rcases applyLoop_undisturbed kernel initialized le_rfl with ⟨after, -, hout⟩ | ⟨hnone, -⟩
  · refine ⟨after, ?_⟩
    rw [resetState, applyRecords, outcome_bind_of_ok (outcome_tryCatch_of_ok hout)]
    rfl
  · rw [hnone] at hsome
    cases hsome

/-- **Tables that the daemon has set up** are written over if there is room for the records, and
that is all if they have the right sizes. -/
theorem upsertOrRepair_undisturbed (desired : Desired) (kernel : Kernel cap) :
    (Fits kernel desired.upserts ∧ ∃ reset after,
        applyAll desired.upsertRecords kernel = some after ∧
        (countsMatch kernel.sizes desired = true → reset = false) ∧
        outcome (upsertOrRepair kernel.sizes desired) ⟨kernel, true, []⟩ =
          (.ok reset, ⟨after, true, []⟩)) ∨
      (¬ Fits kernel desired.upserts ∧ ∃ err after, ¬ Fits after desired.upserts ∧
        outcome (upsertOrRepair kernel.sizes desired) ⟨kernel, true, []⟩ =
          (.error err, ⟨after, true, []⟩)) := by
  have hbody : outcome (upsertOrRepair kernel.sizes desired) ⟨kernel, true, []⟩ =
      outcome (if countsMatch kernel.sizes desired then
          (do applyRecords desired.upsertRecords; pure false)
        else repairState desired) ⟨kernel, true, []⟩ := rfl
  rw [hbody, applyRecords]
  rcases @applyLoop_undisturbed _ desired.upsertRecords _ _ kernel true le_rfl with
    ⟨after, hall, hout⟩ | ⟨hnone, err, n, after, hall, hout⟩
  · refine .inl ⟨applyAll_isSome_iff.mp (Option.isSome_of_eq_some hall), ?_⟩
    split_ifs with hmatch
    · exact ⟨false, after, hall, fun _ => rfl, outcome_bind_of_ok hout⟩
    · refine ⟨!countsMatch after.sizes desired, after, hall, fun h => absurd h hmatch, ?_⟩
      rw [repairState, wrapError, applyRecords, outcome_bind_of_ok (outcome_tryCatch_of_ok hout)]
      rfl
  · have hfits : ¬ Fits kernel desired.upserts := by
      rw [← applyAll_isSome_iff]
      intro hsome
      rw [← upsertRecords, hnone] at hsome
      cases hsome
    refine .inr ⟨hfits, ?_⟩
    split_ifs
    · exact ⟨err, after, mt (fits_of_take hall).mp hfits, outcome_bind_of_error hout⟩
    · exact ⟨_, after, mt (fits_of_take hall).mp hfits,
        outcome_bind_of_error (outcome_tryCatch_of_error hout)⟩

/-- The capacities that are checked are not zero. -/
def CapacitiesValid (cap : Kind → ℕ) : Prop := ¬ (cap .route = 0 ∨ cap .session = 0 ∨ cap .flow = 0)

theorem exceedsCapacity_of_within (h : Within cap desired) :
    exceedsCapacity cap desired = false := by
  have hroute := h .route
  have hsession := h .session
  have hflow := h .flow
  have hwire := h .sessionWire
  simp [exceedsCapacity, hroute, hsession, hflow, hwire]

theorem syncLocked_undisturbed (hcap : CapacitiesValid cap) (hwithin : Within cap desired)
    (kernel : Kernel cap) (initialized : Bool) :
    outcome (syncLocked desired) ⟨kernel, initialized, []⟩ =
      outcome (do
        let reset ← upsertOrRepair kernel.sizes desired
        resetIf reset desired
        attempt "release retired tix_tcp crypto states after full kernel datapath sync: ")
        ⟨kernel, initialized, []⟩ := by
  have hexceeds : ¬ exceedsCapacity cap desired = true := by
    rw [exceedsCapacity_of_within hwithin]
    exact Bool.false_ne_true
  rw [syncLocked, outcome_bind_of_ok (outcome_attempt_nil _ _ _),
    outcome_bind_of_ok (outcome_stateStatsQuery_nil _ _ _),
    outcome_bind_of_ok (outcome_rejectWhen_of_neg hcap _ _),
    outcome_bind_of_ok (outcome_attempt_nil _ _ _),
    outcome_bind_of_ok (outcome_rejectWhen_of_neg hexceeds _ _)]

theorem syncLocked_invalid (hcap : ¬ CapacitiesValid cap) (kernel : Kernel cap)
    (initialized : Bool) :
    ∃ err, outcome (syncLocked desired) ⟨kernel, initialized, []⟩ =
      (.error err, ⟨kernel, initialized, []⟩) := by
  rw [syncLocked, outcome_bind_of_ok (outcome_attempt_nil _ _ _),
    outcome_bind_of_ok (outcome_stateStatsQuery_nil _ _ _)]
  exact ⟨_, outcome_bind_of_error (outcome_rejectWhen_of_pos (not_not.mp hcap) _ _)⟩

/-- A call after which the tables need no room returns without an error. -/
theorem syncLocked_succeeds (hcap : CapacitiesValid cap) (hwithin : Within cap desired)
    {initialized : Bool} (h : initialized = true → Fits kernel desired.upserts) :
    ∃ after, outcome (syncLocked desired) ⟨kernel, initialized, []⟩ = (.ok (), ⟨after, true, []⟩) := by
  rw [syncLocked_undisturbed hcap hwithin]
  obtain ⟨reset, next, hreset, hchosen⟩ : ∃ reset next, (reset = true ∨ initialized = true) ∧
      outcome (upsertOrRepair kernel.sizes desired) ⟨kernel, initialized, []⟩ =
        (.ok reset, ⟨next, initialized, []⟩) := by
    cases initialized with
    | false => exact ⟨true, kernel, .inl rfl, rfl⟩
    | true =>
      rcases upsertOrRepair_undisturbed desired kernel with
        ⟨-, reset, after, -, -, hout⟩ | ⟨hfits, -⟩
      · exact ⟨reset, after, .inr rfl, hout⟩
      · exact absurd (h rfl) hfits
  rw [outcome_bind_of_ok hchosen]
  cases reset with
  | false =>
    obtain rfl := hreset.resolve_left nofun
    exact ⟨next, rfl⟩
  | true =>
    obtain ⟨after, hout⟩ := resetState_undisturbed hwithin next initialized
    refine ⟨after, ?_⟩
    rw [show resetIf true desired = resetState desired from rfl, outcome_bind_of_ok hout]
    rfl

/-- A call that finds no room changes nothing about that. -/
theorem syncLocked_fails (hcap : CapacitiesValid cap) (hwithin : Within cap desired)
    (h : ¬ Fits kernel desired.upserts) :
    ∃ err after, ¬ Fits after desired.upserts ∧
      outcome (syncLocked desired) ⟨kernel, true, []⟩ = (.error err, ⟨after, true, []⟩) := by
  rw [syncLocked_undisturbed hcap hwithin]
  rcases upsertOrRepair_undisturbed desired kernel with ⟨hfits, -⟩ | ⟨-, err, after, hafter, hout⟩
  · exact absurd hfits h
  · exact ⟨err, after, hafter, outcome_bind_of_error hout⟩

/-- Tables of the right sizes are written over, and that is all. -/
theorem syncLocked_of_countsMatch (hcap : CapacitiesValid cap) (hwithin : Within cap desired)
    (hfits : Fits kernel desired.upserts) (hmatch : countsMatch kernel.sizes desired = true) :
    ∃ after, applyAll desired.upsertRecords kernel = some after ∧
      outcome (syncLocked desired) ⟨kernel, true, []⟩ = (.ok (), ⟨after, true, []⟩) := by
  rcases upsertOrRepair_undisturbed desired kernel with
    ⟨-, reset, after, hall, hreset, hout⟩ | ⟨hnot, -⟩
  · obtain rfl := hreset hmatch
    refine ⟨after, hall, ?_⟩
    rw [syncLocked_undisturbed hcap hwithin, outcome_bind_of_ok hout]
    rfl
  · exact absurd hfits hnot

/-! ## Two calls -/

/-- Whatever goes wrong, a call that returns without an error leaves exactly the wanted records;
and if nothing goes wrong but a full table, one of two calls returns without an error. -/
def Establishes (kernel : Kernel cap) (initialized : Bool) (desired : Desired) : Prop :=
  (∀ faults after, outcome (syncLocked desired) ⟨kernel, initialized, faults⟩ = (.ok (), after) →
      Exact after.kernel desired) ∧
    ((outcome (syncLocked desired) ⟨kernel, initialized, []⟩).1 = .ok () ∨
      (outcome (syncLocked desired)
        (outcome (syncLocked desired) ⟨kernel, initialized, []⟩).2).1 = .ok ())

/-- Tables without room stay so, call after call. -/
theorem Establishes.fits (hcap : CapacitiesValid cap) (hwithin : Within cap desired)
    (h : Establishes kernel true desired) : Fits kernel desired.upserts := by
  by_contra hfits
  obtain ⟨err, after, hafter, hout⟩ := syncLocked_fails hcap hwithin hfits
  obtain ⟨err', last, -, hagain⟩ := syncLocked_fails hcap hwithin hafter
  have hreturns := h.2
  rw [hout, hagain] at hreturns
  rcases hreturns with h | h <;> cases h

/-- Tables of the right sizes keep the keys that they have. -/
theorem Establishes.noneStale (hcap : CapacitiesValid cap) (hwithin : Within cap desired)
    (h : Establishes kernel true desired) (hmatch : countsMatch kernel.sizes desired = true) :
    NoneStale kernel desired := by
  obtain ⟨after, hall, hout⟩ := syncLocked_of_countsMatch hcap hwithin (h.fits hcap hwithin) hmatch
  exact (exact_iff_noneStale hall).mp (h.1 [] _ hout)

/-- The daemon clears the tables anyway, or there is room for the wanted records and a table of the
right size has the right keys. -/
def SyncCondition (kernel : Kernel cap) (initialized : Bool) (desired : Desired) : Prop :=
  CapacitiesValid cap ∧ (initialized = true → Fits kernel desired.upserts ∧
    (countsMatch kernel.sizes desired = true → NoneStale kernel desired))

/-! ## Tables with one flow -/

/-- A key and a value for tests of the tables. -/
def sampleKey (n : UInt64) : Key := #v[n, 0, 0, 0]

def sampleValue : Value := ⟨0, #v[0, 0, 0, 0, 0, 0, 0, 0]⟩

/-- Only one flow, and nothing else. -/
def oneFlow (n : UInt64) : Desired := ⟨[⟨.flow, sampleKey n, sampleValue⟩], false, by simp⟩

/-- A kernel that has the flow with the first key. -/
def kernelWithFlow (cap : Kind → ℕ) (h : 1 ≤ cap .flow) : Kernel cap where
  table kind := if kind = .flow then AList.singleton (sampleKey 1) sampleValue else ∅
  bounded kind := by
    split_ifs with hkind
    · subst hkind
      exact h
    · exact Nat.zero_le _

theorem within_oneFlow {cap : Kind → ℕ} (h : 1 ≤ cap .flow) (n : UInt64) :
    Within cap (oneFlow n) := by
  intro kind
  cases kind with
  | flow => exact h
  | _ => exact Nat.zero_le _

/-! ## The result -/

end KernelSync
