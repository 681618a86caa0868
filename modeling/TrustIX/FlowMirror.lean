/-
# The kernel's copy of the flows

Flows are bound, released and cleared under `flowMu`; each change is followed, after that lock is
released, by a call that brings the kernel's flow table up to date.  Such a call holds
`kernelDatapathStateMu`, reads the flow as it is by then, and applies one record.  Flows have the
keys that `flowKeyFromIPv4Packet` makes.

* `kernel_follows` : whenever no call is waiting or running, the kernel has exactly the daemon's
  flows, each with the values of its present binding.
-/
import TrustIX.KernelSync
import TrustIX.Runs

namespace FlowMirror

open Runs
open KernelSync (Key Value)

/-! ## Flows and their records -/

/-- `routing.FlowKey` of an IPv4 packet. -/
structure FlowKey where
  sourceIP : UInt32
  destinationIP : UInt32
  sourcePort : UInt16
  destinationPort : UInt16
  protocol : UInt8
  deriving DecidableEq

/-- `routing.FlowBinding`; times are in nanoseconds, 0 for the zero time. -/
structure FlowBinding where
  key : FlowKey
  nextHop : String
  endpoint : String
  poolIndex : ℤ
  lastSeen : ℤ
  expiresAt : ℤ
  deriving DecidableEq

/-- `hashString64`: FNV-1a over the bytes, and zero for no text. -/
def hashString64 (value : String) : UInt64 :=
  if value = "" then 0
  else value.toUTF8.data.toList.foldl (fun hash byte => (hash ^^^ byte.toUInt64) * 1099511628211)
    14695981039346656037

def unixNano (value : ℤ) : UInt64 := if value ≤ 0 then 0 else UInt64.ofNat value.toNat

/-- `kernelDatapathFlowStateKey`. -/
def flowStateKey (key : FlowKey) : Key :=
  #v[key.sourceIP.toUInt64, key.destinationIP.toUInt64,
    key.sourcePort.toUInt64 <<< 16 ||| key.destinationPort.toUInt64, key.protocol.toUInt64]

def flowFlagIPv4 : UInt32 := 1

/-- The value of `kernelDatapathFlowRecord`. -/
def flowValue (binding : FlowBinding) : Value :=
  ⟨flowFlagIPv4, #v[hashString64 binding.nextHop, hashString64 binding.endpoint,
    UInt64.ofNat (binding.poolIndex % 2 ^ 32).toNat, unixNano binding.lastSeen,
    unixNano binding.expiresAt, 0, 0, 0]⟩

/-- A record on its way to the kernel. -/
inductive FlowRecord where
  | upsert (key : Key) (value : Value)
  | delete (key : Key)

def FlowRecord.apply (t : Table Key Value) : FlowRecord → Table Key Value
  | .upsert key value => AList.insert key value t
  | .delete key => AList.erase key t

/-! ## The daemon and the kernel -/

/-- A call that waits for `kernelDatapathStateMu`. -/
inductive Call where
  | upsert (key : FlowKey)
  | delete (key : FlowKey)
  deriving DecidableEq

def Call.key : Call → FlowKey
  | .upsert key => key
  | .delete key => key

abbrev Flows := Table FlowKey FlowBinding

/-- What a call finds to apply, once it has the lock: `syncKernelDatapathFlowUpsert` and
`syncKernelDatapathFlowDelete` up to their kernel calls. -/
def Call.read (flows : Flows) : Call → Option FlowRecord
  | .upsert key => (flows.lookup key).map fun current =>
    .upsert (flowStateKey current.key) (flowValue current)
  | .delete key =>
    match flows.lookup key with
    | some current => some (.upsert (flowStateKey current.key) (flowValue current))
    | none => some (.delete (flowStateKey key))

/-- Both tables, the calls that wait for the lock, and the record of the call that has it. -/
structure State where
  flows : Flows
  kernel : Table Key Value
  waiting : List Call
  running : Option FlowRecord

def flowBindingTTL : ℤ := 300000000000

def flowBindingRefreshInterval : ℤ := 1000000000

/-- `pruneFlowsLocked`. -/
def pruneFlows (flows : Flows) (now : ℤ) : Flows :=
  flows.update fun _ binding =>
    if binding.expiresAt ≠ 0 ∧ binding.expiresAt ≤ now then none else some binding

/-- Nothing of a flow has changed, and it was seen a moment ago. -/
def unchanged (flows : Flows) (key : FlowKey) (nextHop endpoint : String) (pool now : ℤ) : Bool :=
  (flows.lookup key).any fun binding => binding.nextHop = nextHop && binding.endpoint = endpoint &&
    binding.poolIndex = pool && now - binding.lastSeen < flowBindingRefreshInterval

/-- The pool that the optional argument of `bindFlow` selects. -/
def selectedPool (poolIndex : List ℤ) : ℤ :=
  match poolIndex with
  | index :: _ => if index > 0 then index else 0
  | [] => 0

def bindFlow (s : State) (key : FlowKey) (nextHop endpoint : String) (poolIndex : List ℤ) (now : ℤ) :
    State :=
  let pool := selectedPool poolIndex
  if unchanged s.flows key nextHop endpoint pool now then s
  else { s with
    flows := (pruneFlows s.flows now).insert key
      ⟨key, nextHop, endpoint, pool, now, now + flowBindingTTL⟩
    waiting := s.waiting ++ [.upsert key] }

def releaseFlow (s : State) (key : FlowKey) : State :=
  { s with
    flows := s.flows.erase key
    waiting := if key ∈ s.flows then s.waiting ++ [.delete key] else s.waiting }

/-- `clearFlowsForPeers`; its calls wait together here, and may run in any order. -/
def clearFlowsForPeers (s : State) (peers : List String) : State :=
  if peers = [] then s
  else
    { s with
      flows := s.flows.update fun _ binding =>
        if binding.nextHop ∈ peers then none else some binding
      waiting := s.waiting ++
        (s.flows.entries.filter fun e => e.2.nextHop ∈ peers).map fun e => .delete e.1 }

inductive Event where
  | bind (key : FlowKey) (nextHop endpoint : String) (poolIndex : List ℤ) (now : ℤ)
  | release (key : FlowKey)
  | clear (peers : List String)
  /-- A waiting call gets the lock and reads its flow. -/
  | start (index : ℕ)
  /-- The call that has the lock applies its record and releases the lock. -/
  | finish

def step (s : State) : Event → Option State
  | .bind key nextHop endpoint poolIndex now => some (bindFlow s key nextHop endpoint poolIndex now)
  | .release key => some (releaseFlow s key)
  | .clear peers => some (clearFlowsForPeers s peers)
  | .start index =>
    match s.running, s.waiting[index]? with
    | none, some call =>
      some { s with waiting := s.waiting.eraseIdx index, running := call.read s.flows }
    | _, _ => none
  | .finish => s.running.map fun record => { s with kernel := record.apply s.kernel, running := none }

/-- No flow has expired when a flow is bound. -/
def NoneExpired (s : State) : Event → Prop
  | .bind _ _ _ _ now => ∀ e ∈ s.flows.entries, e.2.expiresAt = 0 ∨ now < e.2.expiresAt
  | _ => True

instance (s : State) : DecidablePred (NoneExpired s)
  | .bind _ _ _ _ now =>
    inferInstanceAs (Decidable (∀ e ∈ s.flows.entries, e.2.expiresAt = 0 ∨ now < e.2.expiresAt))
  | .release _ | .clear _ | .start _ | .finish => .isTrue trivial

/-- The kernel has exactly the flows, with the values of their bindings. -/
def Synced (flows : Flows) (kernel : Table Key Value) : Prop :=
  ∀ key value, kernel.lookup key = some value ↔
    ∃ flow binding, flows.lookup flow = some binding ∧ flowStateKey flow = key ∧
      flowValue binding = value

/-! ## Keys -/

/-- Two ports, one above the other. -/
theorem ports_injective {a b c d : UInt16}
    (h : a.toUInt64 <<< 16 ||| b.toUInt64 = c.toUInt64 <<< 16 ||| d.toUInt64) : a = c ∧ b = d := by
  have hports : ∀ x y : UInt16,
      (x.toUInt64 <<< 16 ||| y.toUInt64).toNat = x.toNat * 2 ^ 16 + y.toNat := by
    intro x y
    have hx := x.toNat_lt
    have hy := y.toNat_lt
    have hshift : (x.toUInt64 <<< 16).toNat = x.toNat <<< 16 := by
      rw [UInt64.toNat_shiftLeft, UInt16.toNat_toUInt64,
        show (16 : UInt64).toNat % 64 = 16 from rfl, Nat.shiftLeft_eq]
      omega
    rw [UInt64.toNat_or, hshift, UInt16.toNat_toUInt64, ← Nat.shiftLeft_add_eq_or_of_lt hy,
      Nat.shiftLeft_eq]
  have hsum := congrArg UInt64.toNat h
  rw [hports, hports] at hsum
  have hb := b.toNat_lt
  have hd := d.toNat_lt
  exact ⟨UInt16.toNat_inj.mp (by omega), UInt16.toNat_inj.mp (by omega)⟩

theorem flowStateKey_injective : Function.Injective flowStateKey := by
  intro k k' h
  have hword : ∀ i : Fin 4, (flowStateKey k)[i] = (flowStateKey k')[i] := fun i => by rw [h]
  obtain ⟨hsport, hdport⟩ := ports_injective (hword 2)
  have hsource : k.sourceIP = k'.sourceIP :=
    UInt32.toNat_inj.mp (by simpa [flowStateKey] using congrArg UInt64.toNat (hword 0))
  have hdestination : k.destinationIP = k'.destinationIP :=
    UInt32.toNat_inj.mp (by simpa [flowStateKey] using congrArg UInt64.toNat (hword 1))
  have hprotocol : k.protocol = k'.protocol :=
    UInt8.toNat_inj.mp (by simpa [flowStateKey] using congrArg UInt64.toNat (hword 3))
  cases k
  cases k'
  simp_all

/-! ## The invariant -/

namespace State

/-- The kernel's table once the call that runs has applied its record. -/
def settled (s : State) : Table Key Value :=
  match s.running with
  | none => s.kernel
  | some record => record.apply s.kernel

/-- A flow is in the kernel as it is in the daemon, or a call that will see to it is waiting; to
remove a flow takes a call that deletes. -/
def Covered (s : State) (key : FlowKey) : Prop :=
  match s.flows.lookup key with
  | some binding => s.settled.lookup (flowStateKey key) = some (flowValue binding) ∨
      ∃ call ∈ s.waiting, call.key = key
  | none => s.settled.lookup (flowStateKey key) = none ∨ .delete key ∈ s.waiting

structure Tracked (s : State) : Prop where
  keyed : ∀ key binding, s.flows.lookup key = some binding → binding.key = key
  covered : ∀ key, s.Covered key
  image : ∀ key ∈ s.settled, ∃ flow, flowStateKey flow = key

variable {s t : State}

/-- A flow that did not change stays covered as long as no call is lost. -/
theorem Covered.mono {key : FlowKey} (h : s.Covered key)
    (hflows : t.flows.lookup key = s.flows.lookup key)
    (hsettled : t.settled.lookup (flowStateKey key) = s.settled.lookup (flowStateKey key))
    (hwaiting : ∀ call ∈ s.waiting, call.key = key → call ∈ t.waiting) : t.Covered key := by
  unfold Covered at h ⊢
  rw [hflows, hsettled]
  cases hlookup : s.flows.lookup key with
  | none =>
    rw [hlookup] at h
    exact h.imp_right fun hdelete => hwaiting _ hdelete rfl
  | some binding =>
    rw [hlookup] at h
    exact h.imp_right fun ⟨call, hcall, hkey⟩ => ⟨call, hwaiting call hcall hkey, hkey⟩

/-- Flows that changed have a new call, the others are as before. -/
theorem Tracked.of_waiting (h : s.Tracked) (hsettled : t.settled = s.settled)
    (hwaiting : ∀ call ∈ s.waiting, call ∈ t.waiting)
    (hflows : ∀ key, t.flows.lookup key = s.flows.lookup key ∨
      (∃ binding, t.flows.lookup key = some binding ∧ binding.key = key ∧ .upsert key ∈ t.waiting) ∨
      (t.flows.lookup key = none ∧ .delete key ∈ t.waiting)) : t.Tracked where
  keyed key binding hbinding := by
    rcases hflows key with hsame | ⟨binding', hnew, hkey, -⟩ | ⟨hnone, -⟩
    · exact h.keyed key binding (hsame ▸ hbinding)
    · rw [hnew] at hbinding
      exact Option.some.inj hbinding ▸ hkey
    · rw [hnone] at hbinding
      cases hbinding
  covered key := by
    rcases hflows key with hsame | ⟨binding, hnew, -, hcall⟩ | ⟨hnone, hcall⟩
    · exact (h.covered key).mono hsame (by rw [hsettled]) fun call hcall _ => hwaiting call hcall
    · unfold Covered
      rw [hnew]
      exact .inr ⟨_, hcall, rfl⟩
    · unfold Covered
      rw [hnone]
      exact .inr hcall
  image key hkey := h.image key (hsettled ▸ hkey)

end State

/-! ## Steps -/

open State

variable {s t : State}

variable {flows : Flows}

theorem lookup_pruneFlows {now : ℤ}
    (h : ∀ e ∈ flows.entries, e.2.expiresAt = 0 ∨ now < e.2.expiresAt) (key : FlowKey) :
    (pruneFlows flows now).lookup key = flows.lookup key := by
  rw [pruneFlows, Table.lookup_update]
  cases hlookup : flows.lookup key with
  | none => rfl
  | some binding =>
    have halive := h ⟨key, binding⟩ (AList.mem_lookup_iff.mp hlookup)
    show (if _ then none else some binding) = some binding
    rw [if_neg]
    rintro ⟨hnonzero, hexpired⟩
    rcases halive with hzero | hlt
    · exact hnonzero hzero
    · exact absurd hexpired (not_le.mpr hlt)

theorem tracked_bind {key : FlowKey} {nextHop endpoint : String} {poolIndex : List ℤ} {now : ℤ}
    (h : s.Tracked) (halive : ∀ e ∈ s.flows.entries, e.2.expiresAt = 0 ∨ now < e.2.expiresAt) :
    (bindFlow s key nextHop endpoint poolIndex now).Tracked := by
  unfold bindFlow
  dsimp only
  split_ifs
  · exact h
  · refine h.of_waiting rfl (fun call hcall => List.mem_append_left _ hcall) fun other => ?_
    rw [Table.lookup_insert_eq]
    split_ifs with hkey
    · subst hkey
      exact .inr (.inl ⟨_, rfl, rfl, List.mem_append_right _ (List.mem_singleton.mpr rfl)⟩)
    · exact .inl (lookup_pruneFlows halive other)

theorem tracked_release {key : FlowKey} (h : s.Tracked) : (releaseFlow s key).Tracked := by
  unfold releaseFlow
  refine h.of_waiting rfl (fun call hcall => ?_) fun other => ?_
  · split_ifs
    · exact List.mem_append_left _ hcall
    · exact hcall
  · rw [Table.lookup_erase_eq]
    by_cases hkey : other = key
    · subst hkey
      by_cases hmem : other ∈ s.flows
      · refine .inr (.inr ⟨if_pos rfl, ?_⟩)
        rw [if_pos hmem]
        exact List.mem_append_right _ (List.mem_singleton.mpr rfl)
      · rw [if_pos rfl, AList.lookup_eq_none.mpr hmem]
        exact .inl rfl
    · exact .inl (if_neg hkey)

theorem tracked_clear {peers : List String} (h : s.Tracked) : (clearFlowsForPeers s peers).Tracked := by
  unfold clearFlowsForPeers
  split_ifs
  · exact h
  · refine h.of_waiting rfl (fun call hcall => List.mem_append_left _ hcall) fun key => ?_
    rw [Table.lookup_update]
    cases hlookup : s.flows.lookup key with
    | none => exact .inl rfl
    | some binding =>
      by_cases hpeer : binding.nextHop ∈ peers
      · refine .inr (.inr ⟨if_pos hpeer, List.mem_append_right _ ?_⟩)
        refine List.mem_map.mpr ⟨⟨key, binding⟩, List.mem_filter.mpr ⟨?_, by simpa using hpeer⟩, rfl⟩
        exact AList.mem_lookup_iff.mp hlookup
      · exact .inl (if_neg hpeer)

variable {kernel : Table Key Value}

/-- What the kernel has for other flows is not touched. -/
theorem lookup_apply_of_ne {record : FlowRecord} {key other : FlowKey}
    (hrecord : (∃ value, record = .upsert (flowStateKey key) value) ∨
      record = .delete (flowStateKey key)) (hne : other ≠ key) :
    (record.apply kernel).lookup (flowStateKey other) = kernel.lookup (flowStateKey other) := by
  have hkeys : flowStateKey other ≠ flowStateKey key := flowStateKey_injective.ne hne
  rcases hrecord with ⟨value, rfl⟩ | rfl
  · exact AList.lookup_insert_ne hkeys
  · exact AList.lookup_erase_ne hkeys

/-- **A call reads what its flow needs.** -/
theorem read_spec (call : Call)
    (hkeyed : ∀ key binding, flows.lookup key = some binding → binding.key = key) :
    (∃ binding, flows.lookup call.key = some binding ∧
        call.read flows = some (.upsert (flowStateKey call.key) (flowValue binding))) ∨
      (flows.lookup call.key = none ∧
        (call.read flows = none ∧ call = .upsert call.key ∨
          call.read flows = some (.delete (flowStateKey call.key)))) := by
  cases hlookup : flows.lookup call.key with
  | none =>
    cases call with
    | upsert key =>
      have hnone : flows.lookup key = none := hlookup
      exact .inr ⟨rfl, .inl ⟨by rw [Call.read, hnone]; rfl, rfl⟩⟩
    | delete key =>
      have hnone : flows.lookup key = none := hlookup
      exact .inr ⟨rfl, .inr (by rw [Call.read, hnone]; rfl)⟩
  | some binding =>
    have hkey := hkeyed _ _ hlookup
    refine .inl ⟨binding, rfl, ?_⟩
    cases call with
    | upsert key =>
      have hsome : flows.lookup key = some binding := hlookup
      rw [Call.read, hsome, Option.map_some, hkey]
    | delete key =>
      have hsome : flows.lookup key = some binding := hlookup
      rw [Call.read, hsome]
      dsimp only
      rw [hkey]

theorem mem_apply {record : FlowRecord} {k : Key}
    (h : k ∈ record.apply kernel) : k ∈ kernel ∨ ∃ value, record = .upsert k value := by
  cases record with
  | upsert key value =>
    rcases (AList.mem_insert _).mp h with rfl | hmem
    · exact .inr ⟨value, rfl⟩
    · exact .inl hmem
  | delete key => exact .inl ((AList.mem_erase.mp h).2)

theorem mem_eraseIdx_of_ne {calls : List Call} {index : ℕ} {call other : Call}
    (hcall : calls[index]? = some call) (hother : other ∈ calls) (hne : other ≠ call) :
    other ∈ calls.eraseIdx index := by
  obtain ⟨i, hi⟩ := List.mem_iff_getElem?.mp hother
  refine List.mem_eraseIdx_iff_getElem?.mpr ⟨i, ?_, hi⟩
  rintro rfl
  exact hne (Option.some.inj (hi.symm.trans hcall))

/-- **A call that gets the lock** sees to its flow; it was waiting for nothing else. -/
theorem tracked_start {index : ℕ} {call : Call} (h : s.Tracked) (hrunning : s.running = none)
    (hcall : s.waiting[index]? = some call)
    (ht : t = { s with waiting := s.waiting.eraseIdx index, running := call.read s.flows }) :
    t.Tracked := by
  have hflows : t.flows = s.flows := by rw [ht]
  have hbefore : s.settled = s.kernel := by rw [settled, hrunning]
  have hafter : t.settled = ((call.read s.flows).map fun r => r.apply s.kernel).getD s.kernel := by
    rw [ht, settled]
    cases call.read s.flows <;> rfl
  have hwaiting : ∀ other ∈ s.waiting, other ≠ call → other ∈ t.waiting := by
    intro other hother hne
    rw [ht]
    exact mem_eraseIdx_of_ne hcall hother hne
  refine ⟨fun key binding hbinding => h.keyed key binding (hflows ▸ hbinding), fun key => ?_, ?_⟩
  · by_cases hkey : key = call.key
    · subst hkey
      unfold Covered
      rw [hflows]
      rcases read_spec call h.keyed with
        ⟨binding, hsome, hrecord⟩ | ⟨hnone, ⟨hrecord, hupsert⟩ | hrecord⟩
      · rw [hsome, hafter, hrecord]
        exact .inl (AList.lookup_insert _)
      · -- an upsert finds no flow; if the kernel has one, the call that deletes it still waits
        rw [hnone, hafter, hrecord]
        have hcovered := h.covered call.key
        unfold Covered at hcovered
        rw [hnone, hbefore] at hcovered
        refine hcovered.imp_right fun hdelete => hwaiting _ hdelete ?_
        rw [hupsert]
        nofun
      · rw [hnone, hafter, hrecord]
        exact .inl (AList.lookup_erase _ _)
    · refine (h.covered key).mono (by rw [hflows]) ?_ fun other hother hsame =>
        hwaiting other hother fun heq => hkey (heq ▸ hsame.symm)
      rw [hafter, hbefore]
      rcases read_spec call h.keyed with
        ⟨binding, -, hrecord⟩ | ⟨-, ⟨hrecord, -⟩ | hrecord⟩
      · rw [hrecord]
        exact lookup_apply_of_ne (.inl ⟨_, rfl⟩) hkey
      · rw [hrecord]
        rfl
      · rw [hrecord]
        exact lookup_apply_of_ne (.inr rfl) hkey
  · intro k hk
    rw [hafter] at hk
    have himage : ∀ k ∈ s.kernel, ∃ flow, flowStateKey flow = k := hbefore ▸ h.image
    rcases read_spec call h.keyed with
      ⟨binding, -, hrecord⟩ | ⟨-, ⟨hrecord, -⟩ | hrecord⟩
    · rw [hrecord, Option.map_some, Option.getD_some] at hk
      rcases mem_apply hk with hmem | ⟨value, heq⟩
      · exact himage k hmem
      · cases heq
        exact ⟨call.key, rfl⟩
    · rw [hrecord] at hk
      exact himage k hk
    · rw [hrecord, Option.map_some, Option.getD_some] at hk
      rcases mem_apply hk with hmem | ⟨value, heq⟩
      · exact himage k hmem
      · cases heq

theorem tracked_step {event : Event} (h : s.Tracked) (hok : NoneExpired s event)
    (hstep : step s event = some t) : t.Tracked := by
  cases event with
  | bind key nextHop endpoint poolIndex now =>
    cases hstep
    exact tracked_bind h hok
  | release key =>
    cases hstep
    exact tracked_release h
  | clear peers =>
    cases hstep
    exact tracked_clear h
  | start index =>
    simp only [step] at hstep
    split at hstep
    · rename_i call hrunning hcall
      exact tracked_start h hrunning hcall (Option.some.inj hstep).symm
    · cases hstep
  | finish =>
    obtain ⟨record, hrecord, rfl⟩ := Option.map_eq_some_iff.mp hstep
    have hsettled : s.settled = record.apply s.kernel := by rw [settled, hrecord]
    refine ⟨h.keyed, fun key => (h.covered key).mono rfl ?_ fun _ hcall _ => hcall, ?_⟩
    · rw [hsettled]
      rfl
    · exact hsettled ▸ h.image

/-- Flows and kernel in step, with no call waiting or running. -/
structure Quiet (s : State) : Prop where
  keyed : ∀ key binding, s.flows.lookup key = some binding → binding.key = key
  synced : Synced s.flows s.kernel
  waiting : s.waiting = []
  running : s.running = none

theorem lookup_of_synced (h : Synced flows kernel)
    (key : FlowKey) : kernel.lookup (flowStateKey key) = (flows.lookup key).map flowValue := by
  ext value
  rw [h, Option.map_eq_some_iff]
  constructor
  · rintro ⟨flow, binding, hbinding, hkey, rfl⟩
    obtain rfl := flowStateKey_injective hkey
    exact ⟨binding, hbinding, rfl⟩
  · rintro ⟨binding, hbinding, rfl⟩
    exact ⟨key, binding, hbinding, rfl, rfl⟩

theorem Quiet.tracked (h : Quiet s) : s.Tracked := by
  have hsettled : s.settled = s.kernel := by rw [settled, h.running]
  refine ⟨h.keyed, fun key => ?_, fun k hk => ?_⟩
  · unfold Covered
    rw [hsettled, lookup_of_synced h.synced]
    cases s.flows.lookup key with
    | none => exact .inl rfl
    | some binding => exact .inl rfl
  · obtain ⟨value, hvalue⟩ := Table.exists_of_mem (hsettled ▸ hk)
    obtain ⟨flow, binding, -, hkey, -⟩ := (h.synced k value).mp hvalue
    exact ⟨flow, hkey⟩

/-- Without calls the kernel has what the daemon has. -/
theorem State.Tracked.synced (h : s.Tracked) (hwaiting : s.waiting = [])
    (hrunning : s.running = none) : Synced s.flows s.kernel := by
  have hsettled : s.settled = s.kernel := by rw [settled, hrunning]
  have hlookup : ∀ key, s.kernel.lookup (flowStateKey key) = (s.flows.lookup key).map flowValue := by
    intro key
    have hcovered := h.covered key
    unfold Covered at hcovered
    rw [hwaiting, hsettled] at hcovered
    cases hflow : s.flows.lookup key with
    | none =>
      rw [hflow] at hcovered
      exact hcovered.resolve_right nofun
    | some binding =>
      rw [hflow] at hcovered
      exact hcovered.resolve_right fun ⟨_, hcall, _⟩ => nomatch hcall
  intro k value
  constructor
  · intro hk
    obtain ⟨flow, rfl⟩ := h.image k (hsettled ▸ Table.mem_of_lookup hk)
    rw [hlookup, Option.map_eq_some_iff] at hk
    obtain ⟨binding, hbinding, hvalue⟩ := hk
    exact ⟨flow, binding, hbinding, rfl, hvalue⟩
  · rintro ⟨flow, binding, hbinding, rfl, rfl⟩
    rw [hlookup, hbinding]
    rfl

/-- **The kernel follows.**  From any state in which it does, after any binds, releases and clears
and in any order of the calls that they cause, the kernel has exactly the flows of the daemon as
soon as no call is left; no flow expires meanwhile. -/
theorem kernel_follows (start s : State) (hstart : Quiet start)
    (hrun : Reaches step NoneExpired start s) (hwaiting : s.waiting = [])
    (hrunning : s.running = none) : Synced s.flows s.kernel := by
  have htracked : s.Tracked := hrun.invariant State.Tracked hstart.tracked
    fun _ _ _ h hok hstep => tracked_step h hok hstep
  exact htracked.synced hwaiting hrunning

/-! ## A run -/

def noFlows : State := ⟨∅, ∅, [], none⟩

theorem quiet_noFlows : Quiet noFlows := by
  refine ⟨nofun, fun k value => ⟨nofun, ?_⟩, rfl, rfl⟩
  rintro ⟨flow, binding, hbinding, -⟩
  cases hbinding

def webFlow : FlowKey := ⟨0x0a000001, 0x0a000102, 40000, 443, 6⟩

/-- A flow is bound, released and bound to another peer before the first call runs; the call of
the release comes last. -/
def overtaken : List Event :=
  [.bind webFlow "ix-b" "udp" [] 5, .release webFlow, .bind webFlow "ix-c" "tcp" [2] 6,
    .start 0, .finish, .start 1, .finish, .start 0, .finish]

theorem kernel_follows_overtaken :
    ∃ s, Reaches step NoneExpired noFlows s ∧ s.flows.entries.length = 1 ∧
      Synced s.flows s.kernel := by
  have hrun : (replay step NoneExpired noFlows overtaken).any
      (fun s => decide (s.flows.entries.length = 1 ∧ s.waiting = [] ∧ s.running.isNone)) = true := by
    decide +kernel
  obtain ⟨s, hs, hquiet⟩ := (Option.any_eq_true _ _).mp hrun
  obtain ⟨hlength, hwaiting, hrunning⟩ := of_decide_eq_true hquiet
  have hreach := reaches_of_replay hs
  exact ⟨s, hreach, hlength, kernel_follows noFlows s quiet_noFlows hreach hwaiting
    (Option.isNone_iff_eq_none.mp hrunning)⟩

end FlowMirror
