/-
# A rejoin as a transaction

`replaceConfigLogWithVerifiedSnapshot` replaces the log by that of a peer, puts it to use step by
step and takes everything back when a step fails.

* `ends_afterReplace` : whatever fails after the replacement, the log is the snapshot's, with at
  most the local configuration after it, and its head is in force;
* `ends_rollback` : a rollback brings log, head and configuration back, or says that the log is
  still the new one;
* `rejoin_all_or_nothing` : the two ways in which a rejoin ends.
-/
import TrustIX.Lifecycle

namespace ConfigDaemon

open Pki TrustPolicy ConfigEvent ConfigStore EventVerify LogVerify Fallible Mutation

variable {R M : Type} {rt : Runtime R M} {m : Moment R M}

/-! ## Heads of a log -/

/-- The head of the log, or of the log as it was some events ago. -/
def Held (rt : Runtime R M) (log : List Event) (head : Head) : Prop :=
  ∃ held, held <+: log ∧ MemoryStore.head rt.crypto.sha256Text held = .ok head

variable {head : Head} {log : List Event}

theorem Held.mono {log' : List Event} (h : Held rt log head)
    (hlog : log <+: log') : Held rt log' head := by
  obtain ⟨held, hheld, hhead⟩ := h
  exact ⟨held, hheld.trans hlog, hhead⟩

theorem held_of_head
    (h : MemoryStore.head rt.crypto.sha256Text log = .ok head) : Held rt log head :=
  ⟨log, List.prefix_rfl, h⟩

theorem held_zero (log : List Event) : Held rt log ⟨0, ""⟩ := ⟨[], List.nil_prefix, rfl⟩

/-- What is advertised at a moment is a head of the log of that moment. -/
def Truthful (rt : Runtime R M) (x : Option Head × List Event) : Prop :=
  ∀ head, x.1 = some head → Held rt x.2 head

theorem truthful_some (h : Held rt log head) : Truthful rt (some head, log) := by
  intro other hother
  cases hother
  exact h

variable {a : Option Head}

theorem Truthful.mono {log' : List Event} (h : Truthful rt (a, log))
    (hlog : log <+: log') : Truthful rt (a, log') :=
  fun head hhead => (h head hhead).mono hlog

/-! ## Checks and the store -/

/-- A check that passes is known to have passed, and one that fails touches nothing. -/
theorem ends_check_bind {α β : Type} {x : Except String α} {f : α → Act R M β}
    {P : Daemon R M → Prop} {Q : β → Daemon R M → Prop} {E : Failure → Daemon R M → Prop}
    (hf : ∀ a, x = .ok a → Ends P (f a) Q E) (herror : ∀ text d, P d → E (.rejected text) d) :
    Ends P (check x >>= f) Q E := by
  refine ⟨fun d hd => ?_⟩
  cases x with
  | error text => exact herror text d hd
  | ok a => exact (hf a rfl).holds d hd

theorem ends_storeHead (d : Daemon R M) :
    Ends (· = d) (storeHead rt)
      (fun head s => MemoryStore.head rt.crypto.sha256Text d.store.memory = .ok head ∧ s = d)
      fun err s => (∃ text, err = .rejected text ∧
        MemoryStore.head rt.crypto.sha256Text d.store.memory = .error text) ∧ s = d := by
  cases hhead : MemoryStore.head rt.crypto.sha256Text d.store.memory with
  | error text =>
    refine ends_of_exec_error (e := .rejected text) ?_ ⟨⟨text, rfl, rfl⟩, rfl⟩
    rw [exec_storeHead, hhead]
    rfl
  | ok head => exact ends_of_exec (exec_storeHead_eq_ok.mpr ⟨hhead, rfl⟩) ⟨rfl, rfl⟩

variable {d : Daemon R M}

/-- A log whose head is known has its head read. -/
theorem ends_storeHead_of_eq_ok {head : Head} {E : Failure → Daemon R M → Prop}
    (h : MemoryStore.head rt.crypto.sha256Text d.store.memory = .ok head) :
    Ends (· = d) (storeHead rt) (fun found s => found = head ∧ s = d) E :=
  ends_of_exec (exec_storeHead_eq_ok.mpr ⟨h, rfl⟩) ⟨rfl, rfl⟩

/-- An append does nothing, or all it was asked. -/
theorem ends_storeAppendBatch (events : List Event) (d : Daemon R M) :
    Ends (· = d) (storeAppendBatch rt m events)
      (fun _ s => ∃ store, s = d.settled store ∧ store.memory = d.store.memory ++ events ∧
        (WellFormed rt.crypto.sha256Text d.store.memory →
          WellFormed rt.crypto.sha256Text store.memory))
      fun err s => (∃ text, err = .rejected text) ∧ s = d.settled d.store := by
  rcases @exec_storeAppendBatch R M rt m events d with
    ⟨-, happend⟩ | ⟨-, commitErr, store, hstore, hwell, happend⟩
  · exact ends_of_exec_error happend ⟨⟨_, rfl⟩, rfl⟩
  · exact ends_of_exec happend ⟨store, rfl, hstore, hwell⟩

/-- A replacement does nothing, or all it was asked. -/
theorem ends_storeReplaceAll (faults : ReplaceFaults) (events : List Event) (d : Daemon R M) :
    Ends (· = d) (storeReplaceAll rt faults events)
      (fun _ s => ∃ store, s = d.settled store ∧ store.memory = events ∧
        (WellFormed rt.crypto.sha256Text d.store.memory →
          WellFormed rt.crypto.sha256Text store.memory))
      fun err s => (∃ text, err = .rejected text) ∧ s = d.settled d.store := by
  rcases @exec_storeReplaceAll R M rt faults events d with
    ⟨-, hreplace⟩ | ⟨-, commitErr, store, hstore, hwell, hreplace⟩
  · exact ends_of_exec_error hreplace ⟨⟨_, rfl⟩, rfl⟩
  · exact ends_of_exec hreplace ⟨store, rfl, hstore, hwell⟩

/-! ## The own IX -/

/-- The own IX stays. -/
def SameIX (d d' : Daemon R M) : Prop := d'.desired.ixID = d.desired.ixID

instance : IsPreorder (Daemon R M) SameIX where
  refl _ := rfl
  trans _ _ _ h h' := Eq.trans h' h

variable {α : Type}

theorem sameIX_of_steady {act : Act R M α} (h : Moves Steady act) : Moves SameIX act :=
  fun d => congrArg Desired.ixID (h d).desired

theorem sameIX_applyLatestDomainTrustFromLogLocked :
    Moves SameIX (applyLatestDomainTrustFromLogLocked rt m) := by
  refine Moves.bind (Moves.bind moves_get fun d => moves_ofResult _) fun events => ?_
  refine moves_get.bind fun d => (sameIX_of_steady (steady_check _)).bind fun latest => ?_
  cases latest with
  | none => exact moves_pure _
  | some trust =>
    refine moves_ite (moves_pure _) ?_
    exact Moves.bind (moves_modify fun d => rfl) fun _ =>
      sameIX_of_steady steady_afterTrustStateChangedLocked

/-! ## The log of the snapshot -/

/-- The log is `events`, and at most one configuration of `ix`, and its head is in force. -/
structure Rejoined (rt : Runtime R M) (ix : String) (events : List Event) (d : Daemon R M) :
    Prop where
  wellFormed : WellFormed rt.crypto.sha256Text d.store.memory
  log : ∃ baseline : Option Event, d.store.memory = events ++ baseline.toList ∧
    ∀ event ∈ baseline, event.resource = desiredResourceForIX ix
  head : MemoryStore.head rt.crypto.sha256Text d.store.memory = .ok d.head

/-- The log is `events`, and its head is in force. -/
structure AtLog (rt : Runtime R M) (ix : String) (events : List Event) (d : Daemon R M) :
    Prop where
  wellFormed : WellFormed rt.crypto.sha256Text d.store.memory
  log : d.store.memory = events
  head : MemoryStore.head rt.crypto.sha256Text d.store.memory = .ok d.head
  ix : d.desired.ixID = ix

theorem AtLog.rejoined {ix : String} {events : List Event}
    (h : AtLog rt ix events d) : Rejoined rt ix events d := by
  refine ⟨h.wellFormed, ⟨none, ?_, fun event hevent => absurd hevent (Option.not_mem_none event)⟩,
    h.head⟩
  rw [h.log]
  exact (List.append_nil events).symm

theorem Rejoined.steady {ix : String} {events : List Event} {d d' : Daemon R M}
    (h : Rejoined rt ix events d) (hsteady : Steady d d') : Rejoined rt ix events d' := by
  refine ⟨?_, ?_, ?_⟩
  · rw [hsteady.store]
    exact h.wellFormed
  · rw [hsteady.store]
    exact h.log
  · rw [hsteady.store, hsteady.head]
    exact h.head

/-! ## What peers find meanwhile -/

/-- The moments since `d` are all in `A`. -/
def Since (A : Option Head × List Event → Prop) (d d' : Daemon R M) : Prop :=
  ∃ seen, d'.moments = d.moments ++ seen ∧ ∀ x ∈ seen, A x

section Since

variable {A : Option Head × List Event → Prop} {d₁ d₂ d₃ : Daemon R M}

theorem since_of_moments_eq (h : d₂.moments = d₁.moments) : Since A d₁ d₂ :=
  ⟨[], by rw [h, List.append_nil], by simp⟩

theorem Since.trans (h : Since A d₁ d₂) (h' : Since A d₂ d₃) : Since A d₁ d₃ := by
  obtain ⟨seen, hseen, hall⟩ := h
  obtain ⟨seen', hseen', hall'⟩ := h'
  refine ⟨seen ++ seen', by rw [hseen', hseen, List.append_assoc], ?_⟩
  exact List.forall_mem_append.mpr ⟨hall, hall'⟩

theorem Since.mono {B : Option Head × List Event → Prop} (h : Since A d₁ d₂) (hB : ∀ x, A x → B x) :
    Since B d₁ d₂ := by
  obtain ⟨seen, hseen, hall⟩ := h
  exact ⟨seen, hseen, fun x hx => hB x (hall x hx)⟩

/-- One more moment. -/
theorem since_observed {x : Option Head × List Event} (hmoments : d₂.moments = d₁.moments ++ [x])
    (h : A x) : Since A d₁ d₂ := by
  refine ⟨[x], hmoments, ?_⟩
  intro y hy
  rw [List.mem_singleton] at hy
  exact hy ▸ h

/-- Only the head in force may be published. -/
theorem Calm.since (h : Calm d₁ d₂)
    (hA : ∀ a, a = d₁.advertised ∨ a = some d₁.head → A (a, d₁.store.memory)) : Since A d₁ d₂ := by
  obtain ⟨seen, hmoments, hall⟩ := h.moments
  refine ⟨seen, hmoments, fun x hx => ?_⟩
  obtain ⟨hlog, hpublished⟩ := hall x hx
  rw [show x = (x.1, d₁.store.memory) from Prod.ext rfl hlog]
  exact hA x.1 hpublished

end Since

/-- What is found is what was advertised before, or the head of before; or a head of the new
log; or the truth. -/
def Heard (rt : Runtime R M) (old : Daemon R M) (new : List Event) (x : Option Head × List Event) :
    Prop :=
  (x.1 = old.advertised ∨ x.1 = some old.head) ∨ Truthful rt (x.1, new) ∨ Truthful rt x

/-- What is advertised, and was since `old`, until the new log is advertised. -/
structure Told (rt : Runtime R M) (old : Daemon R M) (new : List Event) (d : Daemon R M) :
    Prop where
  advertised : d.advertised = old.advertised ∨ Truthful rt (d.advertised, new)
  since : Since (Heard rt old new) old d

/-- The new log is there, and its head is in force. -/
structure NewLog (rt : Runtime R M) (old : Daemon R M) (new : List Event) (d : Daemon R M) : Prop
    extends AtLog rt old.desired.ixID new d, Told rt old new d

/-- The own configuration may follow, and is not advertised. -/
structure Pending (rt : Runtime R M) (old : Daemon R M) (new : List Event) (d : Daemon R M) : Prop
    extends Rejoined rt old.desired.ixID new d, Told rt old new d

/-- What is in force is advertised. -/
structure Concluded (rt : Runtime R M) (old : Daemon R M) (new : List Event) (d : Daemon R M) :
    Prop extends Rejoined rt old.desired.ixID new d where
  advertised : Truthful rt (d.advertised, d.store.memory)
  since : Since (Heard rt old new) old d

variable {old : Daemon R M} {new : List Event}

theorem Told.heard (h : Told rt old new d) (log : List Event) :
    Heard rt old new (d.advertised, log) := by
  rcases h.advertised with hbefore | hnew
  · exact .inl (.inl hbefore)
  · exact .inr (.inl hnew)

/-- The store changes. -/
theorem Told.settled (h : Told rt old new d) (store : FileStore) :
    Told rt old new (d.settled store) :=
  ⟨h.advertised, h.since.trans (since_observed rfl (h.heard _))⟩

theorem NewLog.pending (h : NewLog rt old new d) : Pending rt old new d :=
  ⟨h.toAtLog.rejoined, h.toTold⟩

theorem NewLog.calm {d d' : Daemon R M} (h : NewLog rt old new d) (hcalm : Calm d d')
    (hix : SameIX d d') : NewLog rt old new d' := by
  have hhead : Truthful rt (some d.head, new) := truthful_some (held_of_head (h.log ▸ h.head))
  refine ⟨⟨?_, ?_, ?_, hix.trans h.ix⟩, ?_, h.since.trans (hcalm.since ?_)⟩
  · rw [hcalm.store]
    exact h.wellFormed
  · rw [hcalm.store]
    exact h.log
  · rw [hcalm.store, hcalm.head]
    exact h.head
  · rcases hcalm.advertised with hkept | hpublished
    · rw [hkept]
      exact h.advertised
    · rw [hpublished]
      exact .inr hhead
  · rintro a (rfl | rfl)
    · exact h.heard _
    · exact .inr (.inl hhead)

theorem Concluded.steady {d d' : Daemon R M} (h : Concluded rt old new d) (hsteady : Steady d d') :
    Concluded rt old new d' := by
  have htrue : ∀ a, a = d.advertised ∨ a = some d.head → Truthful rt (a, d.store.memory) := by
    rintro a (rfl | rfl)
    · exact h.advertised
    · exact truthful_some (held_of_head h.head)
  refine ⟨h.toRejoined.steady hsteady, ?_, h.since.trans (hsteady.toCalm.since ?_)⟩
  · rw [hsteady.store]
    exact htrue _ hsteady.advertised
  · exact fun a ha => .inr (.inr (htrue a ha))

/-! ## The new log in use -/

theorem ends_newLog_of_calm {act : Act R M α} (hcalm : Moves Calm act) (hix : Moves SameIX act) :
    Ends (NewLog rt old new) act (fun _ => NewLog rt old new) fun _ => Pending rt old new := by
  have hboth : Moves (fun d d' : Daemon R M => Calm d d' ∧ SameIX d d') act :=
    fun d => ⟨hcalm d, hix d⟩
  exact (hboth.ends fun _ _ hd h => hd.calm h.1 h.2).mono (fun _ => id) (fun _ _ => id)
    fun _ _ => NewLog.pending

/-- The local configuration is appended, or the log stays. -/
theorem ends_appendPlanned {head : Head} {planned : Event × Head}
    (hfollows : Follows rt head planned)
    (hresource : planned.1.resource = desiredResourceForIX old.desired.ixID) :
    Ends (NewLog rt old new) (appendPlanned rt m planned) (fun _ => Pending rt old new)
      fun _ => Pending rt old new := by
  refine ends_of_each fun d hd => ?_
  refine ((ends_storeAppendBatch [planned.1] d).mono (fun _ => id) (fun _ _ => id) ?_).bind ?_
  · rintro err s ⟨-, rfl⟩
    have hlog := hd.toAtLog.rejoined
    exact ⟨⟨hlog.wellFormed, hlog.log, hlog.head⟩, hd.toTold.settled _⟩
  refine fun commitErr => (ends_of_each fun s ⟨store, hs, hstore, hwell⟩ => ?_)
  subst hs
  refine (ends_of_exec (exec_modify _ _) (Q := fun _ => Pending rt old new) ?_).bind
    fun _ => ends_pure _ fun _ => id
  have htold := hd.toTold.settled store
  refine ⟨⟨hwell hd.wellFormed, ⟨some planned.1, ?_, ?_⟩, ?_⟩, htold.advertised, htold.since⟩
  · show store.memory = new ++ [planned.1]
    rw [hstore, hd.log]
  · intro event hevent
    cases hevent
    exact hresource
  · show MemoryStore.head rt.crypto.sha256Text store.memory = .ok planned.2
    rw [hstore]
    exact hfollows.head_append _

theorem ends_ensureLocalDesiredBaselineLocked (adminProofs : List AdminProof) :
    Ends (NewLog rt old new) (ensureLocalDesiredBaselineLocked rt m adminProofs)
      (fun _ => Pending rt old new) fun _ => Pending rt old new := by
  refine ends_get_bind fun d hd => ?_
  have hsame : ∀ s, s = d → Pending rt old new s := by
    rintro s rfl
    exact hd.pending
  refine ends_check_bind (fun found _ => ?_) fun _ => hsame
  split_ifs
  · exact ends_pure _ hsame
  refine ends_check_bind (fun payload _ => ?_) fun _ => hsame
  refine ((ends_storeHead_of_eq_ok hd.head).mono (fun _ => id) (fun _ _ => And.right)
    fun _ _ => id).bind fun head => ?_
  refine ends_check_bind (fun planned hplanned => ?_) fun _ => hsame
  cases planned with
  | none => exact ends_pure _ hsame
  | some planned =>
    obtain ⟨hfollows, hresource⟩ := desiredEventIfChangedAtHead_follows hplanned
    rw [hd.ix] at hresource
    refine ((ends_appendPlanned hfollows hresource).at_state hd).bind fun commitErr => ?_
    refine Moves.ends (r := Keeps (Pending rt old new)) ?_ fun _ _ h hkeeps => hkeeps h
    exact (moves_afterCommit (moves_failIf _)).bind fun _ => moves_pure _

/-- The baseline that could not be made durable is kept; any other error ends the rejoin. -/
theorem ends_rejoinBaseline (preserveLocalDesired : Bool) :
    Ends (NewLog rt old new) (rejoinBaseline rt m preserveLocalDesired)
      (fun _ => Pending rt old new) fun _ => Pending rt old new := by
  unfold rejoinBaseline
  split_ifs
  · have hbaseline : Ends (NewLog rt old new) (do
        let changed ← ensureLocalDesiredBaselineLocked rt m []
        pure (changed, none) : Act R M (Bool × Option Failure))
        (fun _ => Pending rt old new) fun _ => Pending rt old new :=
      (ends_ensureLocalDesiredBaselineLocked []).bind fun changed => ends_pure _ fun _ => id
    refine hbaseline.tryCatch fun err => ?_
    cases err with
    | committed operation text => exact ends_pure _ fun _ => id
    | rejected text => exact ends_throw _ fun _ => id
  · exact ends_pure _ fun _ => NewLog.pending

/-- **What follows the replacement.**  Wherever it stops, the log is the snapshot's with at
most the own configuration after it, and its head is in force. -/
theorem ends_afterReplace (preserveLocalDesired : Bool) {head : Head}
    (hhead : MemoryStore.head rt.crypto.sha256Text new = .ok head) :
    Ends (fun d => WellFormed rt.crypto.sha256Text d.store.memory ∧ d.store.memory = new ∧
        d.desired.ixID = old.desired.ixID ∧ Told rt old new d)
      (afterReplace rt m preserveLocalDesired) (fun _ => Concluded rt old new)
      fun _ => Pending rt old new := by
  refine ends_of_each fun d ⟨hwell, hlog, hix, htold⟩ => ?_
  rw [← hlog] at hhead
  have hat : NewLog rt old new { d with head := head } :=
    ⟨⟨hwell, hlog, hhead, hix⟩, htold.advertised, htold.since⟩
  have hadopt : Ends (· = d) (adoptReplacedLog rt m preserveLocalDesired)
      (fun _ => Pending rt old new) fun _ => Pending rt old new := by
    refine (ends_storeHead_of_eq_ok hhead).bind fun found => ends_of_each fun s hs => ?_
    obtain ⟨rfl, rfl⟩ := hs
    refine (ends_of_exec (exec_modify _ _) (Q := fun _ => NewLog rt old new) hat).bind fun _ => ?_
    refine (ends_newLog_of_calm calm_applyLatestDomainTrustFromLogLocked
      sameIX_applyLatestDomainTrustFromLogLocked).bind fun _ => ?_
    refine (ends_newLog_of_calm (calm_of_steady steady_afterAdmissionStateChangedLocked)
      (sameIX_of_steady steady_afterAdmissionStateChangedLocked)).bind fun _ => ?_
    exact ends_rejoinBaseline preserveLocalDesired
  refine hadopt.bind fun result => Ends.bind (S := fun _ => Concluded rt old new) ?_ fun _ =>
    ends_pure _ fun _ => id
  refine ends_of_each fun s hs => ?_
  have hrefresh := exec_refresh (m := m) .rejoinAdvertisement s
  cases heffect : m.effect .rejoinAdvertisement with
  | some text =>
    rw [heffect] at hrefresh
    exact ends_of_exec_error hrefresh hs
  | none =>
    rw [heffect] at hrefresh
    have htrue : Truthful rt (some s.head, s.store.memory) := truthful_some (held_of_head hs.head)
    refine ends_of_exec hrefresh ⟨⟨hs.wellFormed, hs.log, hs.head⟩, htrue, ?_⟩
    exact hs.since.trans (since_observed rfl (.inr (.inr htrue)))

/-! ## Rollback -/

/-- Nothing changes that a peer could see. -/
structure Unseen (d d' : Daemon R M) : Prop where
  store : d'.store = d.store
  advertised : d'.advertised = d.advertised
  moments : d'.moments = d.moments

instance : IsPreorder (Daemon R M) Unseen where
  refl _ := ⟨rfl, rfl, rfl⟩
  trans _ _ _ h h' :=
    ⟨h'.store.trans h.store, h'.advertised.trans h.advertised, h'.moments.trans h.moments⟩

theorem unseen_persistRestored : Moves (Unseen : Daemon R M → Daemon R M → Prop)
    (attemptAll [runEffect m .persistRestored, persistConfigSignerCache m .rollback]) := by
  refine moves_attemptAll fun act hact => ?_
  rcases List.mem_cons.mp hact with rfl | hact
  · exact moves_failIf _
  · rw [List.mem_singleton] at hact
    subst hact
    refine moves_get.bind fun _ => ?_
    exact Moves.bind (moves_modify fun _ => ⟨rfl, rfl, rfl⟩) fun _ => moves_failIf _

/-- The members and the advertisement of before are back, whatever could not be
written. -/
theorem exec_restoreConfigRestoreMutableState (old d : Daemon R M) :
    ∃ errs d', exec (restoreConfigRestoreMutableState m old) d = (.ok errs, d') ∧
      d'.store = d.store ∧ d'.advertised = old.advertised ∧
      d'.moments = d.moments ++ [(old.advertised, d.store.memory)] := by
  unfold restoreConfigRestoreMutableState
  rw [exec_bind, exec_modify]
  generalize hd₁ : Daemon.observed
    { d with
      members := old.members
      advertised := old.advertised
      signerCerts := old.signerCerts } = d₁
  obtain ⟨errs, d', hexec⟩ :=
    exec_attemptAll [runEffect m .persistRestored, persistConfigSignerCache m .rollback] d₁
  have hunseen := @unseen_persistRestored R M m d₁
  rw [hexec] at hunseen
  subst hd₁
  exact ⟨errs, d', hexec, hunseen.store, hunseen.advertised, hunseen.moments⟩

/-- Log, head and configuration are those of `old`. -/
def Restored (old d : Daemon R M) : Prop :=
  d.store.memory = old.store.memory ∧ d.head = old.head ∧ d.desired = old.desired

/-- What `d` becomes when it is taken back to `old`. -/
structure TakenBack (old d s : Daemon R M) : Prop where
  restored : Restored old s
  advertised : s.advertised = old.advertised ∨ s.advertised = some old.head
  since : Since (fun x => x.1 = d.advertised ∨ x.1 = old.advertised ∨ x.1 = some old.head) d s

/-- The log of before cannot be written. -/
def RollbackFails (rt : Runtime R M) (m : Moment R M) (old : Daemon R M) : Prop :=
  ∃ store : FileStore, Failed (store.replaceAll rt.crypto.sha256Text m.rollback old.store.memory).1

variable {P : Daemon R M → Prop} {E : Failure → Daemon R M → Prop}

/-- **A rollback** brings the old log, head and configuration back, or fails because the log
could not be written. -/
theorem ends_rollback (operation : String) (cause : Failure) {Q : α → Daemon R M → Prop}
    (hcommitted : RollbackFails rt m old → ∀ d text, P d →
      E (.committed operation text) (d.settled d.store))
    (hrejected : ∀ d s text, P d → TakenBack old d s → E (.rejected text) s) :
    Ends P (rollbackFailedConfigSnapshotRestore rt m operation old old.store.memory cause) Q E := by
  refine ends_of_each fun d hd => ?_
  have hreplace : Ends (· = d)
      (tryCatch (storeReplaceAll rt m.rollback old.store.memory) fun err =>
        throw (.committed operation
          (cause.text ++ "\nrollback previous config log: " ++ err.text)))
      (fun _ s => ∃ store, s = d.settled store ∧ store.memory = old.store.memory) E := by
    refine ⟨fun s hs => ?_⟩
    subst hs
    rw [exec_tryCatch]
    rcases @exec_storeReplaceAll R M rt m.rollback old.store.memory s with
      ⟨hfailed, hreplace⟩ | ⟨-, commitErr, store, hstore, -, hreplace⟩
    · rw [hreplace]
      exact hcommitted ⟨_, hfailed⟩ s _ hd
    · rw [hreplace]
      exact ⟨store, rfl, hstore⟩
  refine hreplace.bind fun replaceErr => ends_of_each fun s ⟨store, hs, hmemory⟩ => ?_
  subst hs
  obtain ⟨stateErrs, d₁, hstate, hstore₁, hadvertised₁, hmoments₁⟩ :=
    exec_restoreConfigRestoreMutableState (m := m) old (d.settled store)
  refine (ends_of_exec hstate (Q := fun _ s => s = d₁) rfl).bind fun _ => ?_
  obtain ⟨runtimeErrs, hruntime⟩ :=
    exec_restoreDesiredRuntimeState (m := m) .rejoin old.desired old.head d₁
  have hback : TakenBack old d (d₁.restored m .rejoin old.desired old.head) := by
    obtain ⟨hkept, hdesired, hhead⟩ :=
      Daemon.restored_fields (m := m) .rejoin d₁ old.desired old.head
    -- first the log is back, then what was advertised with it
    have hsince : Since (fun x => x.1 = d.advertised ∨ x.1 = old.advertised ∨ x.1 = some old.head)
        d d₁ := by
      have hlog : (d.settled store).moments = d.moments ++ [(d.advertised, store.memory)] := rfl
      exact (since_observed hlog (.inl rfl)).trans (since_observed hmoments₁ (.inr (.inl rfl)))
    refine ⟨⟨?_, hhead, hdesired⟩, ?_, hsince.trans ?_⟩
    · rw [hkept, hstore₁]
      exact hmemory
    · unfold Daemon.restored
      split_ifs
      · exact .inr rfl
      · exact .inl hadvertised₁
    · unfold Daemon.restored
      split_ifs
      · exact since_observed rfl (.inr (.inr rfl))
      · exact since_of_moments_eq rfl
  refine (ends_of_exec hruntime (Q := fun _ => TakenBack old d) hback).bind fun _ => ?_
  split_ifs
  · exact ends_throw _ fun s => hrejected d s _ hd
  · exact ends_throw _ fun s => hrejected d s _ hd

/-- What is done after the commit fails with a committed error only. -/
theorem ends_afterCommit {operation : String} {act : Act R M α}
    (h : Ends P act (fun _ => P) fun _ => P)
    (hE : ∀ text s, P s → E (.committed operation text) s) :
    Ends P (afterCommit operation act) (fun _ => P) E := by
  refine h.tryCatch fun err => ?_
  cases err with
  | rejected text => exact ends_throw _ (hE text)
  | committed _ text => exact ends_throw _ (hE text)

/-! ## The rejoin -/

/-- What a failed rejoin leaves: an error that is not a committed one leaves everything as it
was, and a committed one the new log. -/
def RejoinFailed (rt : Runtime R M) (m : Moment R M) (old : Daemon R M) (new : List Event)
    (err : Failure) (d : Daemon R M) : Prop :=
  match err with
  | .rejected _ => Restored old d ∧ (d.advertised = old.advertised ∨ d.advertised = some old.head) ∧
      Since (Heard rt old new) old d
  | .committed _ _ => Concluded rt old new d ∨
      Rejoined rt old.desired.ixID new d ∧ RollbackFails rt m old

theorem ends_rejoin (old : Daemon R M) (hwell : WellFormed rt.crypto.sha256Text old.store.memory)
    (snapshot : Snapshot) (preserveLocalDesired : Bool) :
    Ends (· = old) (replaceConfigLogWithVerifiedSnapshot rt m snapshot preserveLocalDesired)
      (fun _ => Concluded rt old snapshot.events) (RejoinFailed rt m old snapshot.events) := by
  refine ends_get_bind fun d hd => ?_
  subst hd
  have hsame : ∀ text s, s = d → RejoinFailed rt m d snapshot.events (.rejected text) s := by
    rintro text s rfl
    exact ⟨⟨rfl, rfl, rfl⟩, .inl rfl, since_of_moments_eq rfl⟩
  refine ends_check_bind (fun used hused => ?_) hsame
  refine ((ends_storeHead d).mono (fun _ => id) (fun _ _ => id) ?_).bind fun head => ?_
  · rintro err s ⟨⟨text, rfl, -⟩, rfl⟩
    exact hsame text s rfl
  refine ends_of_each fun s ⟨hhead, hs⟩ => ?_
  subst hs
  refine ends_check_bind (fun _ _ => ?_) hsame
  have hlog : exec (storeLog rt m) s = (.ok s.store.memory, s) :=
    exec_storeLog_eq_ok.mpr ⟨storedEvents_eq hwell hhead, rfl⟩
  refine (ends_of_exec hlog (Q := fun old t => old = s.store.memory ∧ t = s) ⟨rfl, rfl⟩).bind
    fun oldEvents => ends_of_each fun t ht => ?_
  obtain ⟨rfl, rfl⟩ := ht
  have htold : Told rt t snapshot.events t := ⟨.inl rfl, since_of_moments_eq rfl⟩
  refine ((ends_storeReplaceAll m.replace snapshot.events t).mono (fun _ => id) (fun _ _ => id)
    ?_).bind fun commitErr => ?_
  · rintro err s ⟨⟨text, rfl⟩, rfl⟩
    exact ⟨⟨rfl, rfl, rfl⟩, .inl rfl, (htold.settled _).since⟩
  have hafter := @ends_afterReplace R M rt m t _ preserveLocalDesired _
    (head_of_verifyConfigSnapshot hused).2
  refine ((hafter.tryCatch fun cause => ends_rollback _ cause ?_ ?_).mono ?_ (fun _ _ => id)
    fun _ _ => id).bind fun result => ?_
  · exact fun hfails d text hd => .inr ⟨⟨hd.wellFormed, hd.log, hd.head⟩, hfails⟩
  · intro d s text hd hback
    refine ⟨hback.restored, hback.advertised, hd.since.trans (hback.since.mono ?_)⟩
    rintro x (hx | hx)
    · rw [show x = (d.advertised, x.2) from Prod.ext hx rfl]
      exact hd.toTold.heard _
    · exact .inl hx
  · rintro s ⟨store, rfl, hstore, hkept⟩
    exact ⟨hkept hwell, hstore, rfl, htold.settled store⟩
  have hsteady : Moves Steady (do
      commitConfigSignerCertificatesAfterLogCommit rt m used
      reportCommit commitErr
      failIf result.2) :=
    (steady_commitAfterLogCommit _).bind fun _ => Moves.bind (moves_failIf _) fun _ => moves_failIf _
  exact (ends_afterCommit (hsteady.ends fun _ _ => Concluded.steady) fun _ _ => .inl).bind fun _ =>
    ends_pure _ fun _ => id

/-- **A rejoin is all or nothing.**  An error that is not a committed one leaves log, head
and configuration as they were, whatever failed and whatever else of the rollback did.  Any
other result leaves the events of the snapshot, followed by at most one configuration of
the own IX, with the head of the log in force. -/
theorem rejoin_all_or_nothing (rt : Runtime R M) (m : Moment R M) {d d' : Daemon R M}
    (hwell : WellFormed rt.crypto.sha256Text d.store.memory)
    {snapshot : Snapshot} {preserveLocalDesired : Bool} {result : Except Failure Bool}
    (h : exec (replaceConfigLogWithVerifiedSnapshot rt m snapshot preserveLocalDesired) d =
      (result, d')) :
    (∃ text, result = .error (.rejected text) ∧ d'.store.memory = d.store.memory ∧
      d'.head = d.head ∧ d'.desired = d.desired) ∨
    (∀ text, result ≠ .error (.rejected text)) ∧ ∃ baseline : Option Event,
      d'.store.memory = snapshot.events ++ baseline.toList ∧
      (∀ event ∈ baseline, event.resource = desiredResourceForIX d.desired.ixID) ∧
      MemoryStore.head rt.crypto.sha256Text d'.store.memory = .ok d'.head := by
  have hends := (ends_rejoin (m := m) d hwell snapshot preserveLocalDesired).holds d rfl
  rw [h] at hends
  rcases result with (text | ⟨operation, text⟩) | changed
  · exact .inl ⟨text, rfl, hends.1⟩
  · obtain ⟨-, ⟨baseline, hlog, hbaseline⟩, hhead⟩ : Rejoined rt d.desired.ixID snapshot.events d' :=
      hends.elim Concluded.toRejoined And.left
    exact .inr ⟨nofun, baseline, hlog, hbaseline, hhead⟩
  · obtain ⟨-, ⟨baseline, hlog, hbaseline⟩, hhead⟩ := hends.toRejoined
    exact .inr ⟨nofun, baseline, hlog, hbaseline, hhead⟩

/-- The log of the small domain, as a peer serves it. -/
def labSnapshot : Snapshot := ⟨"lab", labGenesisHead, [labGenesis], []⟩

/-- The small daemon rejoins: the log of the peer, with its own configuration after it. -/
theorem rejoin_labSnapshot :
    (exec (replaceConfigLogWithVerifiedSnapshot labRuntime labMoment labSnapshot true)
        (labDaemon emptyTrust [labGenesis] labGenesisHead)).1 = .ok true ∧
      ∃ baseline : Option Event,
        (exec (replaceConfigLogWithVerifiedSnapshot labRuntime labMoment labSnapshot true)
          (labDaemon emptyTrust [labGenesis] labGenesisHead)).2.store.memory =
            labSnapshot.events ++ baseline.toList ∧
        ∀ event ∈ baseline, event.resource = desiredResourceForIX "ix-a" := by
  have hok : (exec (replaceConfigLogWithVerifiedSnapshot labRuntime labMoment labSnapshot true)
      (labDaemon emptyTrust [labGenesis] labGenesisHead)).1 = .ok true := by decide +kernel
  generalize hafter : exec (replaceConfigLogWithVerifiedSnapshot labRuntime labMoment labSnapshot
    true) (labDaemon emptyTrust [labGenesis] labGenesisHead) = outcome at hok ⊢
  refine ⟨hok, ?_⟩
  rcases rejoin_all_or_nothing labRuntime labMoment wellFormed_labGenesis hafter with
    ⟨text, herror, -⟩ | ⟨-, baseline, hlog, hbaseline, -⟩
  · rw [hok] at herror
    exact absurd herror nofun
  · exact ⟨baseline, hlog, hbaseline⟩

end ConfigDaemon
