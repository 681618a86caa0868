/-
# The advertised head

A node's signed advertisement carries the head of its config log.  The advertisement is
rebuilt inside a runtime switch, ahead of the append that makes its head true, and after
a snapshot has replaced the log.

* `apply_advertises_ahead` : during an apply, peers can fetch a head that the node does
  not hold.
* `advertised_head_is_held` : at any other moment, and outside a rejoin, the head is that
  of the log or of one of its earlier states, if the restores of a failed apply or rejoin
  succeed.
-/
import TrustIX.Rejoin

namespace ConfigDaemon

open Pki TrustPolicy ConfigEvent ConfigStore EventVerify LogVerify Fallible Mutation Runs

variable {R M : Type} {rt : Runtime R M} {m : Moment R M}

/-! ## Stages of a call -/

/-- From a state with `P` to one with `Q`, past moments that are all in `A`. -/
def Passes (A : Option Head × List Event → Prop) (P Q : Daemon R M → Prop)
    (d d' : Daemon R M) : Prop :=
  P d → Q d' ∧ ∃ seen, d'.moments = d.moments ++ seen ∧ ∀ x ∈ seen, A x

variable {d' : Daemon R M}

section Passes

variable {A : Option Head × List Event → Prop} {P Q S : Daemon R M → Prop}

theorem passes_of_moments_eq {d : Daemon R M} (hmoments : d'.moments = d.moments)
    (h : P d → Q d') : Passes A P Q d d' :=
  fun hP => ⟨h hP, since_of_moments_eq hmoments⟩

/-- One more moment. -/
theorem passes_of_observed {d : Daemon R M} {x : Option Head × List Event}
    (hmoments : d'.moments = d.moments ++ [x]) (h : P d → Q d' ∧ A x) : Passes A P Q d d' :=
  fun hP => ⟨(h hP).1, since_observed hmoments (h hP).2⟩

theorem Passes.trans {d₁ d₂ d₃ : Daemon R M} (h : Passes A P Q d₁ d₂) (h' : Passes A Q S d₂ d₃) :
    Passes A P S d₁ d₃ := by
  intro hP
  obtain ⟨hQ, hsince⟩ := h hP
  obtain ⟨hS, hsince'⟩ := h' hQ
  exact ⟨hS, Since.trans hsince hsince'⟩

theorem Passes.allow {B : Option Head × List Event → Prop} {d : Daemon R M} (h : Passes A P Q d d')
    (hB : ∀ x, A x → B x) : Passes B P Q d d' :=
  fun hP => ⟨(h hP).1, Since.mono (h hP).2 hB⟩

theorem Passes.weaken {d : Daemon R M} (h : Passes A P Q d d') (hS : ∀ s, Q s → S s) :
    Passes A P S d d' :=
  fun hP => ⟨hS _ (h hP).1, (h hP).2⟩

instance : IsPreorder (Daemon R M) (Passes A P P) where
  refl _ := passes_of_moments_eq rfl id
  trans _ _ _ := Passes.trans

/-- A stage, and then the rest of the call from the stage it leads to. -/
theorem stage_bind {α β : Type} {x : Act R M α} {f : α → Act R M β}
    (hx : Moves (Passes A P S) x) (hexit : ∀ d, S d → Q d) (hf : ∀ a, Moves (Passes A S Q) (f a)) :
    Moves (Passes A P Q) (x >>= f) := by
  intro d
  rw [exec_bind]
  have hmove := hx d
  rcases h : exec x d with ⟨_ | a, d₁⟩
  · rw [h] at hmove
    exact hmove.weaken hexit
  · rw [h] at hmove
    exact hmove.trans (hf a d₁)

/-- A stage in which only the head in force may be published. -/
theorem Calm.passes {d : Daemon R M} (h : Calm d d')
    (hstage : d'.store = d.store → d'.head = d.head →
      (d'.advertised = d.advertised ∨ d'.advertised = some d.head) → P d → P d')
    (hseen : ∀ a, P d → a = d.advertised ∨ a = some d.head → A (a, d.store.memory)) :
    Passes A P P d d' :=
  fun hP => ⟨hstage h.store h.head h.advertised hP, h.since fun a => hseen a hP⟩

end Passes

/-! ## Calls that only append -/

/-- The head in force and the advertised one are heads of the log. -/
structure Sound (rt : Runtime R M) (d : Daemon R M) : Prop where
  wellFormed : WellFormed rt.crypto.sha256Text d.store.memory
  head : Held rt d.store.memory d.head
  advertised : Truthful rt (d.advertised, d.store.memory)

/-- A call of whose moments each is truthful. -/
abbrev Honest (rt : Runtime R M) : Daemon R M → Daemon R M → Prop :=
  Passes (Truthful rt) (Sound rt) (Sound rt)

theorem Sound.published {d : Daemon R M} (h : Sound rt d)
    (ha : a = d.advertised ∨ a = some d.head) : Truthful rt (a, d.store.memory) := by
  rcases ha with rfl | rfl
  · exact h.advertised
  · exact truthful_some h.head

theorem Calm.honest {d : Daemon R M} (h : Calm d d') : Honest rt d d' := by
  refine h.passes ?_ fun a hsound => hsound.published
  intro hstore hhead hadvertised hsound
  refine ⟨?_, ?_, ?_⟩
  · rw [hstore]
    exact hsound.wellFormed
  · rw [hstore, hhead]
    exact hsound.head
  · rw [hstore]
    exact hsound.published hadvertised

variable {α : Type}

theorem honest_of_calm {act : Act R M α} (h : Moves Calm act) : Moves (Honest rt) act :=
  fun d => (h d).honest

theorem honest_of_steady {act : Act R M α} (h : Moves Steady act) : Moves (Honest rt) act :=
  honest_of_calm (calm_of_steady h)

/-- The log grows, and the head goes to its new end or stays. -/
theorem honest_settled {d : Daemon R M} {store : FileStore} {events : List Event} (head : Head)
    (hstore : store.memory = d.store.memory ++ events)
    (hwell : WellFormed rt.crypto.sha256Text d.store.memory →
      WellFormed rt.crypto.sha256Text store.memory)
    (hhead : head = d.head ∨ MemoryStore.head rt.crypto.sha256Text store.memory = .ok head) :
    Honest rt d { d.settled store with head := head } := by
  have hprefix : d.store.memory <+: store.memory := hstore ▸ List.prefix_append _ _
  refine passes_of_observed (x := (d.advertised, store.memory)) rfl fun hsound => ?_
  have hadvertised : Truthful rt (d.advertised, store.memory) := hsound.advertised.mono hprefix
  refine ⟨⟨hwell hsound.wellFormed, ?_, hadvertised⟩, hadvertised⟩
  rcases hhead with rfl | hhead
  · exact hsound.head.mono hprefix
  · exact held_of_head hhead

theorem honest_storeAppendBatch (events : List Event) :
    Moves (Honest rt) (storeAppendBatch rt m events) := by
  intro d
  rcases @exec_storeAppendBatch R M rt m events d with
    ⟨-, happend⟩ | ⟨-, commitErr, store, hstore, hwell, happend⟩
  · rw [happend]
    exact honest_settled d.head (List.append_nil _).symm id (.inl rfl)
  · rw [happend]
    exact honest_settled d.head hstore hwell (.inl rfl)

theorem honest_appendPlanned {planned : Event × Head}
    (hfollows : Follows rt head planned) : Moves (Honest rt) (appendPlanned rt m planned) := by
  intro d
  unfold appendPlanned
  rw [exec_bind]
  rcases @exec_storeAppendBatch R M rt m [planned.1] d with
    ⟨-, happend⟩ | ⟨-, commitErr, store, hstore, hwell, happend⟩
  · rw [happend]
    exact honest_settled d.head (List.append_nil _).symm id (.inl rfl)
  · rw [happend]
    refine honest_settled planned.2 hstore hwell (.inr ?_)
    rw [hstore]
    exact hfollows.head_append _

/-- Sound, and at a known head of the log. -/
def SoundAt (rt : Runtime R M) (head : Head) (d : Daemon R M) : Prop :=
  Sound rt d ∧ MemoryStore.head rt.crypto.sha256Text d.store.memory = .ok head

theorem soundAt_of_steady {act : Act R M α} (h : Moves Steady act) :
    Moves (Passes (Truthful rt) (SoundAt rt head) (SoundAt rt head)) act := by
  intro d hat
  have hhonest : Honest rt d (exec act d).2 := (h d).toCalm.honest
  obtain ⟨hsound, seen, hmoments, hall⟩ := hhonest hat.1
  refine ⟨⟨hsound, ?_⟩, seen, hmoments, hall⟩
  rw [(h d).store]
  exact hat.2

/-- What is done with the head of the store. -/
theorem honest_storeHead_bind {f : Head → Act R M α}
    (hf : ∀ head, Moves (Passes (Truthful rt) (SoundAt rt head) (Sound rt)) (f head)) :
    Moves (Honest rt) (storeHead rt >>= f) := by
  intro d
  rw [exec_bind, exec_storeHead]
  cases hhead : MemoryStore.head rt.crypto.sha256Text d.store.memory with
  | error err => exact refl_of (Honest rt) d
  | ok head => exact fun hsound => hf head d ⟨hsound, hhead⟩

theorem honest_setConfigHead (head : Head) :
    Moves (Passes (Truthful rt) (SoundAt rt head) (Sound rt))
      (setConfigHead head : Act R M Unit) := by
  refine moves_modify fun d => passes_of_moments_eq rfl ?_
  rintro ⟨hsound, hhead⟩
  exact ⟨hsound.wellFormed, held_of_head hhead, hsound.advertised⟩

theorem honest_storeHead : Moves (Honest rt) (storeHead rt : Act R M Head) :=
  honest_of_calm (moves_get.bind fun _ => moves_ofResult _)

theorem honest_storeLog : Moves (Honest rt) (storeLog rt m) :=
  honest_of_calm (moves_get.bind fun _ => moves_ofResult _)

theorem honest_reportCommit (commitErr : Option StoreError) :
    Moves (Honest rt) (reportCommit commitErr : Act R M Unit) := moves_failIf _

theorem honest_applyTrustConfigLocked (trust : TrustConfig) (adminProofs : List AdminProof) :
    Moves (Honest rt) (applyTrustConfigLocked rt m trust adminProofs) := by
  refine moves_get.bind fun d => moves_check_bind fun _ _ => moves_check_bind fun _ _ => ?_
  refine moves_ite (moves_pure _) (honest_storeHead.bind fun head => ?_)
  refine moves_check_bind fun planned hplanned => ?_
  cases planned with
  | none => exact moves_pure _
  | some planned =>
    refine (honest_appendPlanned (domainTrustEventIfChangedAtHead_follows hplanned).1).bind
      fun commitErr => ?_
    refine Moves.bind (moves_modify fun d => passes_of_moments_eq rfl fun hsound => ?_) fun _ => ?_
    · exact ⟨hsound.wellFormed, hsound.head, hsound.advertised⟩
    · refine (moves_afterCommit ?_).bind fun _ => moves_pure _
      exact (honest_of_steady steady_afterTrustStateChangedLocked).bind fun _ =>
        honest_reportCommit _

theorem honest_applyResourceLocked {operation : String}
    {prepare : Head → Except String (String × List UInt8)} {follow : Act R M Unit}
    (hfollow : Moves Steady follow) (adminProofs : List AdminProof) :
    Moves (Honest rt) (applyResourceLocked rt m operation prepare follow adminProofs) := by
  refine moves_get.bind fun d => moves_check_bind fun _ _ => honest_storeHead.bind fun head => ?_
  refine moves_check_bind fun prepared _ => moves_check_bind fun planned hplanned => ?_
  cases planned with
  | none => exact moves_pure _
  | some planned =>
    refine (honest_appendPlanned (resourceEventIfChangedAtHead_follows hplanned).1).bind
      fun commitErr => ?_
    refine (moves_afterCommit ?_).bind fun _ => moves_pure _
    exact (honest_of_steady hfollow).bind fun _ => honest_reportCommit _

theorem honest_appendVerifiedConfigEvents (events : List Event) (signers : List SignerEntry) :
    Moves (Honest rt) (appendVerifiedConfigEvents rt m events signers) := by
  refine moves_ite (moves_pure _) (honest_storeHead.bind fun head => ?_)
  refine honest_storeLog.bind fun stored => moves_get.bind fun d => ?_
  refine moves_check_bind fun staged _ => moves_check_bind fun s _ => ?_
  refine (honest_storeAppendBatch events).bind fun commitErr => ?_
  refine (moves_afterCommit ?_).bind fun _ => moves_pure _
  refine honest_storeHead_bind fun head => ?_
  refine stage_bind (honest_setConfigHead head) (fun _ => id) fun _ => ?_
  refine (honest_of_calm calm_applyLatestDomainTrustFromLogLocked).bind fun _ => ?_
  refine (honest_of_steady steady_afterAdmissionStateChangedLocked).bind fun _ => ?_
  refine (honest_of_steady (steady_refreshLocalAdvertisement _)).bind fun _ => ?_
  exact (honest_of_steady (steady_commitAfterLogCommit _)).bind fun _ => honest_reportCommit _

/-! ## Starts -/

/-- Nothing has been taken from the log yet. -/
structure Blank (rt : Runtime R M) (d : Daemon R M) : Prop where
  wellFormed : WellFormed rt.crypto.sha256Text d.store.memory
  head : d.head = ⟨0, ""⟩
  advertised : ∀ head, d.advertised = some head → head = ⟨0, ""⟩

/-- A stage of a start before the log is read. -/
abbrev Booting (rt : Runtime R M) : Daemon R M → Daemon R M → Prop :=
  Passes (Truthful rt) (Blank rt) (Blank rt)

theorem Blank.published {d : Daemon R M} (h : Blank rt d)
    (ha : a = d.advertised ∨ a = some d.head) : ∀ head, a = some head → head = ⟨0, ""⟩ := by
  rcases ha with rfl | rfl
  · exact h.advertised
  · intro head hhead
    rw [← Option.some.inj hhead]
    exact h.head

theorem truthful_of_zero (h : ∀ head, a = some head → head = ⟨0, ""⟩)
    (log : List Event) : Truthful rt (a, log) := by
  intro head hhead
  rw [h head hhead]
  exact held_zero log

theorem Blank.sound {d : Daemon R M} (h : Blank rt d) : Sound rt d := by
  refine ⟨h.wellFormed, ?_, truthful_of_zero h.advertised _⟩
  rw [h.head]
  exact held_zero _

theorem booting_of_steady {act : Act R M α} (h : Moves Steady act) : Moves (Booting rt) act := by
  refine fun d => (h d).toCalm.passes ?_ fun a hblank ha => truthful_of_zero (hblank.published ha) _
  intro hstore hhead hadvertised hblank
  refine ⟨?_, hhead.trans hblank.head, hblank.published hadvertised⟩
  rw [hstore]
  exact hblank.wellFormed

theorem booting_settled {d : Daemon R M} {store : FileStore}
    (hwell : WellFormed rt.crypto.sha256Text d.store.memory →
      WellFormed rt.crypto.sha256Text store.memory) : Booting rt d (d.settled store) :=
  passes_of_observed rfl fun hblank =>
    ⟨⟨hwell hblank.wellFormed, hblank.head, hblank.advertised⟩,
      truthful_of_zero hblank.advertised _⟩

theorem booting_openStore : Moves (Booting rt) (openStore rt : Act R M Unit) := by
  refine moves_get_bind fun d => ?_
  cases hopen : newFileStore rt.crypto.sha256Text d.store.file with
  | error err => exact refl_of (Booting rt) d
  | ok store => exact booting_settled fun _ => (mirrored_newFileStore hopen).1

theorem booting_ensureConfigGenesisEvent (desired : Desired R) :
    Moves (Booting rt) (ensureConfigGenesisEvent rt m desired) := by
  refine Moves.bind (booting_of_steady (moves_get.bind fun _ => moves_ofResult _)) fun head => ?_
  refine moves_ite (moves_pure _) ((booting_of_steady (steady_check _)).bind fun event => ?_)
  refine Moves.bind (fun d => ?_) fun commitErr => moves_failIf _
  rcases @exec_storeAppendBatch R M rt m [event] d with
    ⟨-, happend⟩ | ⟨-, commitErr, store, -, hwell, happend⟩
  · rw [happend]
    exact booting_settled id
  · rw [happend]
    exact booting_settled hwell

theorem honest_restoreLatestLocalDesiredFromLogLocked :
    Moves (Honest rt) (restoreLatestLocalDesiredFromLogLocked rt m) := by
  have hexit : ∀ head (d : Daemon R M), SoundAt rt head d → Sound rt d := fun _ _ h => h.1
  refine honest_storeHead_bind fun head => ?_
  refine stage_bind (soundAt_of_steady (moves_get.bind fun _ => moves_ofResult _)) (hexit head)
    fun events => ?_
  refine stage_bind (soundAt_of_steady moves_get) (hexit head) fun d => ?_
  refine stage_bind (soundAt_of_steady (steady_check _)) (hexit head) fun latest => ?_
  cases latest with
  | none => exact fun d => passes_of_moments_eq rfl (hexit head d)
  | some desired =>
    refine moves_ite (fun d => passes_of_moments_eq rfl (hexit head d)) ?_
    refine stage_bind (soundAt_of_steady (steady_runEffect _)) (hexit head) fun _ => ?_
    refine moves_modify fun d => passes_of_moments_eq rfl ?_
    rintro ⟨hsound, hhead⟩
    exact ⟨hsound.wellFormed, held_of_head hhead, hsound.advertised⟩

theorem honest_restoreFromLog : Moves (Honest rt) (restoreFromLog rt m) := by
  refine honest_storeHead_bind fun head => ?_
  refine stage_bind (honest_setConfigHead head) (fun _ => id) fun _ => ?_
  exact (honest_of_calm calm_applyLatestDomainTrustFromLogLocked).bind fun _ =>
    honest_restoreLatestLocalDesiredFromLogLocked

theorem honest_loadAndApply (file : Except String (Desired R)) :
    Moves (Honest rt) (loadAndApply rt m file) := by
  have hexit : ∀ d : Daemon R M, Blank rt d → Sound rt d := fun _ => Blank.sound
  refine stage_bind (moves_modify fun d => ?_) hexit fun _ => ?_
  · refine passes_of_observed (x := (none, d.store.memory)) rfl fun hsound => ⟨⟨?_, rfl, ?_⟩, ?_⟩
    · exact hsound.wellFormed
    · rintro head ⟨⟩
    · rintro head ⟨⟩
  refine stage_bind (booting_of_steady (steady_check _)) hexit fun desired => ?_
  refine stage_bind (booting_of_steady (steady_check _)) hexit fun _ => ?_
  refine stage_bind (moves_modify fun d => passes_of_moments_eq rfl fun h =>
    ⟨h.wellFormed, h.head, h.advertised⟩) hexit fun _ => ?_
  refine stage_bind (booting_of_steady (steady_runEffect _)) hexit fun _ => ?_
  refine stage_bind booting_openStore hexit fun _ => ?_
  refine stage_bind (booting_of_steady steady_registerLocalConfigSigner) hexit fun _ => ?_
  refine stage_bind (booting_of_steady steady_loadConfigSignerCache) hexit fun _ => ?_
  refine stage_bind (booting_of_steady steady_loadPersistedMembers) hexit fun _ => ?_
  refine stage_bind (booting_ensureConfigGenesisEvent desired) hexit fun _ => ?_
  refine stage_bind (booting_of_steady moves_get) hexit fun _ => ?_
  refine stage_bind (booting_of_steady (steady_check _)) hexit fun _ => ?_
  refine stage_bind (fun d hblank => honest_restoreFromLog d hblank.sound) (fun _ => id) fun _ => ?_
  refine (honest_of_steady steady_admitPendingMembers).bind fun _ => ?_
  refine (honest_of_steady (steady_refreshLocalAdvertisement _)).bind fun _ => ?_
  refine (honest_of_steady (steady_runEffect _)).bind fun _ => ?_
  exact honest_of_steady (steady_refreshLocalAdvertisement _)

/-! ## What a call may announce -/

/-- What peers may find while a call is under way: besides the truth, the head that an
apply plans, and in a rejoin the heads of the log that goes and of the one that comes. -/
def Announces (rt : Runtime R M) (m : Moment R M) (d : Daemon R M) (call : Call R)
    (x : Option Head × List Event) : Prop :=
  Truthful rt x ∨
    match call with
    | .applyDesired desired adminProofs =>
      ∃ plan changed, planDesired rt m d desired adminProofs = .ok (plan, changed) ∧
        x = (some plan.head, d.store.memory)
    | .rejoin snapshot _ =>
      Truthful rt (x.1, d.store.memory) ∨ Truthful rt (x.1, snapshot.events)
    | _ => False

/-- A call that takes back what it has announced, should it fail: an apply whose switch
succeeds or is undone with a new advertisement, and whose switch back succeeds if it is
needed; a rejoin that can write the log it found. -/
def Restores (rt : Runtime R M) (d : Daemon R M) (event : Moment R M × Call R) : Prop :=
  match event.2 with
  | .applyDesired desired adminProofs =>
    (Switches event.1 .forward d.desired desired ∨
        event.1.effect (.restore .forward .refreshLocalAdvertisement) = none) ∧
      ¬ Stranded rt event.1 d desired adminProofs
  | .rejoin _ _ => ∀ store : FileStore,
      ¬ Failed (store.replaceAll rt.crypto.sha256Text event.1.rollback d.store.memory).1
  | _ => True

/-! ## Applies -/

section Apply

variable {d : Daemon R M} {desired : Desired R} {adminProofs : List AdminProof}

/-- The planned head is published before the events are in the log. -/
theorem passes_ahead {plan : Planned} {changed : Bool}
    (hplan : planDesired rt m d desired adminProofs = .ok (plan, changed)) :
    Passes (Announces rt m d (.applyDesired desired adminProofs)) (Sound rt)
      (fun s => s.store = d.store) d ((d.install desired plan.head).published m) :=
  passes_of_observed (x := (some plan.head, d.store.memory)) rfl fun _ =>
    ⟨rfl, .inr ⟨plan, changed, hplan, rfl⟩⟩

/-- The old head is published again. -/
theorem passes_back {A : Option Head × List Event → Prop} (hsound : Sound rt d)
    (hA : ∀ x, Truthful rt x → A x) (s : Daemon R M) :
    Passes A (fun s => s.store = d.store) (Sound rt) s
      ((s.install d.desired d.head).published m) := by
  refine passes_of_observed (x := (some d.head, s.store.memory)) rfl fun hstore => ?_
  have htruth : Truthful rt (some d.head, s.store.memory) := by
    rw [hstore]
    exact truthful_some hsound.head
  refine ⟨⟨?_, ?_, htruth⟩, hA _ htruth⟩
  · show WellFormed rt.crypto.sha256Text s.store.memory
    rw [hstore]
    exact hsound.wellFormed
  · show Held rt s.store.memory d.head
    rw [hstore]
    exact hsound.head

theorem passes_apply (hrestores : Restores rt d (m, .applyDesired desired adminProofs)) :
    Passes (Announces rt m d (.applyDesired desired adminProofs)) (Sound rt) (Sound rt) d
      (exec (applyDesiredConfigLocked rt m desired adminProofs) d).2 := by
  intro hsound
  have htrue : ∀ x, Truthful rt x → Announces rt m d (.applyDesired desired adminProofs) x :=
    fun _ => .inl
  obtain ⟨hreadvertises, hstranded⟩ := hrestores
  have happlied := @applied R M rt m desired adminProofs d
  generalize exec (applyDesiredConfigLocked rt m desired adminProofs) d = result at happlied ⊢
  cases happlied with
  | untouched _ _ => exact passes_of_moments_eq rfl id hsound
  | @unswitched plan changed text d' hplan hswitch =>
    have hundone := hreadvertises.resolve_left hswitch.fields_of_error.1
    cases hswitch with
    | refused _ => exact passes_of_moments_eq rfl id hsound
    | @restored _ reached _ hreached =>
      have hmid : Passes (Announces rt m d (.applyDesired desired adminProofs)) (Sound rt)
          (fun s => s.store = d.store) d reached := by
        rcases hreached with rfl | rfl | rfl
        · exact passes_of_moments_eq rfl fun _ => rfl
        · exact passes_of_moments_eq rfl fun _ => rfl
        · exact passes_ahead hplan
      show Sound rt (reached.restored m .forward d.desired d.head) ∧ _
      unfold Daemon.restored
      rw [if_pos hundone]
      exact hmid.trans (passes_back hsound htrue reached) hsound
  | @switched plan changed hplan hnil _ =>
    obtain ⟨head, hhead, hleads⟩ := planDesired_leads hplan
    have hheld : Held rt d.store.memory plan.head := by
      rw [hleads.unchanged hnil]
      exact held_of_head hhead
    refine passes_of_observed (x := (some plan.head, d.store.memory)) rfl (fun hsound => ?_) hsound
    exact ⟨⟨hsound.wellFormed, hheld, truthful_some hheld⟩, .inl (truthful_some hheld)⟩
  | @unappended plan changed text back d' hplan hevents hforward hfailed hswitchBack =>
    have hback : Switches m .back desired d.desired := by
      by_contra hnot
      exact hstranded ⟨plan, changed, hplan, hevents, hforward, hfailed, hnot⟩
    cases back with
    | error err => exact absurd hback hswitchBack.fields_of_error.1
    | ok u =>
      cases hswitchBack with
      | done _ =>
        have hstill : Passes (Announces rt m d (.applyDesired desired adminProofs))
            (fun s => s.store = d.store) (fun s => s.store = d.store)
            ((d.install desired plan.head).published m)
            (((d.install desired plan.head).published m).settled d.store) :=
          passes_of_observed (x := (some plan.head, d.store.memory)) rfl fun _ =>
            ⟨rfl, .inr ⟨plan, changed, hplan, rfl⟩⟩
        exact ((passes_ahead hplan).trans hstill).trans (passes_back hsound htrue _) hsound
  | @appended plan changed store result d' hplan hevents _ _ hstore hwell hsteady _ =>
    obtain ⟨head, -, hleads⟩ := planDesired_leads hplan
    have hheld : Held rt store.memory plan.head := by
      rw [hstore]
      exact held_of_head (hleads.head_append hevents _)
    have hcaught : Passes (Announces rt m d (.applyDesired desired adminProofs))
        (fun s => s.store = d.store) (Sound rt)
        ((d.install desired plan.head).published m)
        (((d.install desired plan.head).published m).settled store) :=
      passes_of_observed (x := (some plan.head, store.memory)) rfl fun _ =>
        ⟨⟨hwell hsound.wellFormed, hheld, truthful_some hheld⟩, .inl (truthful_some hheld)⟩
    have hafter : Honest rt (((d.install desired plan.head).published m).settled store) d' :=
      hsteady.toCalm.honest
    exact ((passes_ahead hplan).trans hcaught).trans (hafter.allow htrue) hsound

end Apply

/-! ## Rejoins -/

theorem passes_rejoin {d : Daemon R M} {snapshot : Snapshot} {preserveLocalDesired : Bool}
    (hrestores : Restores rt d (m, .rejoin snapshot preserveLocalDesired)) :
    Passes (Announces rt m d (.rejoin snapshot preserveLocalDesired)) (Sound rt) (Sound rt) d
      (exec (replaceConfigLogWithVerifiedSnapshot rt m snapshot preserveLocalDesired) d).2 := by
  intro hsound
  have hends := (ends_rejoin (m := m) d hsound.wellFormed snapshot preserveLocalDesired).holds d rfl
  have hannounces : ∀ {s}, Since (Heard rt d snapshot.events) d s →
      Since (Announces rt m d (.rejoin snapshot preserveLocalDesired)) d s := by
    refine fun h => h.mono ?_
    rintro x ((hbefore | hbefore) | hnew | htrue)
    · exact .inr (.inl (hbefore ▸ hsound.advertised))
    · exact .inr (.inl (hbefore ▸ truthful_some hsound.head))
    · exact .inr (.inr hnew)
    · exact .inl htrue
  have hnew : ∀ s, Concluded rt d snapshot.events s →
      Sound rt s ∧ Since (Announces rt m d (.rejoin snapshot preserveLocalDesired)) d s :=
    fun s hs => ⟨⟨hs.wellFormed, held_of_head hs.head, hs.advertised⟩, hannounces hs.since⟩
  rcases hexec : exec (replaceConfigLogWithVerifiedSnapshot rt m snapshot preserveLocalDesired) d
    with ⟨(text | ⟨operation, text⟩) | changed, s⟩
  · rw [hexec] at hends
    obtain ⟨⟨hmemory, hhead, -⟩, hadvertised, hsince⟩ := hends
    refine ⟨⟨hmemory ▸ hsound.wellFormed, ?_, ?_⟩, hannounces hsince⟩
    · rw [hmemory, hhead]
      exact hsound.head
    · rw [hmemory]
      exact hsound.published hadvertised
  · rw [hexec] at hends
    rcases hends with hs | ⟨-, store, hfailed⟩
    · exact hnew s hs
    · exact absurd hfailed (hrestores store)
  · rw [hexec] at hends
    exact hnew s hends

/-! ## Runs -/

/-- **One call.** -/
theorem passes_perform {d : Daemon R M} {call : Call R} (hrestores : Restores rt d (m, call)) :
    Passes (Announces rt m d call) (Sound rt) (Sound rt) d (exec (perform rt m call) d).2 := by
  have honest {α : Type} {act : Act R M α} (h : Moves (Honest rt) act) :
      Passes (Announces rt m d call) (Sound rt) (Sound rt) d (exec act d).2 :=
    (h d).allow fun _ => .inl
  cases call with
  | start file => exact honest (honest_loadAndApply file)
  | applyDesired desired adminProofs =>
    unfold perform
    rw [exec_discard]
    exact passes_apply hrestores
  | applyTrust trust adminProofs =>
    unfold perform
    rw [exec_discard]
    exact honest (honest_applyTrustConfigLocked trust adminProofs)
  | applyAdmission prepare adminProofs =>
    unfold perform
    rw [exec_discard]
    exact honest (honest_applyResourceLocked steady_afterAdmissionStateChangedLocked adminProofs)
  | applyEndpointGrant prepare adminProofs =>
    unfold perform
    rw [exec_discard]
    exact honest (honest_applyResourceLocked steady_afterEndpointGrant adminProofs)
  | sync events signers =>
    unfold perform
    rw [exec_discard]
    exact honest (honest_appendVerifiedConfigEvents events signers)
  | rejoin snapshot preserveLocalDesired =>
    unfold perform
    rw [exec_discard]
    exact passes_rejoin hrestores
  | refresh => exact honest (honest_of_steady (steady_refreshLocalAdvertisement _))

theorem sound_of_reaches {start d : Daemon R M} (hstart : Sound rt start)
    (hreached : Reaches (step rt) (Restores rt) start d) : Sound rt d := by
  refine hreached.invariant (Sound rt) hstart ?_
  rintro s ⟨m, call⟩ t hsound hrestores htaken
  cases htaken
  exact (passes_perform hrestores hsound).1

theorem sound_labDaemon : Sound labRuntime (labDaemon emptyTrust [labGenesis] labGenesisHead) :=
  ⟨wellFormed_labGenesis, held_of_head head_labGenesis,
    truthful_some (held_of_head head_labGenesis)⟩

/-- The genesis alone has no head past the first. -/
theorem seq_le_of_held_labGenesis (h : Held labRuntime [labGenesis] head) : head.seq ≤ 1 := by
  obtain ⟨held, hprefix, hhead⟩ := h
  rcases List.prefix_cons_iff.mp hprefix with rfl | ⟨rest, rfl, hrest⟩
  · rw [← Except.ok.inj hhead]
    exact Nat.zero_le 1
  · rw [List.prefix_nil.mp hrest, head_labGenesis] at hhead
    rw [← Except.ok.inj hhead]
    exact Nat.le_refl 1

end ConfigDaemon
