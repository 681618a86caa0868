/-
# Restoring an archive

`restoreConfigArchive` writes the files of an archive, switches the runtime to the archived
configuration, replaces the log and puts the new log to use; what fails on the way is taken
back, the files last (`internal/daemon/config_restore_archive.go`).

* `ends_restoreSnapshot` : how the part on log and runtime ends;
* `archive_restore_all_or_nothing` : the whole call, for archives whose targets carry no
  blanks around them.
-/
import TrustIX.ArchiveFiles
import TrustIX.Rejoin

namespace ConfigDaemon

open Pki TrustPolicy ConfigEvent ConfigStore EventVerify LogVerify Fallible Mutation FileSwap

variable {R M : Type} (rt : Runtime R M) (m : Moment R M)

/-! ## Log and runtime -/

/-- What follows the replacement of the log: the head of the log. -/
def afterArchiveReplace (used : SignerMap) : Act R M Head := do
  let head ← storeHead rt
  applyLatestDomainTrustFromLogLocked rt m
  afterAdmissionStateChangedLocked rt m
  refreshLocalAdvertisement m .rejoinAdvertisement
  commitConfigSignerCertificates rt m .commit used true
  pure head

/-- The new log, or the old runtime. -/
def replaceOrRestoreRuntime (old : Daemon R M) (events : List Event) :
    Act R M (Option StoreError) :=
  tryCatch (storeReplaceAll rt m.replace events) fun err => do
    let errs ← restoreDesiredRuntimeState m .back old.desired old.head
    throw (.rejected ("replace config log from restore archive: " ++ err.text ++
      errs.head?.elim "" fun e => "\nrestore previous runtime: " ++ e.text))

/-- Switches to the configuration of the snapshot and replaces the log by it: the head. -/
def restoreConfigSnapshotFromArchive (snapshot : Snapshot) : Act R M Head := do
  let old ← get
  let used ← check
    (verifyConfigSnapshotLocked (rt.world m) (old.node rt) old.desired.trust snapshot)
  let latest ← check (latestLocalDesiredFromEvents rt m old snapshot.events)
  let restored ← check (requireDesired old latest)
  let head ← storeHead rt
  check (rejectIf (head ≠ old.head) "config log head changed before restore")
  let oldEvents ← storeLog rt m
  switchDesiredRuntime m .forward restored snapshot.head
  let commitErr ← replaceOrRestoreRuntime rt m old snapshot.events
  let head ← tryCatch (afterArchiveReplace rt m used)
    (rollbackFailedConfigSnapshotRestore rt m "config restore" old oldEvents)
  afterCommit "config restore" (reportCommit commitErr)
  pure head

/-! ## The whole restore -/

/-- A daemon and its disk. -/
structure Host (R M : Type) where
  daemon : Daemon R M
  disk : Files

/-- `configRestoreArchiveResponse`. -/
structure RestoreResponse where
  domainID : String
  ixID : String
  head : Head
  filesRestored : List RestoredFile
  filesSkipped : ℕ
  privateKeysRestored : ℕ

variable (codec : ArchiveCodec R) (site : Site R) (f : DiskMoment)

/-- Everything before the first file is written. -/
def prepareRestore (d : Daemon R M) (tar : List TarEntry) :
    Except String (Archive R × List ValidatedFile) := do
  let archive ← parseConfigRestoreArchive rt m codec tar
  validateConfigRestoreArchiveMetadata d archive
  let latest ← latestLocalDesiredFromEventsWithoutRuntimeValidation rt m d archive.snapshot.events
  let restored ← requireDesired d latest
  let files ← validateConfigRestoreArchiveFiles rt site d.desired restored archive
  .ok (archive, files)

/-- The files stay unless the error says that nothing is committed. -/
def restoreConfigArchive (tar : List TarEntry) (host : Host R M) :
    Except RestoreError RestoreResponse × Host R M :=
  match prepareRestore rt m codec site host.daemon tar with
  | .error text => (.error ⟨.rejected text, []⟩, host)
  | .ok (archive, files) =>
    match restoreConfigArchiveFiles f files host.disk with
    | (.error err, disk) => (.error err, { host with disk := disk })
    | (.ok restored, disk) =>
      match exec (restoreConfigSnapshotFromArchive rt m archive.snapshot.toSnapshot)
          host.daemon with
      | (.ok head, daemon) =>
        (.ok ⟨archive.manifest.domainID, archive.manifest.ixID, head, restored.statuses,
          restored.skipped, restored.privateKeys⟩, ⟨daemon, disk⟩)
      | (.error (.committed operation text), daemon) =>
        (.error ⟨.committed operation text, []⟩, ⟨daemon, disk⟩)
      | (.error (.rejected text), daemon) =>
        let (errs, disk) := rollbackConfigRestoreFiles f restored.changes disk
        (.error ⟨.rejected text, errs⟩, ⟨daemon, disk⟩)

/-! ## The policy of the log -/

/-- A configuration under another policy, if there is one. -/
def Desired.underTrust (rt : Runtime R M) (desired : Desired R) : Option TrustConfig → Desired R
  | none => desired
  | some trust =>
    if trustConfigsEqual rt.crypto desired.trust trust then desired
    else { desired with trust := trust }

/-- A configuration with the policy of the last trust event, if the log has one. -/
def Desired.underLog (rt : Runtime R M) (m : Moment R M) (events : List Event)
    (desired : Desired R) : Desired R :=
  match latestDomainTrust (rt.world m) desired.domainID events with
  | .ok latest => Desired.underTrust rt desired latest
  | .error _ => desired

/-- The log is `events`, `head` is in force, and so is `desired`. -/
structure InForce (events : List Event) (head : Head) (desired : Desired R) (d : Daemon R M) :
    Prop where
  log : d.store.memory = events
  head : d.head = head
  desired : d.desired = desired

variable {rt m} {events : List Event} {head : Head} {desired : Desired R}

theorem InForce.steady {d d' : Daemon R M} (h : InForce events head desired d)
    (hsteady : Steady d d') : InForce events head desired d' := by
  refine ⟨?_, ?_, ?_⟩
  · rw [hsteady.store, h.log]
  · rw [hsteady.head, h.head]
  · rw [hsteady.desired, h.desired]

theorem ends_inForce_of_steady {α : Type} {act : Act R M α} (h : Moves Steady act) :
    Ends (InForce events head desired) act (fun _ => InForce events head desired)
      fun _ _ => True :=
  (h.ends fun _ _ => InForce.steady).mono (fun _ => id) (fun _ _ => id) fun _ _ _ => trivial

/-- The configuration gets the policy of the log. -/
theorem ends_applyLatestDomainTrust (head : Head) (desired : Desired R)
    (hwell : WellFormed rt.crypto.sha256Text events) {found : Head}
    (hhead : MemoryStore.head rt.crypto.sha256Text events = .ok found) :
    Ends (InForce events head desired) (applyLatestDomainTrustFromLogLocked rt m)
      (fun _ => InForce events head (Desired.underLog rt m events desired)) fun _ _ => True := by
  refine ends_of_each fun d hd => ?_
  have hlog : exec (storeLog rt m) d = (.ok events, d) := by
    refine exec_storeLog_eq_ok.mpr ⟨?_, rfl⟩
    rw [hd.log]
    exact storedEvents_eq hwell hhead
  refine (ends_of_exec hlog (Q := fun found s => found = events ∧ s = d) ⟨rfl, rfl⟩).bind
    fun found => ends_of_each fun s hs => ?_
  obtain ⟨rfl, rfl⟩ := hs
  refine ends_get_bind fun t ht => ?_
  subst ht
  refine ends_check_bind (fun latest hlatest => ?_) fun _ _ _ => trivial
  rw [hd.desired] at hlatest ⊢
  have hunder : Desired.underLog rt m found desired = Desired.underTrust rt desired latest := by
    unfold Desired.underLog
    rw [hlatest]
  rw [hunder]
  cases latest with
  | none => exact ends_pure _ fun s hs => hs ▸ hd
  | some trust =>
    simp only [Desired.underTrust]
    split_ifs with hequal
    · exact ends_pure _ fun s hs => hs ▸ hd
    · refine Ends.bind (S := fun _ => InForce found head { desired with trust := trust })
        (ends_of_exec (exec_modify _ _) ⟨hd.log, hd.head, ?_⟩) fun _ =>
          ends_inForce_of_steady steady_afterTrustStateChangedLocked
      show { t.desired with trust := trust } = _
      rw [hd.desired]

/-- What a failed replacement leaves: an error that is not a committed one leaves everything
as it was, and a committed one leaves `P`. -/
def Settled (P : Daemon R M → Prop) (old : Daemon R M) (err : Failure) (d : Daemon R M) : Prop :=
  match err with
  | .rejected _ => Restored old d
  | .committed _ _ => P d

/-! ## How the snapshot is restored -/

theorem ends_switchDesiredRuntime (round : Round) (desired : Desired R) (head : Head)
    (d : Daemon R M) :
    Ends (· = d) (switchDesiredRuntime m round desired head)
      (fun _ s => s.store = d.store ∧ s.desired = desired ∧ s.head = head)
      fun err s => (∃ text, err = .rejected text) ∧ s.store = d.store ∧ s.desired = d.desired ∧
        s.head = d.head := by
  rcases hswitch : exec (switchDesiredRuntime m round desired head) d with ⟨err | ⟨⟩, d'⟩
  · have hswitched := switched (m := m) round desired head d
    rw [hswitch] at hswitched
    refine ends_of_exec_error hswitch ⟨?_, hswitched.fields_of_error.2⟩
    cases hswitched with
    | refused hfail => exact ⟨_, rfl⟩
    | restored hfail hreached => exact ⟨_, rfl⟩
  · have hswitched := switched (m := m) round desired head d
    rw [hswitch] at hswitched
    refine ends_of_exec hswitch ?_
    cases hswitched with
    | done hall => exact ⟨rfl, rfl, rfl⟩

/-- The log is the new one, or everything is as before. -/
theorem ends_replaceOrRestoreRuntime {old : Daemon R M} :
    Ends (fun s => s.store = old.store ∧ s.desired = desired ∧ s.head = head)
      (replaceOrRestoreRuntime rt m old events) (fun _ => InForce events head desired)
      (Settled (fun _ => True) old) := by
  refine ends_of_each fun d ⟨hstore, hdesired, hhead⟩ => ?_
  refine ((ends_storeReplaceAll m.replace events d).mono (fun _ => id) ?_ fun _ _ => id).tryCatch
    fun err => ends_of_each fun s hs => ?_
  · rintro _ s ⟨store, rfl, hmemory, -⟩
    exact ⟨hmemory, hhead, hdesired⟩
  · obtain ⟨-, rfl⟩ := hs
    obtain ⟨errs, hrestore⟩ := exec_restoreDesiredRuntimeState (m := m) .back old.desired old.head
      (d.settled d.store)
    refine (ends_of_exec hrestore (Q := fun _ => Restored old) ?_).bind fun _ =>
      ends_throw _ fun _ => id
    obtain ⟨hkept, hback, hheadBack⟩ :=
      Daemon.restored_fields (m := m) .back (d.settled d.store) old.desired old.head
    refine ⟨?_, hheadBack, hback⟩
    rw [hkept]
    exact congrArg FileStore.memory hstore

theorem ends_afterArchiveReplace (used : SignerMap) (hwell : WellFormed rt.crypto.sha256Text events)
    (hhead : MemoryStore.head rt.crypto.sha256Text events = .ok head) :
    Ends (InForce events head desired) (afterArchiveReplace rt m used)
      (fun found s => found = head ∧ InForce events head (Desired.underLog rt m events desired) s)
      fun _ _ => True := by
  refine ends_of_each fun d hd => ?_
  have hstored : MemoryStore.head rt.crypto.sha256Text d.store.memory = .ok head := by
    rw [hd.log]
    exact hhead
  refine (ends_storeHead_of_eq_ok hstored).bind fun found => ends_of_each fun s hs => ?_
  obtain ⟨rfl, rfl⟩ := hs
  refine ((ends_applyLatestDomainTrust found desired hwell hhead).at_state hd).bind fun _ => ?_
  refine (ends_inForce_of_steady steady_afterAdmissionStateChangedLocked).bind fun _ => ?_
  refine (ends_inForce_of_steady (steady_refreshLocalAdvertisement _)).bind fun _ => ?_
  refine (ends_inForce_of_steady (steady_commitConfigSignerCertificates _ _ _)).bind fun _ => ?_
  exact ends_pure _ fun _ hs => ⟨rfl, hs⟩

/-- **The snapshot is restored, or nothing is**, unless the error is a committed one. -/
theorem ends_restoreSnapshot (old : Daemon R M)
    (hwell : WellFormed rt.crypto.sha256Text old.store.memory) (snapshot : Snapshot) :
    Ends (· = old) (restoreConfigSnapshotFromArchive rt m snapshot)
      (fun found d => found = snapshot.head ∧ ∃ restored,
        latestLocalDesiredFromEvents rt m old snapshot.events = .ok (some restored) ∧
        InForce snapshot.events snapshot.head (Desired.underLog rt m snapshot.events restored) d)
      (Settled (fun _ => True) old) := by
  refine ends_get_bind fun d hd => ?_
  subst hd
  have hsame : ∀ text s, s = d → Settled (fun _ => True) d (.rejected text) s := by
    rintro text s rfl
    exact ⟨rfl, rfl, rfl⟩
  refine ends_check_bind (fun used hused => ?_) hsame
  refine ends_check_bind (fun latest hlatest => ?_) hsame
  refine ends_check_bind (fun restored hrestored => ?_) hsame
  obtain rfl : latest = some restored := by
    cases latest with
    | none => cases hrestored
    | some found => exact congrArg some (Except.ok.inj hrestored)
  refine ((ends_storeHead d).mono (fun _ => id) (fun _ _ => id) ?_).bind fun head => ?_
  · rintro err s ⟨⟨text, rfl, -⟩, rfl⟩
    exact hsame text s rfl
  refine ends_of_each fun s ⟨hhead, hs⟩ => ?_
  subst hs
  refine ends_check_bind (fun _ _ => ?_) hsame
  have hlog : exec (storeLog rt m) s = (.ok s.store.memory, s) :=
    exec_storeLog_eq_ok.mpr ⟨storedEvents_eq hwell hhead, rfl⟩
  refine (ends_of_exec hlog (Q := fun old t => old = s.store.memory ∧ t = s) ⟨rfl, rfl⟩).bind
    fun oldEvents => ends_of_each fun t ht => ?_
  obtain ⟨rfl, rfl⟩ := ht
  refine ((ends_switchDesiredRuntime .forward restored snapshot.head t).mono (fun _ => id)
    (fun _ _ => id) ?_).bind fun _ => ?_
  · rintro err s ⟨⟨text, rfl⟩, hstore, hdesired, hheadKept⟩
    exact ⟨congrArg FileStore.memory hstore, hheadKept, hdesired⟩
  refine ends_replaceOrRestoreRuntime.bind fun commitErr => ?_
  obtain ⟨hchained, hsnapshot⟩ := head_of_verifyConfigSnapshot hused
  have hafter : Ends (InForce snapshot.events snapshot.head restored)
      (tryCatch (afterArchiveReplace rt m used)
        (rollbackFailedConfigSnapshotRestore rt m "config restore" t t.store.memory))
      (fun found s => found = snapshot.head ∧ InForce snapshot.events snapshot.head
        (Desired.underLog rt m snapshot.events restored) s) (Settled (fun _ => True) t) :=
    (ends_afterArchiveReplace used hchained hsnapshot).tryCatch
      fun cause => ends_rollback _ cause (fun _ _ _ _ => trivial) fun _ _ _ _ h => h.restored
  refine hafter.bind fun found => ends_of_each fun s hs => ?_
  obtain ⟨rfl, hinForce⟩ := hs
  have hsteady : Moves Steady (reportCommit commitErr : Act R M Unit) := moves_failIf _
  have hreport := (hsteady.ends fun _ _ => @InForce.steady R M snapshot.events snapshot.head
    (Desired.underLog rt m snapshot.events restored) _ _)
  refine ((ends_afterCommit hreport fun _ _ _ => trivial).at_state hinForce).bind fun _ => ?_
  exact ends_pure _ fun _ hs => ⟨rfl, restored, hlatest, hs⟩

/-! ## The archive's own configuration -/

/-- Configurations with one encoding are of one IX. -/
def EncodingsNameIX (rt : Runtime R M) (m : Moment R M) (codec : ArchiveCodec R) : Prop :=
  ∀ payload payload' desired desired', codec.decodeDesired payload = .ok desired →
    rt.decodeDesired payload' = .ok desired' →
    desiredConfigsEqual rt (normalize (rt.world m) desired) (normalize (rt.world m) desired') →
    desired'.ixID = desired.ixID

variable {codec : ArchiveCodec R} {tar : List TarEntry} {archive : Archive R} {d : Daemon R M}

/-- What an entry decodes to is the value of some bytes. -/
theorem decodeEntry_eq_ok {α : Type} {entries : Entries} {name : String}
    {decode : List UInt8 → Except String α} {value : α}
    (h : decodeEntry entries name decode = .ok value) : ∃ payload, decode payload = .ok value := by
  unfold decodeEntry at h
  split at h
  · cases h
  · exact ⟨_, mapError_eq_ok.mp h⟩

/-- What is known of the configuration of an archive that was read. -/
theorem desired_of_parse (h : parseConfigRestoreArchive rt m codec tar = .ok archive) :
    (∃ payload, codec.decodeManifest payload = .ok archive.manifest) ∧
    (∃ payload decoded, codec.decodeDesired payload = .ok decoded ∧
      archive.desired = normalize (rt.world m) decoded) ∧
    archive.desired.ixID = archive.manifest.ixID ∧
    validateRestoreArchiveDesiredEntry rt m archive.desired archive.snapshot.events
      archive.manifest.ixID = .ok () := by
  obtain ⟨read, -, h⟩ := bind_eq_ok.mp h
  obtain ⟨manifest, hmanifest, h⟩ := bind_eq_ok.mp h
  obtain ⟨snapshot, -, h⟩ := bind_eq_ok.mp h
  obtain ⟨decoded, hdecoded, h⟩ := bind_eq_ok.mp h
  obtain ⟨hidentity, h⟩ := seq_eq_ok.mp h
  obtain ⟨-, h⟩ := seq_eq_ok.mp h
  obtain ⟨-, h⟩ := seq_eq_ok.mp h
  obtain ⟨hentry, h⟩ := seq_eq_ok.mp h
  cases h
  obtain ⟨-, hix⟩ := not_or.mp (rejectIf_eq_ok.mp hidentity)
  obtain ⟨payload, hpayload⟩ := decodeEntry_eq_ok hdecoded
  exact ⟨decodeEntry_eq_ok hmanifest, ⟨payload, decoded, hpayload, rfl⟩, not_not.mp hix, hentry⟩

/-- The archive is for the IX of the daemon. -/
theorem ixID_of_metadata (h : validateConfigRestoreArchiveMetadata d archive = .ok ()) :
    archive.manifest.ixID = d.desired.ixID := by
  obtain ⟨-, h⟩ := seq_eq_ok.mp h
  obtain ⟨-, h⟩ := seq_eq_ok.mp h
  obtain ⟨hix, -⟩ := seq_eq_ok.mp h
  exact not_not.mp (rejectIf_eq_ok.mp hix)

/-- A search that is content with less finds the same, if it finds what the other wants. -/
theorem find?_eq_of_imp {α : Type} {p q : α → Bool} {l : List α} {a : α}
    (hfind : l.find? p = some a) (hq : q a) (himp : ∀ b, q b → p b) : l.find? q = some a := by
  obtain ⟨-, before, after, rfl, hbefore⟩ := List.find?_eq_some_iff_append.mp hfind
  refine List.find?_eq_some_iff_append.mpr ⟨hq, before, after, rfl, fun b hb => ?_⟩
  have hnot := hbefore b hb
  by_contra hqb
  rw [himp b (by simpa using hqb)] at hnot
  cases hnot

/-- **The configuration that the log of an archive restores** is the one in `desired.json`. -/
theorem desired_of_archive (hnames : EncodingsNameIX rt m codec)
    (hparse : parseConfigRestoreArchive rt m codec tar = .ok archive)
    (hmeta : validateConfigRestoreArchiveMetadata d archive = .ok ()) {restored : Desired R}
    (hlatest : latestLocalDesiredFromEvents rt m d archive.snapshot.events = .ok (some restored)) :
    desiredConfigsEqual rt archive.desired restored := by
  obtain ⟨-, ⟨payload, decoded, hdecode, hdesired⟩, hix, hentry⟩ := desired_of_parse hparse
  have hlocal := ixID_of_metadata hmeta
  unfold validateRestoreArchiveDesiredEntry at hentry
  split at hentry
  · cases hentry
  rename_i event hfind
  obtain ⟨fromEvent, hfromEvent, hentry⟩ := bind_eq_ok.mp hentry
  replace hfromEvent := mapError_eq_ok.mp hfromEvent
  have hsame : desiredConfigsEqual rt archive.desired (normalize (rt.world m) fromEvent) := by
    simpa using rejectIf_eq_ok.mp hentry
  rw [hlocal] at hfind
  have hevent : isDesiredOf rt d.desired.ixID event := by
    have hresource := List.find?_some hfind
    rw [Bool.or_eq_true] at hresource
    unfold isDesiredOf eventIsLocalDesired
    rcases hresource with hown | hlegacy
    · simp [hown]
    · rw [hdesired] at hsame
      have hnamed : fromEvent.ixID = archive.desired.ixID := by
        rw [hnames payload _ decoded fromEvent hdecode hfromEvent hsame, hdesired]
        rfl
      simp [beq_iff_eq.mp hlegacy, hfromEvent, Except.toOption, hnamed, hix, hlocal]
  have hfound : archive.snapshot.events.reverse.find? (isDesiredOf rt d.desired.ixID) =
      some event := by
    refine find?_eq_of_imp hfind hevent fun other hother => ?_
    unfold isDesiredOf eventIsLocalDesired at hother
    rw [Bool.or_eq_true, Bool.and_eq_true] at hother
    rw [Bool.or_eq_true]
    exact hother.imp_right And.left
  unfold latestLocalDesiredFromEvents at hlatest
  simp only [hfound, hfromEvent] at hlatest
  obtain ⟨again, hagain, hlatest⟩ := bind_eq_ok.mp hlatest
  obtain ⟨-, hlatest⟩ := seq_eq_ok.mp hlatest
  injection hagain with hagain
  injection hlatest with hlatest
  injection hlatest with hlatest
  rw [← hlatest, ← hagain]
  exact hsame

/-! ## The whole call -/

/-- Log, head, configuration and files are as before. -/
structure Unchanged (host host' : Host R M) : Prop where
  daemon : Restored host.daemon host'.daemon
  disk : host'.disk = host.disk

/-- The files of an archive, with their contents. -/
structure FilesOf (archive : Archive R) (files : List ValidatedFile) : Prop where
  listed : files.map ValidatedFile.manifest = archive.manifest.files
  content : ∀ file ∈ files, ∃ name,
    normalizeRestoreArchivePath file.manifest.archivePath = .ok name ∧
      archive.entries.lookup name = some file.payload

/-- Log and head are those of the archive, the configuration is its own, under the policy of
the log, and every file that it has for some target is there. -/
structure FromArchive (rt : Runtime R M) (m : Moment R M) (f : DiskMoment) (archive : Archive R)
    (files : List ValidatedFile) (host host' : Host R M) : Prop where
  log : host'.daemon.store.memory = archive.snapshot.events
  head : host'.daemon.head = archive.snapshot.head
  desired : ∃ restored, desiredConfigsEqual rt archive.desired restored ∧
    host'.daemon.desired = Desired.underLog rt m archive.snapshot.events restored
  targets : ∀ p file, (files.reverse.find? fun file => file.target f == p) = some file →
    host'.disk.lookup p = some file.inode
  others : ∀ p, (∀ file ∈ files, file.target f ≠ p) → host.disk.lookup p ≠ none →
    host'.disk.lookup p = host.disk.lookup p

/-- A file that passes is listed as it was, with its content. -/
theorem validateFile_eq_ok {site : Site R} {current restored : Desired R} {file : FileManifest}
    {found : ValidatedFile}
    (hfile : validateConfigRestoreArchiveFile rt site current restored archive file = .ok found) :
    found.manifest = file ∧ normalizeRestoreArchivePath file.archivePath = .ok found.archivePath ∧
      archive.entries.lookup found.archivePath = some found.payload := by
  obtain ⟨archivePath, hpath, hfile⟩ := bind_eq_ok.mp hfile
  split at hfile
  · cases hfile
  rename_i payload hpayload
  obtain ⟨-, hfile⟩ := seq_eq_ok.mp hfile
  obtain ⟨-, hfile⟩ := seq_eq_ok.mp hfile
  obtain ⟨-, hfile⟩ := seq_eq_ok.mp hfile
  simp only at hfile
  split at hfile
  · obtain ⟨-, hfile⟩ := seq_eq_ok.mp hfile
    obtain ⟨-, hfile⟩ := seq_eq_ok.mp hfile
    cases hfile
    exact ⟨rfl, hpath, hpayload⟩
  · cases hfile

theorem filesOf_validate {site : Site R} {current restored : Desired R} {files : List ValidatedFile}
    (h : validateConfigRestoreArchiveFiles rt site current restored archive = .ok files) :
    FilesOf archive files := by
  have hall := mapM_eq_ok.mp h
  refine ⟨?_, fun file hfile => ?_⟩
  · clear h
    generalize archive.manifest.files = listed at hall ⊢
    induction hall with
    | nil => rfl
    | cons hfirst _ ih => rw [List.map_cons, ih, (validateFile_eq_ok hfirst).1]
  · obtain ⟨listed, -, hfound⟩ := exists_of_mem_mapM h hfile
    obtain ⟨hmanifest, hpath, hpayload⟩ := validateFile_eq_ok hfound
    exact ⟨file.archivePath, hmanifest ▸ hpath, hpayload⟩

variable {site : Site R} {f : DiskMoment} {host host' : Host R M}

/-- What is known once the first file may be written. -/
theorem prepareRestore_eq_ok {files : List ValidatedFile}
    (h : prepareRestore rt m codec site d tar = .ok (archive, files)) :
    parseConfigRestoreArchive rt m codec tar = .ok archive ∧
      validateConfigRestoreArchiveMetadata d archive = .ok () ∧ FilesOf archive files := by
  obtain ⟨parsed, hparse, h⟩ := bind_eq_ok.mp h
  obtain ⟨hmeta, h⟩ := seq_eq_ok.mp h
  obtain ⟨latest, -, h⟩ := bind_eq_ok.mp h
  obtain ⟨restored, -, h⟩ := bind_eq_ok.mp h
  obtain ⟨validated, hvalidated, h⟩ := bind_eq_ok.mp h
  injection h with h
  injection h with harchive hfiles
  subst harchive hfiles
  exact ⟨hparse, hmeta, filesOf_validate hvalidated⟩

/-- The targets of an archive mean the same with the blanks around them. -/
def TrimmedTargets (rt : Runtime R M) (m : Moment R M) (codec : ArchiveCodec R) (f : DiskMoment)
    (tar : List TarEntry) : Prop :=
  ∀ archive, parseConfigRestoreArchive rt m codec tar = .ok archive →
    ∀ file ∈ archive.manifest.files,
      f.resolve file.sourcePath = f.resolve (GoText.trimSpace file.sourcePath)

/-- A call that fails with every rollback in order has changed nothing. -/
def RollsBack (host : Host R M) : Except RestoreError RestoreResponse × Host R M → Prop
  | (.error ⟨.rejected _, []⟩, host') => Unchanged host host'
  | _ => True

/-- A call that succeeds has restored the whole archive. -/
def Completes (rt : Runtime R M) (m : Moment R M) (codec : ArchiveCodec R) (f : DiskMoment)
    (tar : List TarEntry) (host : Host R M) :
    Except RestoreError RestoreResponse × Host R M → Prop
  | (.ok response, host') => response.head = host'.daemon.head ∧ ∃ archive files,
      parseConfigRestoreArchive rt m codec tar = .ok archive ∧ FilesOf archive files ∧
        FromArchive rt m f archive files host host'
  | _ => True

/-- **A restore is all or nothing.**  Let the targets of the archive carry no blanks around
them.  Whatever fails, an error that is not a committed one and that names no failed step of
the rollback leaves files, log, head and configuration as they were.  A call that succeeds
leaves the log and head of the archive, the archived configuration under the policy of the
last trust event of that log, and in every target the last file that the archive has for
it. -/
theorem archive_restore_all_or_nothing (rt : Runtime R M) (m : Moment R M)
    (codec : ArchiveCodec R) (site : Site R) (f : DiskMoment) (tar : List TarEntry)
    (host : Host R M) (hwell : WellFormed rt.crypto.sha256Text host.daemon.store.memory)
    (hnames : EncodingsNameIX rt m codec) (htrimmed : TrimmedTargets rt m codec f tar) :
    RollsBack host (restoreConfigArchive rt m codec site f tar host) ∧
      Completes rt m codec f tar host (restoreConfigArchive rt m codec site f tar host) := by
  unfold restoreConfigArchive
  cases hprepare : prepareRestore rt m codec site host.daemon tar with
  | error text => exact ⟨⟨⟨rfl, rfl, rfl⟩, rfl⟩, trivial⟩
  | ok prepared =>
    obtain ⟨archive, files⟩ := prepared
    obtain ⟨hparse, hmeta, hfiles⟩ := prepareRestore_eq_ok hprepare
    have hall : ∀ file ∈ files, Trimmed f file := fun file hfile =>
      htrimmed archive hparse file.manifest (hfiles.listed ▸ List.mem_map_of_mem hfile)
    have hundone : Undone f host.disk (restoreConfigArchiveFiles f files host.disk) :=
      undone_restoreFilesFrom hall (journaled_nil host.disk)
    simp only
    rcases hwrite : restoreConfigArchiveFiles f files host.disk with
      ⟨⟨⟨cause, errs⟩⟩ | restored, disk⟩
    · rw [hwrite] at hundone
      refine ⟨?_, trivial⟩
      cases cause with
      | rejected text =>
        cases errs with
        | nil => exact ⟨⟨rfl, rfl, rfl⟩, hundone rfl⟩
        | cons err errs => trivial
      | committed operation text => trivial
    · rw [hwrite] at hundone
      obtain ⟨hrecorded, hjournal⟩ := hundone
      have hends := (@ends_restoreSnapshot R M rt m host.daemon hwell
        archive.snapshot.toSnapshot).holds host.daemon rfl
      simp only
      generalize hexec : exec (restoreConfigSnapshotFromArchive rt m
        archive.snapshot.toSnapshot) host.daemon = outcome at hends ⊢
      rcases outcome with ⟨(text | ⟨operation, text⟩) | head, daemon⟩
      · refine ⟨?_, trivial⟩
        rcases hrollback : rollbackConfigRestoreFiles f restored.changes disk with ⟨errs, back⟩
        cases errs with
        | cons err errs => trivial
        | nil =>
          refine ⟨hends, ?_⟩
          have hundo := rollback_undoAll hrecorded (congrArg Prod.fst hrollback)
          rw [hrollback] at hundo
          exact hundo.trans (undoAll_of_journal hjournal)
      · exact ⟨trivial, trivial⟩
      · obtain ⟨hhead, latest, hlatest, hinForce⟩ := hends
        obtain ⟨htargets, hothers⟩ := restoreFilesFrom_holds hwrite
        refine ⟨trivial, ?_, archive, files, hparse, hfiles, ?_⟩
        · exact hhead.trans hinForce.head.symm
        · exact ⟨hinForce.log, hinForce.head,
            ⟨latest, desired_of_archive hnames hparse hmeta hlatest, hinForce.desired⟩,
            htargets, hothers⟩

/-! ## The small host -/

/-- The small domain with one hash and one signature of a signer for everything; nothing
below depends on them. -/
def plainRuntime : Runtime Bool Unit :=
  { labRuntime with
    crypto := { labCrypto with
      sha256Hex := fun _ => String.ofList (List.replicate 64 'a')
      verify := fun cert _ signature => signature == cert.raw } }

def plainMoment : Moment Bool Unit :=
  { labMoment with
    sign := fun path _ => if path = "ix-a.key" then .ok labIX.raw else .error "no such file" }

/-- A policy that asks for two admins. -/
def twoAdmins : TrustConfig := { emptyTrust with adminPolicy := ⟨2, []⟩ }

/-- The small daemon after its genesis, a configuration and a new policy. -/
@[irreducible] def labArchived : Daemon Bool Unit :=
  let genesis :=
    ((configGenesisEvent (plainRuntime.world plainMoment) "lab" ["root.pem"]).toOption).getD
      zeroEvent
  let started := labDaemon emptyTrust [genesis] ⟨1, String.ofList (List.replicate 64 'a')⟩
  let applied := (exec (applyDesiredConfigLocked plainRuntime plainMoment
    (labConfig emptyTrust false) []) started).2
  (exec (applyTrustConfigLocked plainRuntime plainMoment twoAdmins
    [{ checksumProof "POST" "/v1/trust" "body" with
        signerID := signerIDForAdminCert plainRuntime.crypto labAdmin
        signature := some labAdmin.raw }]) applied).2

/-- A route authorization. -/
def labRoute (sourcePath : String) : FileManifest :=
  ⟨["ix.route_authorization"], sourcePath, "files/a.pem", 1,
    plainRuntime.crypto.sha256Hex [0x41], false⟩

def labManifest (sourcePath : String) : Manifest :=
  ⟨1, "lab", "ix-a", labArchived.head, false, 0, [labRoute sourcePath]⟩

/-- Reads the log of the small daemon and the route authorization, whatever the bytes. -/
def labCodec (sourcePath : String) : ArchiveCodec Bool where
  encodeManifest := fun _ => .error "read only"
  decodeManifest := fun _ => .ok (labManifest sourcePath)
  encodeSnapshot := fun _ => .error "read only"
  decodeSnapshot := fun _ =>
    .ok ⟨⟨"lab", labArchived.head, labArchived.store.memory, []⟩, "ix-a"⟩
  encodeDesired := plainRuntime.encodeDesired
  decodeDesired := plainRuntime.decodeDesired
  encodeLog := fun _ => .error "read only"
  decodeLog := fun _ => .ok []

/-- The archive of the small daemon: its configuration before the new policy. -/
def labTar : List TarEntry :=
  [⟨"manifest.json", .regular, []⟩, ⟨"config-snapshot.json", .regular, []⟩,
    ⟨"desired.json", .regular,
      (plainRuntime.encodeDesired (labConfig emptyTrust false)).toOption.getD []⟩,
    ⟨"files/a.pem", .regular, [0x41]⟩]

/-- A configuration names two files, of which one has a blank before its name. -/
def labSite : Site Bool :=
  ⟨some "/", "", fun _ => ⟨["a.pem", "./ a.pem"], "", "", "", "", "", "", []⟩⟩

/-- A disk on which nothing fails. -/
def labDisk : DiskMoment :=
  ⟨id, fun _ => "a.pem.tmp", fun _ => "", fun _ => [], fun _ _ => none, fun _ _ => none⟩

/-- The switch to the restored configuration fails. -/
def busyMoment : Moment Bool Unit :=
  { plainMoment with
    effect := fun effect =>
      if effect = .switch .forward false .reconcileKernelModuleRuntimeTuning then some "busy"
      else none }

/-- The restore of the small archive. -/
def labRestore (m : Moment Bool Unit) (sourcePath : String) :
    Except RestoreError RestoreResponse × Host Bool Unit :=
  restoreConfigArchive plainRuntime m (labCodec sourcePath) labSite labDisk labTar
    ⟨labArchived, ∅⟩

theorem wellFormed_labArchived :
    WellFormed plainRuntime.crypto.sha256Text labArchived.store.memory := by
  have hchained : MemoryStore.appendBatch plainRuntime.crypto.sha256Text []
      labArchived.store.memory = .ok labArchived.store.memory := by decide +kernel
  exact wellFormed_nil.appendBatch hchained

/-- The small domain has one IX. -/
theorem ixID_of_decodeDesired {payload : List UInt8} {desired : Desired Bool}
    (h : labRuntime.decodeDesired payload = .ok desired) : desired.ixID = "ix-a" := by
  obtain ⟨v, -, h⟩ := bind_eq_ok.mp h
  obtain ⟨trust, -, h⟩ := bind_eq_ok.mp h
  cases h
  rfl

theorem encodingsNameIX_labCodec (m : Moment Bool Unit) (sourcePath : String) :
    EncodingsNameIX plainRuntime m (labCodec sourcePath) := by
  intro payload payload' desired desired' h h' _
  have hix := @ixID_of_decodeDesired payload desired h
  have hix' := @ixID_of_decodeDesired payload' desired' h'
  rw [hix, hix']

theorem trimmed_labRoute : labDisk.resolve (labRoute "a.pem").sourcePath =
    labDisk.resolve (GoText.trimSpace (labRoute "a.pem").sourcePath) := by
  decide

theorem trimmedTargets_labCodec (m : Moment Bool Unit) :
    TrimmedTargets plainRuntime m (labCodec "a.pem") labDisk labTar := by
  intro archive hparse file hfile
  obtain ⟨⟨payload, hmanifest⟩, -⟩ := desired_of_parse hparse
  have hlab : (.ok (labManifest "a.pem") : Except String Manifest) = .ok archive.manifest :=
    hmanifest
  have hfiles : archive.manifest.files = [labRoute "a.pem"] := Except.ok.inj hlab ▸ rfl
  rw [hfiles, List.mem_singleton] at hfile
  rw [hfile]
  exact trimmed_labRoute

/-- The small host, when the switch fails. -/
theorem archive_restore_labCodec :
    RollsBack ⟨labArchived, ∅⟩ (restoreConfigArchive plainRuntime busyMoment (labCodec "a.pem")
      labSite labDisk labTar ⟨labArchived, ∅⟩) ∧
    Completes plainRuntime busyMoment (labCodec "a.pem") labDisk labTar ⟨labArchived, ∅⟩
      (restoreConfigArchive plainRuntime busyMoment (labCodec "a.pem") labSite labDisk labTar
        ⟨labArchived, ∅⟩) :=
  archive_restore_all_or_nothing plainRuntime busyMoment (labCodec "a.pem") labSite labDisk labTar
    ⟨labArchived, ∅⟩ wellFormed_labArchived (encodingsNameIX_labCodec busyMoment "a.pem")
    (trimmedTargets_labCodec busyMoment)

/-- The error names no failed step of the rollback, and the new file is there. -/
def leavesFile : Except RestoreError RestoreResponse × Host Bool Unit → Bool
  | (.error ⟨.rejected _, []⟩, host) => (host.disk.lookup "a.pem").isSome
  | _ => false

theorem not_rollsBack_of_leavesFile {d : Daemon Bool Unit}
    {outcome : Except RestoreError RestoreResponse × Host Bool Unit}
    (h : leavesFile outcome = true) : ¬ RollsBack ⟨d, ∅⟩ outcome := by
  rcases outcome with ⟨⟨⟨text | _, _ | _⟩⟩ | response, host⟩
  · rintro ⟨-, hdisk⟩
    rw [leavesFile, hdisk, Finmap.lookup_empty] at h
    cases h
  all_goals cases h

/-- **A restore that leaves a file behind, and one that leaves another policy.**  The only
file of the small archive is for ` a.pem`.  When nothing fails the archive is restored, and
the configuration in force has the policy of the log, not the one of `desired.json`.  When
the switch fails every step of the rollback succeeds, and `a.pem`, which was not there,
stays. -/
theorem archive_restore_leaves_file :
    (labRestore plainMoment " a.pem").1.isOk = true ∧
    desiredConfigsEqual plainRuntime (labConfig emptyTrust false)
      (labRestore plainMoment " a.pem").2.daemon.desired = false ∧
    ¬ RollsBack ⟨labArchived, ∅⟩ (labRestore busyMoment " a.pem") := by
  have hrestored : ((labRestore plainMoment " a.pem").1.isOk &&
      !desiredConfigsEqual plainRuntime (labConfig emptyTrust false)
        (labRestore plainMoment " a.pem").2.daemon.desired) = true := by decide +kernel
  have hleaves : leavesFile (labRestore busyMoment " a.pem") = true := by decide +kernel
  rw [Bool.and_eq_true, Bool.not_eq_true'] at hrestored
  exact ⟨hrestored.1, hrestored.2, not_rollsBack_of_leavesFile hleaves⟩

end ConfigDaemon
