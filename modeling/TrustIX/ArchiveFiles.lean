/-
# The files of a restore

A restore writes each file of the archive to a temporary file beside its target, moves the
target away and the new file in; if anything fails it moves everything back, the last file
first (`restoreConfigArchiveFiles`, `writeConfigRestoreFile` and
`rollbackConfigRestoreFiles` in `internal/daemon/config_restore_archive.go`).

* `written` : the ways in which one write ends;
* `undone_restoreFilesFrom` : a restore of files that fails leaves the disk as it was, and one
  that succeeds can be undone;
* `restoreFilesFrom_holds` : what the targets hold after one that succeeds.
-/
import TrustIX.FileSwap
import TrustIX.Archive

namespace ConfigDaemon

open FileSwap

/-! ## The disk -/

/-- What is found under a path: a file with its permissions, or something else. -/
inductive Inode where
  | regular (content : List UInt8) (mode : ℕ)
  | other
  deriving DecidableEq

/-- Where a path leads is for the system to say. -/
abbrev Files := Disk String Inode

/-- The steps of a write that may fail. -/
inductive FileStep where
  | stat
  | read
  | mkdir
  | createTemp
  | writeTemp
  | chmodTemp
  | syncTemp
  | closeTemp
  | statBackup
  | backup
  | install
  | reinstate
  | syncReinstated
  | sync
  | removeTemp
  deriving DecidableEq

/-- The steps that undo a write. -/
inductive UndoStep where
  | remove
  | rename
  | sync
  deriving DecidableEq

/-- What a restore meets on the disk, at each of its writes: names, times and failures. -/
structure DiskMoment where
  /-- The file that a path means. -/
  resolve : String → String
  /-- The path `CreateTemp` makes up. -/
  temp : ℕ → String
  /-- The time, as it stands in the name of a backup. -/
  stamp : ℕ → String
  /-- What a failed write leaves in the temporary file. -/
  partialContent : ℕ → List UInt8
  fails : ℕ → FileStep → Option String
  undoFails : ℕ → UndoStep → Option String

variable (f : DiskMoment)

/-! ## One file -/

/-- What `writeConfigRestoreFile` returns; `cleanup` holds the errors of the steps that take
back what was begun, which the source joins to the error. -/
structure WriteResult where
  backupPath : String
  changed : Bool
  err : Option String
  cleanup : List String

/-- The write ends before it changed anything. -/
def WriteResult.failed (text : String) : WriteResult := ⟨"", false, some text, []⟩

/-- The temporary file is removed in the end. -/
def abandonTemp (i : ℕ) (result : WriteResult) (disk : Files) : WriteResult × Files :=
  match f.fails i .removeTemp with
  | none => (result, disk.erase (f.resolve (f.temp i)))
  | some text =>
    ({ result with
        cleanup := result.cleanup ++
          ["remove temp restore file " ++ (f.temp i).quote ++ ": " ++ text] }, disk)

def restoreBackupName (i : ℕ) (targetPath : String) (index : ℕ) : String :=
  let name := targetPath ++ ".restore-backup." ++ f.stamp i
  if index = 0 then name else name ++ "." ++ toString index

/-- The source goes on until it finds a free name; with names that mean different files it
does, after as many as there are files. -/
def uniqueRestoreBackupPath (i : ℕ) (targetPath : String) (disk : Files) :
    Except String String :=
  match f.fails i .statBackup with
  | some text => .error ("stat restore backup candidate: " ++ text)
  | none =>
    match firstFree (fun index => f.resolve (restoreBackupName f i targetPath index)) disk with
    | none => .error "no free restore backup path"
    | some index => .ok (restoreBackupName f i targetPath index)

/-- The end of an installation: the error of the last sync. -/
def syncTarget (i : ℕ) (targetPath : String) : Option String :=
  (f.fails i .sync).map fun text =>
    "sync restore target directory " ++
      (String.ofList (GoPath.dir targetPath.toList)).quote ++ ": " ++ text

/-- The target has been moved to `backupPath`; the temporary file takes its place, or the
target comes back. -/
def installOverBackup (i : ℕ) (targetPath backupPath : String) (disk : Files) :
    WriteResult × Files :=
  match f.fails i .install with
  | none =>
    (⟨backupPath, true, syncTarget f i targetPath, []⟩,
      move disk (f.resolve (f.temp i)) (f.resolve targetPath))
  | some text =>
    let cause := "install restore target " ++ targetPath.quote ++ ": " ++ text
    match f.fails i .reinstate with
    | some text' =>
      abandonTemp f i ⟨backupPath, true, some cause,
        ["restore backup " ++ backupPath.quote ++ " to " ++ targetPath.quote ++ ": " ++ text']⟩
        disk
    | none =>
      abandonTemp f i ⟨"", false, some cause,
        ((f.fails i .syncReinstated).map ("sync restored backup directory: " ++ ·)).toList⟩
        (move disk (f.resolve backupPath) (f.resolve targetPath))

/-- The temporary file is complete. -/
def installTemp (i : ℕ) (targetPath : String) (existed : Bool) (disk : Files) :
    WriteResult × Files :=
  if existed then
    match uniqueRestoreBackupPath f i targetPath disk with
    | .error text => abandonTemp f i (.failed text) disk
    | .ok backupPath =>
      match f.fails i .backup with
      | some text =>
        abandonTemp f i
          (.failed ("backup restore target " ++ targetPath.quote ++ ": " ++ text)) disk
      | none =>
        installOverBackup f i targetPath backupPath
          (move disk (f.resolve targetPath) (f.resolve backupPath))
  else
    match f.fails i .install with
    | some text =>
      abandonTemp f i
        (.failed ("install restore target " ++ targetPath.quote ++ ": " ++ text)) disk
    | none =>
      (⟨"", true, syncTarget f i targetPath, []⟩,
        move disk (f.resolve (f.temp i)) (f.resolve targetPath))

/-- The first step on the temporary file that fails, and what the file holds then. -/
def fillTemp (i : ℕ) (payload : List UInt8) (mode : ℕ) : Option String × Inode :=
  match f.fails i .writeTemp with
  | some text => (some ("write temp restore file: " ++ text), .regular (f.partialContent i) 0o600)
  | none =>
    match f.fails i .chmodTemp with
    | some text => (some ("chmod temp restore file: " ++ text), .regular payload 0o600)
    | none =>
      match f.fails i .syncTemp with
      | some text => (some ("sync temp restore file: " ++ text), .regular payload mode)
      | none =>
        ((f.fails i .closeTemp).map ("close temp restore file: " ++ ·), .regular payload mode)

/-- From the temporary file on. -/
def replaceTarget (i : ℕ) (targetPath : String) (payload : List UInt8) (mode : ℕ)
    (existed : Bool) (disk : Files) : WriteResult × Files :=
  match f.fails i .mkdir with
  | some text => (.failed ("create restore target directory: " ++ text), disk)
  | none =>
    match f.fails i .createTemp, disk.lookup (f.resolve (f.temp i)) with
    | none, none =>
      match fillTemp f i payload mode with
      | (some text, node) =>
        abandonTemp f i (.failed text) (disk.insert (f.resolve (f.temp i)) node)
      | (none, node) =>
        installTemp f i targetPath existed (disk.insert (f.resolve (f.temp i)) node)
    | _, _ => (.failed ("create temp restore file for " ++ targetPath.quote), disk)

def restoreFileMode (privateKey : Bool) : ℕ := if privateKey then 0o600 else 0o644

def writeConfigRestoreFile (i : ℕ) (sourcePath : String) (payload : List UInt8)
    (privateKey : Bool) (disk : Files) : WriteResult × Files :=
  let targetPath := GoText.trimSpace sourcePath
  if targetPath = "" then (.failed "restore target path is required", disk)
  else
    match f.fails i .stat with
    | some text => (.failed ("stat restore target " ++ targetPath.quote ++ ": " ++ text), disk)
    | none =>
      match disk.lookup (f.resolve targetPath) with
      | some .other =>
        (.failed ("restore target " ++ targetPath.quote ++ " is not a regular file"), disk)
      | none =>
        replaceTarget f i targetPath payload (restoreFileMode privateKey) false disk
      | some (.regular current mode) =>
        match f.fails i .read with
        | some text =>
          (.failed ("read existing restore target " ++ targetPath.quote ++ ": " ++ text), disk)
        | none =>
          if current = payload ∧ mode = restoreFileMode privateKey then
            (⟨"", false, none, []⟩, disk)
          else replaceTarget f i targetPath payload (restoreFileMode privateKey) true disk

/-! ## All files -/

/-- `configRestoreFileChange`. -/
structure RestoreFileChange where
  targetPath : String
  backupPath : String
  created : Bool

/-- The sync at the end of an undo. -/
def syncUndone (i : ℕ) (targetPath : String) : List String :=
  ((f.undoFails i .sync).map fun text =>
    "sync restore target directory for " ++ targetPath.quote ++ ": " ++ text).toList

/-- One round of `rollbackConfigRestoreFiles`: the errors. -/
def rollbackConfigRestoreFile (i : ℕ) (change : RestoreFileChange) (disk : Files) :
    List String × Files :=
  if !change.created && change.backupPath == "" then ([], disk)
  else
    match f.undoFails i .remove with
    | some text =>
      ([(if change.created then "remove created restore target " else "remove restored target ")
        ++ change.targetPath.quote ++ ": " ++ text], disk)
    | none =>
      let removed := disk.erase (f.resolve change.targetPath)
      if change.created then (syncUndone f i change.targetPath, removed)
      else
        match f.undoFails i .rename, removed.lookup (f.resolve change.backupPath) with
        | none, some _ =>
          (syncUndone f i change.targetPath,
            move removed (f.resolve change.backupPath) (f.resolve change.targetPath))
        | _, _ =>
          (["restore backup " ++ change.backupPath.quote ++ " to " ++
            change.targetPath.quote], removed)

/-- The errors so far and the disk, after one more change. -/
def rollbackRound (s : List String × Files) (change : RestoreFileChange × ℕ) :
    List String × Files :=
  let (errs, disk) := rollbackConfigRestoreFile f change.2 change.1 s.2
  (s.1 ++ errs, disk)

/-- The last change is undone first; an error does not stop the rest. -/
def rollbackConfigRestoreFiles (changes : List RestoreFileChange) (disk : Files) :
    List String × Files :=
  changes.zipIdx.reverse.foldl (rollbackRound f) ([], disk)

/-- `configRestoreArchiveFileStatus`. -/
structure RestoredFile where
  sourcePath : String
  archivePath : String
  roles : List String
  backupPath : String
  privateKey : Bool

structure RestoredFiles where
  statuses : List RestoredFile
  changes : List RestoreFileChange
  skipped : ℕ
  privateKeys : ℕ

/-- An error of a restore, and those of its rollback, which the source joins to it. -/
structure RestoreError where
  cause : Failure
  rollback : List String

/-- The changes, with one more if the write made one. -/
def RestoredFiles.changesWith (acc : RestoredFiles) (file : ValidatedFile)
    (result : WriteResult) : List RestoreFileChange :=
  if result.changed then
    acc.changes ++ [⟨file.manifest.sourcePath, result.backupPath, result.backupPath == ""⟩]
  else acc.changes

/-- A file has been written, or was there already. -/
def RestoredFiles.add (acc : RestoredFiles) (file : ValidatedFile) (result : WriteResult) :
    RestoredFiles :=
  if result.changed then
    ⟨acc.statuses ++ [⟨file.manifest.sourcePath, file.archivePath, file.manifest.roles,
        result.backupPath, file.manifest.privateKey⟩],
      acc.changesWith file result, acc.skipped,
      if file.manifest.privateKey then acc.privateKeys + 1 else acc.privateKeys⟩
  else { acc with skipped := acc.skipped + 1 }

/-- The loop of `restoreConfigArchiveFiles`, from the file at `i` on. -/
def restoreFilesFrom : ℕ → List ValidatedFile → RestoredFiles → Files →
    Except RestoreError RestoredFiles × Files
  | _, [], acc, disk => (.ok acc, disk)
  | i, file :: rest, acc, disk =>
    let (result, disk) := writeConfigRestoreFile f i file.manifest.sourcePath file.payload
      file.manifest.privateKey disk
    match result.err with
    | some text =>
      let (errs, disk) := rollbackConfigRestoreFiles f (acc.changesWith file result) disk
      (.error ⟨.rejected text, result.cleanup ++ errs⟩, disk)
    | none => restoreFilesFrom (i + 1) rest (acc.add file result) disk

/-- `restoreConfigArchiveFiles`, once the files are validated. -/
def restoreConfigArchiveFiles (files : List ValidatedFile) (disk : Files) :
    Except RestoreError RestoredFiles × Files :=
  restoreFilesFrom f 0 files ⟨[], [], 0, 0⟩ disk

/-! ## What a write does -/

variable {f}

/-- **How a write ends**: the file was there already, nothing happened, the file is new, the
file is replaced, or something that was begun could not be taken back. -/
inductive Written (f : DiskMoment) (targetPath : String) (payload : List UInt8) (mode : ℕ)
    (disk : Files) : WriteResult × Files → Prop
  | kept (hthere : disk.lookup (f.resolve targetPath) = some (.regular payload mode)) :
      Written f targetPath payload mode disk (⟨"", false, none, []⟩, disk)
  | refused (text : String) : Written f targetPath payload mode disk (.failed text, disk)
  | created (err : Option String) (hfree : disk.lookup (f.resolve targetPath) = none) :
      Written f targetPath payload mode disk
        (⟨"", true, err, []⟩, disk.insert (f.resolve targetPath) (.regular payload mode))
  | replaced (err : Option String) {backupPath : String} {old : Inode} (hbackup : backupPath ≠ "")
      (hthere : disk.lookup (f.resolve targetPath) = some old)
      (hfree : disk.lookup (f.resolve backupPath) = none) :
      Written f targetPath payload mode disk
        (⟨backupPath, true, err, []⟩,
          (move disk (f.resolve targetPath) (f.resolve backupPath)).insert (f.resolve targetPath)
            (.regular payload mode))
  | stuck {result : WriteResult} {disk' : Files} (herr : result.err ≠ none)
      (hcleanup : result.cleanup ≠ []) : Written f targetPath payload mode disk (result, disk')

variable {targetPath : String} {payload : List UInt8} {mode : ℕ} {disk : Files} {i : ℕ}

variable {node : Inode}

theorem erase_insert_of_lookup {p : String} (h : disk.lookup p = none) :
    (disk.insert p node).erase p = disk :=
  undo_create node h

variable {disk' : Files}

/-- An abandoned write leaves the disk as it was before the temporary file. -/
theorem written_abandonTemp {text : String} (hdisk : disk'.erase (f.resolve (f.temp i)) = disk) :
    Written f targetPath payload mode disk (abandonTemp f i (.failed text) disk') := by
  unfold abandonTemp
  cases f.fails i .removeTemp with
  | none =>
    rw [hdisk]
    exact .refused text
  | some err => exact .stuck (by simp [WriteResult.failed]) (by simp)

variable {result : WriteResult}

theorem written_abandonTemp_stuck (herr : result.err ≠ none) (hcleanup : result.cleanup ≠ []) :
    Written f targetPath payload mode disk (abandonTemp f i result disk') := by
  unfold abandonTemp
  cases f.fails i .removeTemp with
  | none => exact .stuck herr hcleanup
  | some err => exact .stuck herr (by simp)

/-- The temporary file of a target that was not there is moved in. -/
theorem move_temp {temp target : String} (htemp : disk.lookup temp = none) :
    move (disk.insert temp node) temp target = disk.insert target node := by
  apply Finmap.ext_lookup
  intro p
  rw [lookup_move (Finmap.lookup_insert disk)]
  by_cases hp : p = target
  · rw [if_pos hp, hp, Finmap.lookup_insert]
  · rw [if_neg hp, Finmap.lookup_insert_of_ne _ hp]
    by_cases hpt : p = temp
    · rw [if_pos hpt, hpt, htemp]
    · rw [if_neg hpt, Finmap.lookup_insert_of_ne _ hpt]

/-- The target is moved away and the temporary file moved in. -/
theorem move_temp_over {temp target backup : String} {node old : Inode}
    (htemp : disk.lookup temp = none) (htarget : disk.lookup target = some old)
    (hbackup : (disk.insert temp node).lookup backup = none) :
    move (move (disk.insert temp node) target backup) temp target =
      (move disk target backup).insert target node := by
  have hne : target ≠ temp := by
    rintro rfl
    rw [htarget] at htemp
    cases htemp
  have hbackup' : backup ≠ temp := by
    rintro rfl
    rw [Finmap.lookup_insert] at hbackup
    cases hbackup
  have hthere : (disk.insert temp node).lookup target = some old := by
    rw [Finmap.lookup_insert_of_ne _ hne, htarget]
  have hmoved : (move (disk.insert temp node) target backup).lookup temp = some node := by
    rw [lookup_move hthere, if_neg hbackup'.symm, if_neg hne.symm, Finmap.lookup_insert]
  apply Finmap.ext_lookup
  intro p
  rw [lookup_move hmoved, lookup_move hthere]
  by_cases hp : p = target
  · rw [if_pos hp, hp, Finmap.lookup_insert]
  · rw [if_neg hp, Finmap.lookup_insert_of_ne _ hp, lookup_move htarget]
    by_cases hpt : p = temp
    · rw [if_pos hpt, hpt, if_neg hbackup'.symm, if_neg hne.symm, htemp]
    · rw [if_neg hpt, Finmap.lookup_insert_of_ne _ hpt]

theorem restoreBackupName_ne_empty (index : ℕ) : restoreBackupName f i targetPath index ≠ "" := by
  unfold restoreBackupName
  split_ifs
  · simp
  · simp

theorem free_of_uniqueRestoreBackupPath {backupPath : String}
    (h : uniqueRestoreBackupPath f i targetPath disk = .ok backupPath) :
    backupPath ≠ "" ∧ disk.lookup (f.resolve backupPath) = none := by
  unfold uniqueRestoreBackupPath at h
  cases hstat : f.fails i .statBackup with
  | some text => simp [hstat] at h
  | none =>
    rw [hstat] at h
    cases hfree : firstFree (fun index => f.resolve (restoreBackupName f i targetPath index))
        disk with
    | none => simp [hfree] at h
    | some index =>
      rw [hfree] at h
      cases h
      exact ⟨restoreBackupName_ne_empty index, free_of_firstFree hfree⟩

/-- The temporary file, once it is complete, is moved in or given up. -/
theorem written_installTemp {existed : Bool} (htemp : disk.lookup (f.resolve (f.temp i)) = none)
    (hexisted : existed = (disk.lookup (f.resolve targetPath)).isSome) :
    Written f targetPath payload mode disk (installTemp f i targetPath existed
      (disk.insert (f.resolve (f.temp i)) (.regular payload mode))) := by
  have herase : (disk.insert (f.resolve (f.temp i)) (.regular payload mode)).erase
      (f.resolve (f.temp i)) = disk := erase_insert_of_lookup htemp
  unfold installTemp
  cases hthere : disk.lookup (f.resolve targetPath) with
  | none =>
    rw [hthere] at hexisted
    subst hexisted
    cases f.fails i .install with
    | some text => exact written_abandonTemp herase
    | none =>
      rw [move_temp htemp]
      exact .created _ hthere
  | some old =>
    rw [hthere] at hexisted
    subst hexisted
    cases hbackup : uniqueRestoreBackupPath f i targetPath
        (disk.insert (f.resolve (f.temp i)) (.regular payload mode)) with
    | error text => exact written_abandonTemp herase
    | ok backupPath =>
      cases f.fails i .backup with
      | some text => exact written_abandonTemp herase
      | none =>
        obtain ⟨hname, hfree⟩ := free_of_uniqueRestoreBackupPath hbackup
        have hfree' : disk.lookup (f.resolve backupPath) = none := by
          have hne : f.resolve backupPath ≠ f.resolve (f.temp i) := by
            intro heq
            rw [heq, Finmap.lookup_insert] at hfree
            cases hfree
          rwa [Finmap.lookup_insert_of_ne _ hne] at hfree
        have hpresent : (disk.insert (f.resolve (f.temp i)) (.regular payload mode)).lookup
            (f.resolve targetPath) = some old := by
          have hne : f.resolve targetPath ≠ f.resolve (f.temp i) := by
            intro heq
            rw [heq, htemp] at hthere
            cases hthere
          rw [Finmap.lookup_insert_of_ne _ hne, hthere]
        simp only
        unfold installOverBackup
        cases f.fails i .install with
        | none =>
          rw [move_temp_over htemp hthere hfree]
          exact .replaced _ hname hthere hfree'
        | some text =>
          cases f.fails i .reinstate with
          | some text' => exact written_abandonTemp_stuck (by simp) (by simp)
          | none =>
            rw [move_move hpresent hfree]
            cases f.fails i .syncReinstated with
            | none => exact written_abandonTemp herase
            | some err => exact written_abandonTemp_stuck (by simp) (by simp)

theorem fillTemp_of_none (h : fillTemp f i payload mode = (none, node)) :
    node = .regular payload mode := by
  unfold fillTemp at h
  cases hwrite : f.fails i .writeTemp with
  | some text => simp [hwrite] at h
  | none =>
    cases hchmod : f.fails i .chmodTemp with
    | some text => simp [hwrite, hchmod] at h
    | none =>
      cases hsync : f.fails i .syncTemp with
      | some text => simp [hwrite, hchmod, hsync] at h
      | none =>
        simp only [hwrite, hchmod, hsync, Prod.mk.injEq] at h
        exact h.2.symm

theorem written_replaceTarget {existed : Bool}
    (hexisted : existed = (disk.lookup (f.resolve targetPath)).isSome) :
    Written f targetPath payload mode disk
      (replaceTarget f i targetPath payload mode existed disk) := by
  unfold replaceTarget
  cases f.fails i .mkdir with
  | some text => exact .refused _
  | none =>
    cases f.fails i .createTemp with
    | some text => exact .refused _
    | none =>
      cases htemp : disk.lookup (f.resolve (f.temp i)) with
      | some there => exact .refused _
      | none =>
        rcases hfill : fillTemp f i payload mode with ⟨text | _, node⟩
        · obtain rfl := fillTemp_of_none hfill
          exact written_installTemp htemp hexisted
        · exact written_abandonTemp (erase_insert_of_lookup htemp)

/-- Without an error there is nothing to take back. -/
theorem Written.cleanup
    (h : Written f targetPath payload mode disk (result, disk')) (herr : result.err = none) :
    result.cleanup = [] := by
  cases h with
  | kept hthere => rfl
  | refused text => rfl
  | created err hfree => rfl
  | replaced err hbackup hthere hfree => rfl
  | stuck hfailed hstuck => exact absurd herr hfailed

/-- **One write.** -/
theorem written (i : ℕ) (sourcePath : String) (payload : List UInt8) (privateKey : Bool)
    (disk : Files) :
    Written f (GoText.trimSpace sourcePath) payload (restoreFileMode privateKey) disk
      (writeConfigRestoreFile f i sourcePath payload privateKey disk) := by
  unfold writeConfigRestoreFile
  by_cases htarget : GoText.trimSpace sourcePath = ""
  · rw [if_pos htarget]
    exact .refused _
  · rw [if_neg htarget]
    cases f.fails i .stat with
    | some text => exact .refused _
    | none =>
      cases hthere : disk.lookup (f.resolve (GoText.trimSpace sourcePath)) with
      | none => exact written_replaceTarget (by rw [hthere]; rfl)
      | some node =>
        cases node with
        | other => exact .refused _
        | regular current mode =>
          cases f.fails i .read with
          | some text => exact .refused _
          | none =>
            simp only
            by_cases hsame : current = payload ∧ mode = restoreFileMode privateKey
            · rw [if_pos hsame]
              obtain ⟨rfl, rfl⟩ := hsame
              exact .kept hthere
            · rw [if_neg hsame]
              exact written_replaceTarget (by rw [hthere]; rfl)

/-! ## Undoing -/

/-- A change, in terms of the files that its paths mean. -/
def RestoreFileChange.change (f : DiskMoment) (change : RestoreFileChange) : Change String :=
  ⟨f.resolve change.targetPath, if change.created then none else some (f.resolve change.backupPath)⟩

/-- A change that was recorded has its backup, unless the file is new. -/
def RestoreFileChange.Recorded (change : RestoreFileChange) : Prop :=
  change.created = (change.backupPath == "")

theorem rollbackConfigRestoreFile_undo {change : RestoreFileChange} (hrecorded : change.Recorded)
    (h : (rollbackConfigRestoreFile f i change disk).1 = []) :
    (rollbackConfigRestoreFile f i change disk).2 = (change.change f).undo disk := by
  obtain ⟨targetPath, backupPath, created⟩ := change
  unfold RestoreFileChange.Recorded at hrecorded
  simp only at hrecorded
  subst hrecorded
  unfold rollbackConfigRestoreFile at h ⊢
  cases hremove : f.undoFails i .remove with
  | some text => simp [hremove] at h
  | none =>
    simp only [hremove] at h ⊢
    unfold RestoreFileChange.change Change.undo
    cases hcreated : backupPath == "" with
    | true => simp
    | false =>
      simp only [hcreated, Bool.false_eq_true, if_false] at h ⊢
      cases hrename : f.undoFails i .rename with
      | some text => simp [hrename] at h
      | none =>
        cases hthere : Finmap.lookup (f.resolve backupPath)
            (disk.erase (f.resolve targetPath)) with
        | none => simp [hthere] at h
        | some node => rfl

/-- Errors are only added. -/
theorem rollback_errs (changes : List (RestoreFileChange × ℕ)) (s : List String × Files) :
    ∃ more, (changes.foldl (rollbackRound f) s).1 = s.1 ++ more := by
  induction changes generalizing s with
  | nil => exact ⟨[], (List.append_nil s.1).symm⟩
  | cons change changes ih =>
    obtain ⟨more, hmore⟩ := ih (rollbackRound f s change)
    exact ⟨_ ++ more, hmore.trans (List.append_assoc _ _ _)⟩

/-- **A rollback without errors undoes every change.** -/
theorem rollback_undoAll {changes : List RestoreFileChange}
    (hrecorded : ∀ change ∈ changes, change.Recorded)
    (h : (rollbackConfigRestoreFiles f changes disk).1 = []) :
    (rollbackConfigRestoreFiles f changes disk).2 =
      undoAll (changes.map (RestoreFileChange.change f)) disk := by
  unfold rollbackConfigRestoreFiles at h ⊢
  induction changes using List.reverseRecOn generalizing disk with
  | nil => rfl
  | append_singleton changes change ih =>
    rw [List.zipIdx_append, List.zipIdx_singleton, List.reverse_append, List.reverse_singleton,
      List.singleton_append, List.foldl_cons] at h ⊢
    -- the change undone first has no errors, for they would be among all of them
    have hfirst : (rollbackRound f ([], disk) (change, 0 + changes.length)).1 = [] := by
      obtain ⟨more, hmore⟩ := rollback_errs (f := f) changes.zipIdx.reverse
        (rollbackRound f ([], disk) (change, 0 + changes.length))
      rw [hmore] at h
      exact (List.append_eq_nil_iff.mp h).1
    have hundo := rollbackConfigRestoreFile_undo
      (hrecorded change (List.mem_append_right _ (List.mem_singleton_self change))) hfirst
    have hround : rollbackRound f ([], disk) (change, 0 + changes.length) =
        ([], (change.change f).undo disk) := Prod.ext hfirst hundo
    rw [hround] at h ⊢
    rw [List.map_append, List.map_singleton, undoAll_concat]
    exact ih (fun c hc => hrecorded c (List.mem_append_left _ hc)) h

/-! ## All writes -/

/-- The target of a file means the same with the blanks around it. -/
def Trimmed (f : DiskMoment) (file : ValidatedFile) : Prop :=
  f.resolve file.manifest.sourcePath = f.resolve (GoText.trimSpace file.manifest.sourcePath)

/-- The changes so far lead from `start` to `disk`. -/
def Journaled (f : DiskMoment) (start : Files) (changes : List RestoreFileChange) (disk : Files) :
    Prop :=
  (∀ change ∈ changes, change.Recorded) ∧
    Journal (changes.map (RestoreFileChange.change f)) start disk

theorem journaled_nil (start : Files) : Journaled f start [] start := ⟨by simp, .nil start⟩

variable {start : Files} {acc : RestoredFiles} {file : ValidatedFile}

/-- A write that could take back what it had to take back can be undone. -/
theorem Journaled.write (h : Journaled f start acc.changes disk) (htrimmed : Trimmed f file)
    (hwritten : Written f (GoText.trimSpace file.manifest.sourcePath) file.payload mode disk
      (result, disk'))
    (hcleanup : result.cleanup = []) : Journaled f start (acc.changesWith file result) disk' := by
  have hsnoc {backupPath : String} {d : Files}
      (hundo : Change.undo ⟨f.resolve (GoText.trimSpace file.manifest.sourcePath),
        if backupPath == "" then none else some (f.resolve backupPath)⟩ d = disk) :
      Journaled f start
        (acc.changes ++ [⟨file.manifest.sourcePath, backupPath, backupPath == ""⟩]) d := by
    refine ⟨?_, ?_⟩
    · exact List.forall_mem_append.mpr ⟨h.1, List.forall_mem_singleton.mpr rfl⟩
    · rw [List.map_append, List.map_singleton]
      refine h.2.snoc ?_
      unfold RestoreFileChange.change
      rw [htrimmed]
      exact hundo
  cases hwritten with
  | kept hthere => exact h
  | refused text => exact h
  | created err hfree => exact hsnoc (undo_create _ hfree)
  | replaced err hbackup hthere hfree =>
    refine hsnoc ?_
    rw [if_neg (by simpa using hbackup)]
    exact undo_replace _ hthere hfree
  | stuck herr hstuck => exact absurd hcleanup hstuck

theorem RestoredFiles.changes_add (result : WriteResult) :
    (acc.add file result).changes = acc.changesWith file result := by
  unfold RestoredFiles.add
  cases hchanged : result.changed with
  | true => rfl
  | false => simp [RestoredFiles.changesWith, hchanged]

/-- A restore of files that fails has taken back everything, unless its rollback failed too;
one that succeeds can be undone by the changes it returns. -/
def Undone (f : DiskMoment) (start : Files) : Except RestoreError RestoredFiles × Files → Prop
  | (.ok restored, disk) => Journaled f start restored.changes disk
  | (.error err, disk) => err.rollback = [] → disk = start

/-- **A restore of files is undone.** -/
theorem undone_restoreFilesFrom {files : List ValidatedFile}
    (htrimmed : ∀ file ∈ files, Trimmed f file) (hjournal : Journaled f start acc.changes disk) :
    Undone f start (restoreFilesFrom f i files acc disk) := by
  induction files generalizing i acc disk with
  | nil => exact hjournal
  | cons file rest ih =>
    unfold restoreFilesFrom
    have hwritten := written (f := f) i file.manifest.sourcePath file.payload
      file.manifest.privateKey disk
    rcases hwrite : writeConfigRestoreFile f i file.manifest.sourcePath file.payload
      file.manifest.privateKey disk with ⟨written, disk₁⟩
    rw [hwrite] at hwritten
    simp only
    cases herr : written.err with
    | some text =>
      intro hrollback
      obtain ⟨hcleanup, herrs⟩ := List.append_eq_nil_iff.mp hrollback
      obtain ⟨hrecorded, hjournal⟩ :=
        hjournal.write (htrimmed file List.mem_cons_self) hwritten hcleanup
      rw [rollback_undoAll hrecorded herrs]
      exact undoAll_of_journal hjournal
    | none =>
      refine ih (fun file hfile => htrimmed file (List.mem_cons_of_mem _ hfile)) ?_
      rw [RestoredFiles.changes_add]
      exact hjournal.write (htrimmed file List.mem_cons_self) hwritten (hwritten.cleanup herr)

/-! ## What the targets hold -/

/-- The file that a restored file is written to. -/
def ValidatedFile.target (f : DiskMoment) (file : ValidatedFile) : String :=
  f.resolve (GoText.trimSpace file.manifest.sourcePath)

/-- What a restored file is in the end. -/
def ValidatedFile.inode (file : ValidatedFile) : Inode :=
  .regular file.payload (restoreFileMode file.manifest.privateKey)

/-- A write without error puts the file in its place and leaves the other files alone. -/
theorem Written.holds
    (h : Written f targetPath payload mode disk (result, disk')) (herr : result.err = none) :
    disk'.lookup (f.resolve targetPath) = some (.regular payload mode) ∧
      ∀ p, p ≠ f.resolve targetPath → disk.lookup p ≠ none → disk'.lookup p = disk.lookup p := by
  cases h with
  | kept hthere => exact ⟨hthere, fun _ _ _ => rfl⟩
  | refused text => cases herr
  | created err hfree =>
    exact ⟨Finmap.lookup_insert _, fun p hp _ => Finmap.lookup_insert_of_ne _ hp⟩
  | replaced err hbackup hthere hfree =>
    refine ⟨Finmap.lookup_insert _, fun p hp hsome => ?_⟩
    rw [Finmap.lookup_insert_of_ne _ hp, lookup_move hthere, if_neg ?_, if_neg hp]
    rintro rfl
    exact hsome hfree
  | stuck hfailed hstuck => exact absurd herr hfailed

/-- **After a restore of files** every target holds the last file that goes there, and what
is no target and was there is as it was. -/
theorem restoreFilesFrom_holds {files : List ValidatedFile} {restored : RestoredFiles}
    (h : restoreFilesFrom f i files acc disk = (.ok restored, disk')) :
    (∀ p file, (files.reverse.find? fun file => file.target f == p) = some file →
      disk'.lookup p = some file.inode) ∧
    ∀ p, (∀ file ∈ files, file.target f ≠ p) → disk.lookup p ≠ none →
      disk'.lookup p = disk.lookup p := by
  induction files generalizing i acc disk with
  | nil =>
    cases h
    exact ⟨by simp, fun _ _ _ => rfl⟩
  | cons file rest ih =>
    unfold restoreFilesFrom at h
    have hwritten := written (f := f) i file.manifest.sourcePath file.payload
      file.manifest.privateKey disk
    rcases hwrite : writeConfigRestoreFile f i file.manifest.sourcePath file.payload
      file.manifest.privateKey disk with ⟨written, disk₁⟩
    rw [hwrite] at h hwritten
    cases herr : written.err with
    | some text =>
      simp only [herr] at h
      cases h
    | none =>
      simp only [herr] at h
      obtain ⟨hput, hothers⟩ := hwritten.holds herr
      obtain ⟨hlast, hrest⟩ := ih h
      refine ⟨fun p found hfound => ?_, fun p hp hsome => ?_⟩
      · rw [List.reverse_cons, List.find?_append] at hfound
        cases hlater : rest.reverse.find? fun file => file.target f == p with
        | some later =>
          rw [hlater, Option.some_or] at hfound
          cases hfound
          exact hlast p found hlater
        | none =>
          -- no later file goes there, so this one stays
          rw [hlater, Option.none_or, List.find?_singleton] at hfound
          split_ifs at hfound with htarget
          cases hfound
          obtain rfl : file.target f = p := by simpa using htarget
          have hnot : ∀ other ∈ rest, other.target f ≠ file.target f := by
            intro other hother heq
            have := List.find?_eq_none.mp hlater other (List.mem_reverse.mpr hother)
            simp [heq] at this
          have hthere : disk₁.lookup (file.target f) = some file.inode := hput
          rw [hrest _ hnot (by simp [hthere]), hthere]
      · have hne := hp file List.mem_cons_self
        have hsame := hothers p (Ne.symm hne) hsome
        rw [hrest p (fun other hother => hp other (List.mem_cons_of_mem _ hother))
          (by rw [hsame]; exact hsome), hsame]

end ConfigDaemon
