/-
# Restore archives

A config archive is a tar file with the desired configuration, the signed log, and the
files the configuration names, under a manifest (`internal/daemon/config_export.go`,
`config_restore_archive.go`).  A restore reads it entry by entry, compares its parts with
each other and with the daemon, and lets a file through only if the configuration in force
and the archived one both name its target.  The tar layer is taken as lossless and the JSON
layer of the entries as a codec.
-/
import TrustIX.GoPath
import TrustIX.Lifecycle

namespace ConfigDaemon

open Pki TrustPolicy ConfigEvent ConfigStore EventVerify LogVerify Fallible

/-! ## The format -/

inductive EntryKind where
  | directory
  | regular
  | other
  deriving DecidableEq

/-- An entry of the tar file. -/
structure TarEntry where
  name : String
  kind : EntryKind
  content : List UInt8
  deriving DecidableEq

/-- `configExportFileManifest`. -/
structure FileManifest where
  roles : List String
  sourcePath : String
  archivePath : String
  sizeBytes : ℤ
  sha256 : String
  privateKey : Bool
  deriving DecidableEq

/-- `configExportManifest`, as far as it is read again. -/
structure Manifest where
  version : ℤ
  domainID : String
  ixID : String
  configHead : Head
  privateKeysIncluded : Bool
  privateKeysOmitted : ℤ
  files : List FileManifest

/-- `configSnapshotEnvelope`. -/
structure SnapshotEnvelope extends Snapshot where
  ixID : String

/-- The JSON of the entries; the decoders allow no unknown fields and nothing after the
value. -/
structure ArchiveCodec (R : Type) where
  encodeManifest : Manifest → Except String (List UInt8)
  decodeManifest : List UInt8 → Except String Manifest
  encodeSnapshot : SnapshotEnvelope → Except String (List UInt8)
  decodeSnapshot : List UInt8 → Except String SnapshotEnvelope
  encodeDesired : Desired R → Except String (List UInt8)
  decodeDesired : List UInt8 → Except String (Desired R)
  encodeLog : List Event → Except String (List UInt8)
  decodeLog : List UInt8 → Except String (List Event)

def configExportArchiveVersion : ℤ := 1

def maxConfigRestoreArchiveEntryBytes : ℕ := 32 * 2 ^ 20
def maxConfigRestoreArchiveUncompressedBytes : ℕ := 96 * 2 ^ 20
def maxConfigRestoreArchiveFiles : ℕ := 128
def maxConfigRestoreArchiveEntries : ℕ := 256

/-! ## Reading -/

def normalizeRestoreArchivePath (name : String) : Except String String :=
  let raw := (GoText.trimSpace name).toList.map fun c => if c = '\\' then '/' else c
  if raw = [] ∨ GoPath.isAbs raw then
    .error ("invalid restore archive path " ++ (String.ofList raw).quote)
  else
    let cleaned := GoPath.clean raw
    if cleaned = ['.'] ∨ ['.', '.', '/'].isPrefixOf cleaned ∨ cleaned = ['.', '.'] then
      .error ("invalid restore archive path " ++ (String.ofList raw).quote)
    else .ok (String.ofList cleaned)

/-- The files of an archive, by name. -/
abbrev Entries := AList fun _ : String => List UInt8

/-- What has been read of the tar file. -/
structure TarState where
  entries : Entries
  total : ℕ
  entryCount : ℕ
  fileCount : ℕ

def TarState.start : TarState := ⟨∅, 0, 0, 0⟩

/-- One round of the loop of `parseConfigRestoreArchive`. -/
def readTarEntry (s : TarState) (entry : TarEntry) : Except String TarState := do
  rejectIf (s.entryCount + 1 > maxConfigRestoreArchiveEntries)
    ("restore archive has more than " ++ toString maxConfigRestoreArchiveEntries ++ " entries")
  match entry.kind with
  | .directory =>
    let _ ← normalizeRestoreArchivePath entry.name
    .ok { s with entryCount := s.entryCount + 1 }
  | .other => .error ("restore archive entry " ++ entry.name.quote ++ " is not a regular file")
  | .regular =>
    rejectIf (s.fileCount + 1 > maxConfigRestoreArchiveFiles)
      ("restore archive has more than " ++ toString maxConfigRestoreArchiveFiles ++ " files")
    let name ← normalizeRestoreArchivePath entry.name
    rejectIf (s.entries.lookup name).isSome
      ("restore archive has duplicate entry " ++ name.quote)
    rejectIf (entry.content.length > maxConfigRestoreArchiveEntryBytes)
      ("restore archive entry " ++ name.quote ++ " size " ++ toString entry.content.length ++
        " exceeds " ++ toString maxConfigRestoreArchiveEntryBytes ++ " bytes")
    rejectIf (s.total + entry.content.length > maxConfigRestoreArchiveUncompressedBytes)
      ("restore archive uncompressed size exceeds " ++
        toString maxConfigRestoreArchiveUncompressedBytes ++ " bytes")
    .ok ⟨s.entries.insert name entry.content, s.total + entry.content.length, s.entryCount + 1,
      s.fileCount + 1⟩

/-- `decodeStrictJSONEntry`. -/
def decodeEntry {α : Type} (entries : Entries) (name : String)
    (decode : List UInt8 → Except String α) : Except String α :=
  match entries.lookup name with
  | none => .error ("restore archive missing " ++ name)
  | some payload => (decode payload).mapError (("decode restore archive " ++ name ++ ": ") ++ ·)

/-- The four entries that every archive may have. -/
def reservedEntries : List String :=
  ["manifest.json", "desired.json", "config-snapshot.json", "config.log"]

def validateRestoreArchiveEntrySet (entries : Entries) (manifest : Manifest) :
    Except String Unit := do
  let allowed ← manifest.files.foldlM (fun allowed file => do
    let archivePath ← normalizeRestoreArchivePath file.archivePath
    rejectIf (archivePath ∈ allowed)
      ("restore archive manifest has duplicate or reserved archive path " ++ archivePath.quote)
    .ok (archivePath :: allowed)) reservedEntries
  entries.keys.forM fun name =>
    rejectIf (name ∉ allowed) ("restore archive contains unreferenced file " ++ name.quote)

variable {R M : Type} (rt : Runtime R M) (m : Moment R M) (codec : ArchiveCodec R)

def validateRestoreArchiveDesiredEntry (desired : Desired R) (events : List Event)
    (ixID : String) : Except String Unit :=
  match events.reverse.find? fun event =>
    event.resource == desiredResourceForIX ixID || event.resource == "/desired" with
  | none => .error ("restore archive has no desired event for IX " ++ ixID.quote)
  | some event => do
    let eventDesired ← (rt.decodeDesired event.payload.bytes).mapError
      (("decode restore archive desired event seq " ++ toString event.seq ++ ": ") ++ ·)
    rejectIf (!desiredConfigsEqual rt desired (normalize (rt.world m) eventDesired))
      ("restore archive desired.json does not match latest desired event seq " ++
        toString event.seq)

def configLogHeadForEvents (events : List Event) : Except String Head := do
  let stored ← (MemoryStore.appendBatch rt.crypto.sha256Text [] events).mapError
    fun _ => "config log events are not chained"
  MemoryStore.head rt.crypto.sha256Text stored

/-- The copy of the log in the archive, if there is one, must lead to the head of the
snapshot. -/
def checkLogEntry (snapshot : SnapshotEnvelope) (payload : List UInt8) : Except String Unit := do
  let logEvents ← codec.decodeLog payload
  if logEvents = [] then .ok ()
  else do
    rejectIf (logEvents.length ≠ snapshot.events.length)
      ("restore archive config.log events=" ++ toString logEvents.length ++
        " do not match snapshot events=" ++ toString snapshot.events.length)
    let logHead ← (configLogHeadForEvents rt logEvents).mapError
      ("validate restore archive config.log: " ++ ·)
    rejectIf (logHead ≠ snapshot.head) "restore archive config.log head mismatch"

/-- `parsedConfigRestoreArchive`, with the configuration of `desired.json`. -/
structure Archive (R : Type) where
  manifest : Manifest
  snapshot : SnapshotEnvelope
  desired : Desired R
  entries : Entries

def parseConfigRestoreArchive (tar : List TarEntry) : Except String (Archive R) := do
  let read ← tar.foldlM readTarEntry TarState.start
  let manifest ← decodeEntry read.entries "manifest.json" codec.decodeManifest
  let snapshot ← decodeEntry read.entries "config-snapshot.json" codec.decodeSnapshot
  let decoded ← decodeEntry read.entries "desired.json" codec.decodeDesired
  let desired := normalize (rt.world m) decoded
  rejectIf (desired.domainID ≠ manifest.domainID ∨ desired.ixID ≠ manifest.ixID)
    ("restore archive desired identity is domain=" ++ desired.domainID.quote ++ " ix=" ++
      desired.ixID.quote ++ ", want domain=" ++ manifest.domainID.quote ++ " ix=" ++
      manifest.ixID.quote)
  checkLogEntry rt codec snapshot ((read.entries.lookup "config.log").getD [])
  validateRestoreArchiveEntrySet read.entries manifest
  validateRestoreArchiveDesiredEntry rt m desired snapshot.events manifest.ixID
  .ok ⟨manifest, snapshot, desired, read.entries⟩

def validateConfigRestoreArchiveMetadata (d : Daemon R M) (archive : Archive R) :
    Except String Unit := do
  rejectIf (archive.manifest.version ≠ configExportArchiveVersion)
    ("restore archive version is " ++ toString archive.manifest.version ++ ", want " ++
      toString configExportArchiveVersion)
  rejectIf (archive.manifest.domainID ≠ d.desired.domainID)
    ("restore archive domain is " ++ archive.manifest.domainID.quote ++ ", want " ++
      d.desired.domainID.quote)
  rejectIf (archive.manifest.ixID ≠ d.desired.ixID)
    ("restore archive ix is " ++ archive.manifest.ixID.quote ++ ", want " ++ d.desired.ixID.quote)
  rejectIf (archive.snapshot.domainID ≠ archive.manifest.domainID)
    ("restore archive snapshot domain is " ++ archive.snapshot.domainID.quote ++
      ", want manifest " ++ archive.manifest.domainID.quote)
  rejectIf (archive.snapshot.ixID ≠ "" ∧ archive.snapshot.ixID ≠ archive.manifest.ixID)
    ("restore archive snapshot ix is " ++ archive.snapshot.ixID.quote ++ ", want manifest " ++
      archive.manifest.ixID.quote)
  rejectIf (archive.manifest.configHead ≠ archive.snapshot.head)
    "restore archive manifest head mismatch"

/-! ## The configuration of the archive -/

/-- The configuration is only checked for its identity. -/
def latestLocalDesiredFromEventsWithoutRuntimeValidation (d : Daemon R M) (events : List Event) :
    Except String (Option (Desired R)) :=
  match events.reverse.find? (isDesiredOf rt d.desired.ixID) with
  | none => .ok none
  | some event => do
    let decoded ← (rt.decodeDesired event.payload.bytes).mapError
      ("decode desired event seq " ++ toString event.seq ++ ": " ++ ·)
    let desired := normalize (rt.world m) decoded
    rejectIf (desired.domainID ≠ d.desired.domainID)
      ("desired event seq " ++ toString event.seq ++ " domain is " ++ desired.domainID.quote ++
        ", want " ++ d.desired.domainID.quote)
    rejectIf (desired.ixID ≠ d.desired.ixID)
      ("desired event seq " ++ toString event.seq ++ " ix is " ++ desired.ixID.quote ++
        ", want " ++ d.desired.ixID.quote)
    .ok (some desired)

/-- No configuration of the own IX is an error of a restore. -/
def requireDesired (d : Daemon R M) : Option (Desired R) → Except String (Desired R)
  | none => .error ("restore archive has no desired event for local IX " ++ d.desired.ixID.quote)
  | some desired => .ok desired

/-! ## The files a configuration names -/

/-- `configExportFileCandidate`. -/
structure Candidate where
  role : String
  sourcePath : String
  privateKey : Bool
  required : Bool

/-- What `configExportFileCandidates` reads of the rest of a configuration. -/
structure NamedFiles where
  routeAuthorizations : List String
  managementIdentity : String
  managementCertPath : String
  managementKeyPath : String
  transportMode : String
  transportCertPath : String
  transportKeyPath : String
  transportTrustRoots : List String

/-- Where a daemon runs: the working directory, unless it is unknown, its configuration
file, and the files its configurations name. -/
structure Site (R : Type) where
  directory : Option String
  configPath : String
  namedFiles : R → NamedFiles

/-- `normalizedManagementTLSIdentity` and `normalizedTransportTLSIdentityMode`, compared
with `custom_cert`. -/
def isCustomCert (identity : String) : Bool :=
  GoText.toLower (GoText.trimSpace identity) == "custom_cert"

def customTLSCandidates (files : NamedFiles) : List Candidate :=
  (if isCustomCert files.managementIdentity then
    [⟨"management.tls.certificate", files.managementCertPath, false, true⟩,
      ⟨"management.tls.private_key", files.managementKeyPath, true, true⟩]
  else []) ++
  (if isCustomCert files.transportMode then
    [⟨"transport.tls.certificate", files.transportCertPath, false,
        GoText.trimSpace files.transportCertPath != ""⟩,
      ⟨"transport.tls.private_key", files.transportKeyPath, true,
        GoText.trimSpace files.transportKeyPath != ""⟩] ++
      files.transportTrustRoots.map fun path => ⟨"transport.tls.trust_root", path, false, true⟩
  else [])

def configExportFileCandidates (site : Site R) (desired : Desired R) : List Candidate :=
  [⟨"config.source", site.configPath, false, false⟩,
    ⟨"ix.certificate", desired.ixCertPath, false, true⟩,
    ⟨"ix.private_key", desired.ixKeyPath, true, true⟩] ++
  (desired.domainTrustRoots.map fun path => ⟨"domain.trust_root", path, false, true⟩) ++
  ((site.namedFiles desired.rest).routeAuthorizations.map fun path =>
    ⟨"ix.route_authorization", path, false, true⟩) ++
  customTLSCandidates (site.namedFiles desired.rest)

def configExportPathKey (site : Site R) (sourcePath : String) : List Char :=
  match site.directory with
  | none => GoPath.clean sourcePath.toList
  | some directory => GoPath.abs directory.toList sourcePath.toList

/-- `configRestoreArchiveCandidate`. -/
structure RestoreCandidate where
  roles : List String
  privateKey : Bool

def addCandidate (site : Site R) (candidates : List Char → Option RestoreCandidate)
    (candidate : Candidate) : List Char → Option RestoreCandidate :=
  let sourcePath := GoText.trimSpace candidate.sourcePath
  if sourcePath = "" then candidates
  else
    let key := configExportPathKey site sourcePath
    let entry := (candidates key).getD ⟨[], false⟩
    Function.update candidates key (some
      ⟨if candidate.role = "" then entry.roles else candidate.role :: entry.roles,
        entry.privateKey || candidate.privateKey⟩)

/-- The candidates by the file they mean. -/
def configRestoreCandidateMap (site : Site R) (candidates : List Candidate) :
    List Char → Option RestoreCandidate :=
  candidates.foldl (addCandidate site) fun _ => none

def restoreArchiveRolesAllowed (roles : List String) (candidate : RestoreCandidate) : Bool :=
  roles.any (· ∈ candidate.roles)

/-! ## The files of an archive -/

def containsText (text : String) (payload : List UInt8) : Bool :=
  decide (GoText.encodeUtf8 text.toList <:+: payload)

def containsPrivateKeyPEM (payload : List UInt8) : Bool :=
  containsText "PRIVATE KEY" payload || containsText "EC PRIVATE KEY" payload ||
    containsText "RSA PRIVATE KEY" payload

def verifyRestoreArchiveFilePayload (file : FileManifest) (payload : List UInt8) :
    Except String Unit := do
  rejectIf (file.sizeBytes ≠ payload.length)
    ("restore archive file " ++ file.archivePath.quote ++ " size mismatch: manifest=" ++
      toString file.sizeBytes ++ " actual=" ++ toString payload.length)
  rejectIf (GoText.toLower file.sha256 ≠ GoText.toLower (rt.crypto.sha256Hex payload))
    ("restore archive file " ++ file.archivePath.quote ++ " sha256 mismatch: manifest=" ++
      file.sha256 ++ " actual=" ++ rt.crypto.sha256Hex payload)

/-- `validatedConfigRestoreArchiveFile`. -/
structure ValidatedFile where
  manifest : FileManifest
  archivePath : String
  payload : List UInt8
  deriving DecidableEq

/-- A file goes where both configurations allow it. -/
def validateConfigRestoreArchiveFile (site : Site R) (current restored : Desired R)
    (archive : Archive R) (file : FileManifest) : Except String ValidatedFile := do
  let archivePath ← normalizeRestoreArchivePath file.archivePath
  match archive.entries.lookup archivePath with
  | none => .error ("restore archive manifest references missing file " ++ archivePath.quote)
  | some payload => do
    verifyRestoreArchiveFilePayload rt file payload
    rejectIf (file.privateKey && !archive.manifest.privateKeysIncluded)
      ("restore archive file " ++ archivePath.quote ++
        " is a private key but manifest private_keys_included=false")
    rejectIf (!file.privateKey && containsPrivateKeyPEM payload)
      ("restore archive file " ++ archivePath.quote ++
        " contains private key material but is not marked private_key")
    let key := configExportPathKey site file.sourcePath
    match configRestoreCandidateMap site (configExportFileCandidates site current) key,
      configRestoreCandidateMap site (configExportFileCandidates site restored) key with
    | some currentCandidate, some restoredCandidate => do
      rejectIf (!restoreArchiveRolesAllowed file.roles currentCandidate ||
          !restoreArchiveRolesAllowed file.roles restoredCandidate)
        ("restore archive file " ++ archivePath.quote ++ " roles are not allowed for target " ++
          file.sourcePath.quote)
      rejectIf (file.privateKey ≠ currentCandidate.privateKey ∨
          file.privateKey ≠ restoredCandidate.privateKey)
        ("restore archive file " ++ archivePath.quote ++ " private_key=" ++
          toString file.privateKey ++ " does not match configured target role")
      .ok ⟨file, archivePath, payload⟩
    | _, _ =>
      .error ("restore archive file " ++ archivePath.quote ++ " target " ++
        file.sourcePath.quote ++ " is not allowed by current and restored config")

def validateConfigRestoreArchiveFiles (site : Site R) (current restored : Desired R)
    (archive : Archive R) : Except String (List ValidatedFile) :=
  archive.manifest.files.mapM (validateConfigRestoreArchiveFile rt site current restored archive)

/-! ## Validation -/

/-- `validateConfigArchive`: the number of files, and of private keys among them. -/
def validateConfigArchive (site : Site R) (d : Daemon R M) (tar : List TarEntry) :
    Except String (ℕ × ℕ) := do
  let archive ← parseConfigRestoreArchive rt m codec tar
  validateConfigRestoreArchiveMetadata d archive
  let _ ← verifyConfigSnapshotLocked (rt.world m) (d.node rt) d.desired.trust
    archive.snapshot.toSnapshot
  let latest ← latestLocalDesiredFromEvents rt m d archive.snapshot.events
  let restored ← requireDesired d latest
  let files ← validateConfigRestoreArchiveFiles rt site d.desired restored archive
  .ok (files.length, (files.filter fun file => file.manifest.privateKey).length)

end ConfigDaemon
