/-
The calls on the editor recovery store.

Each call holds the lock of the store.  It first sweeps the store: blobs that no manifest names, and
records without a manifest, are removed once they are older than the grace period.  A checkpoint then
compares the revision that the caller expects, writes the blobs of its texts, or finds them there,
and last replaces the manifest.
-/

import Wardian.Recovery.Store

set_option autoImplicit false

namespace Wardian.Recovery

variable (backend : Backend)

/-! ### Records -/

/-- The names of the record directories, in order. -/
def recoveryRecordIds (disk : Disk) : List String :=
  (disk.toList.map Prod.fst).filter fun recoveryId =>
    backend.canonicalUuid recoveryId == some recoveryId

def checkRecoveryId (recoveryId : String) : Except FileResourceErrorV1 Unit :=
  match backend.canonicalUuid recoveryId with
  | none => .error (error "invalid_request" "recovery id is not a valid opaque identifier")
  | some parsed =>
    if parsed ≠ recoveryId then
      .error (error "invalid_request" "recovery id is not in canonical form")
    else .ok ()

def notFoundError : FileResourceErrorV1 :=
  error "recovery_not_found" "recovery checkpoint does not exist"

def validateRecoveryRecordDir (disk : Disk) (recoveryId : String) :
    Except FileResourceErrorV1 RecordDir := do
  checkRecoveryId backend recoveryId
  match disk[recoveryId]? with
  | none => .error notFoundError
  | some dir => .ok dir

/-- The manifest of a directory, if it is one that is read. -/
def readManifest (recoveryId : String) (dir : RecordDir) :
    Except FileResourceErrorV1 FileRecoveryManifestV1 :=
  match dir.manifest with
  | none => .error notFoundError
  | some manifest =>
    if maxManifestSize < manifest.size then
      .error (error "invalid_recovery" "recovery manifest is not a bounded ordinary file")
    else if manifest.recoveryId ≠ recoveryId ∨ manifest.schema ≠ 1 then
      .error (error "invalid_recovery" "recovery manifest identity or schema is invalid")
    else .ok manifest

def loadRecoveryManifest (disk : Disk) (recoveryId : String) :
    Except FileResourceErrorV1 FileRecoveryManifestV1 := do
  let dir ← validateRecoveryRecordDir backend disk recoveryId
  readManifest recoveryId dir

def authorizeRecoveryManifest (manifest : FileRecoveryManifestV1)
    (resourceKey webviewScope : String) : Except FileResourceErrorV1 Unit :=
  if manifest.schema ≠ 1 ∨ manifest.resourceKey ≠ resourceKey ∨
      manifest.webviewScope ≠ webviewScope then
    .error (error "unauthorized_recovery"
      "recovery does not belong to this resource and webview scope")
  else .ok ()

def conflictError : FileResourceErrorV1 :=
  error "recovery_conflict" "recovery checkpoint revision is no longer current"

/-- The manifest of a recovery that the caller may use. -/
def authorizedManifest (disk : Disk) (recoveryId resourceKey webviewScope : String) :
    Except FileResourceErrorV1 FileRecoveryManifestV1 := do
  let manifest ← loadRecoveryManifest backend disk recoveryId
  authorizeRecoveryManifest manifest resourceKey webviewScope
  return manifest

/-- The manifest of a recovery that the caller may use and that has the revision it expects. -/
def currentManifest (disk : Disk) (recoveryId resourceKey webviewScope : String)
    (expected : Option Nat) : Except FileResourceErrorV1 FileRecoveryManifestV1 := do
  let manifest ← authorizedManifest backend disk recoveryId resourceKey webviewScope
  if expected ≠ some manifest.recoveryRevision then .error conflictError else return manifest

/-! ### The sweep -/

/-- The blob is named by neither entry of the manifest, and is old enough to be removed. -/
def isOrphan (manifest : FileRecoveryManifestV1) (now : Nat) (blobName : String)
    (file : BlobFile) : Bool :=
  isRecoveryBlobName blobName && blobName != manifest.baseBlob && blobName != manifest.bufferBlob &&
    decide (file.modified + backend.storeLimits.orphanGracePeriod ≤ now)

/-- Remove the orphans of a directory, but those that are kept. -/
def removeOrphans (manifest : FileRecoveryManifestV1) (now : Nat) (kept : String → Bool)
    (dir : RecordDir) : RecordDir :=
  { dir with blobs := dir.blobs.map fun blobs =>
      blobs.filter fun blobName file =>
        !isOrphan backend manifest now blobName file || kept blobName }

/-- The files that a crash leaves of those that were to be removed. -/
def Crash.keeps (crash : Crash) (blobName : String) : Bool :=
  match crash.kept with
  | none => true
  | some (_, names) => names.contains blobName

/-- The files are removed in the order of the directory, which is any: a crash leaves any of them. -/
def garbageCollectRecoveryBlobs (manifest : FileRecoveryManifestV1) (now : Nat) :
    RecoveryM Unit :=
  fsStep
    (fun disk => disk.change manifest.recoveryId
      (removeOrphans backend manifest now fun _ => false))
    fun crash disk => (.between, disk.change manifest.recoveryId
      (removeOrphans backend manifest now crash.keeps))

/-- What a crash leaves of a directory that was being removed. -/
def remains (now : Nat) (keepManifest : Bool) (names : List String) (dir : RecordDir) : RecordDir :=
  { modified := now
    manifest := if keepManifest then dir.manifest else none
    blobs := if names = [] then none
      else dir.blobs.map fun blobs => blobs.filter fun blobName _ => names.contains blobName }

/-- The point at which the removal of a directory is cut, and what is left. -/
def cutRemoval (now : Nat) (recoveryId : String) (crash : Crash) (disk : Disk) :
    CrashPoint × Disk :=
  match crash.kept with
  | none => (.between, disk)
  | some (keepManifest, names) =>
    (if (disk.manifestOf recoveryId).isSome then .inRemoval else .between,
      disk.change recoveryId (remains now keepManifest names))

def removeRecoveryRecord (now : Nat) (recoveryId : String) : RecoveryM Unit := do
  let disk ← readDisk
  let _ ← check (validateRecoveryRecordDir backend disk recoveryId)
  fsStep (fun disk => disk.erase recoveryId) (cutRemoval now recoveryId)

/-- Remove a record without a manifest once it is old enough. -/
def removeIncomplete (now : Nat) (recoveryId : String) : RecoveryM Unit := do
  let disk ← readDisk
  let dir ← check (validateRecoveryRecordDir backend disk recoveryId)
  if dir.modified + backend.storeLimits.orphanGracePeriod ≤ now then
    removeRecoveryRecord backend now recoveryId
  else return ()

def sweepRecord (now : Nat) (recoveryId : String) : RecoveryM Unit := do
  let disk ← readDisk
  match loadRecoveryManifest backend disk recoveryId with
  | .ok manifest => garbageCollectRecoveryBlobs backend manifest now
  | .error failure =>
    if failure.code = "recovery_not_found" then removeIncomplete backend now recoveryId
    -- Malformed records remain intact.
    else return ()

def sweepRecoveryStore (now : Nat) : RecoveryM Unit := do
  let disk ← readDisk
  (recoveryRecordIds backend disk).forM (sweepRecord backend now)

/-! ### Reading -/

/-- The file of a blob in a directory, if it is not too long. -/
def boundedBlob (dir : RecordDir) (blobName : String) : Except FileResourceErrorV1 BlobFile :=
  match dir.blobs with
  | none => .error (error "recovery_unavailable"
      ("cannot inspect recovery blob directory: " ++ backend.notFound))
  | some blobs =>
    match blobs[blobName]? with
    | none => .error (error "invalid_recovery"
        ("recovery blob is unavailable: " ++ backend.notFound))
    | some file =>
      if backend.limits.monacoMaxSizeBytes < file.bytes.length then
        .error (error "invalid_recovery" "recovery blob is not a bounded ordinary file")
      else .ok file

/-- The file of a blob that a manifest names. -/
def validateRecoveryBlobMetadata (disk : Disk) (manifest : FileRecoveryManifestV1)
    (blobName : String) : Except FileResourceErrorV1 BlobFile :=
  if !isRecoveryBlobName blobName then
    .error (error "invalid_recovery" "recovery blob name is not hash-addressed")
  else do
    let dir ← validateRecoveryRecordDir backend disk manifest.recoveryId
    boundedBlob backend dir blobName

/-- The text of a blob file. -/
def readBlobFile (blobName : String) (file : BlobFile) : Except FileResourceErrorV1 String :=
  match textOf file.bytes with
  | none => .error (error "invalid_recovery" "recovery blob is not valid UTF-8 text")
  | some text =>
    if recoveryBlobName backend text ≠ blobName then
      .error (error "invalid_recovery" "recovery blob hash does not match its immutable name")
    else
      match validateSubmittedText backend.limits text with
      | .error _ => .error (error "invalid_recovery"
          "recovery blob exceeds the complete text-model limits")
      | .ok () => .ok text

def readRecoveryBlob (disk : Disk) (manifest : FileRecoveryManifestV1) (blobName : String) :
    Except FileResourceErrorV1 String := do
  let file ← validateRecoveryBlobMetadata backend disk manifest blobName
  readBlobFile backend blobName file

/-! ### Admission -/

structure FileRecoveryStoreUsage where
  records : Nat
  bodyBytes : Nat

def recoveryStoreUsage (disk : Disk) : FileRecoveryStoreUsage :=
  let recoveryIds := recoveryRecordIds backend disk
  { records := recoveryIds.length
    bodyBytes := (recoveryIds.flatMap fun recoveryId =>
        ((disk[recoveryId]?.map RecordDir.files).getD ∅).toList).foldl
      (fun total entry => min (total + entry.2.bytes.length) u64Max) 0 }

/-- Count a text whose blob is neither counted nor there. -/
def countText (disk : Disk) (recoveryId : String) :
    List String × Nat → String → List String × Nat
  | (prospectiveNames, additionalBytes), text =>
    let blobName := recoveryBlobName backend text
    if prospectiveNames.contains blobName then (prospectiveNames, additionalBytes)
    else if (disk.blobOf recoveryId blobName).isSome then
      (blobName :: prospectiveNames, additionalBytes)
    else (blobName :: prospectiveNames, min (additionalBytes + (bytesOf text).length) u64Max)

def enforceRecoveryAdmission (disk : Disk) (recoveryId base buffer : String) :
    Except FileResourceErrorV1 Unit := do
  let usage := recoveryStoreUsage backend disk
  checkRecoveryId backend recoveryId
  if disk[recoveryId]?.isNone && decide (backend.storeLimits.maxRecords ≤ usage.records) then
    .error (error "recovery_capacity_exceeded" "durable editor recovery record limit is reached")
  else
    let additionalBytes := ([base, buffer].foldl (countText backend disk recoveryId) ([], 0)).2
    if backend.storeLimits.maxBodyBytes < min (usage.bodyBytes + additionalBytes) u64Max then
      .error (error "recovery_capacity_exceeded"
        "durable editor recovery body-byte limit is reached")
    else .ok ()

/-! ### Writing -/

/-- Create the directory of a record that has none. -/
def addRecord (now : Nat) (recoveryId : String) (disk : Disk) : Disk :=
  match disk[recoveryId]? with
  | some _ => disk
  | none => disk.insert recoveryId { modified := now, manifest := none, blobs := none }

/-- Create the directory of the blobs of a record that has none. -/
def RecordDir.addBlobs (now : Nat) (dir : RecordDir) : RecordDir :=
  match dir.blobs with
  | some _ => dir
  | none => { dir with modified := now, blobs := some ∅ }

/-- Put bytes under the name of a blob. -/
def RecordDir.putBlob (now : Nat) (blobName : String) (bytes : List UInt8) (dir : RecordDir) :
    RecordDir :=
  { dir with blobs := some (dir.files.insert blobName { bytes := bytes, modified := now }) }

/-- The point at which the write of a blob is cut, and what is left. -/
def cutWrite (now : Nat) (recoveryId blobName : String) (bytes : List UInt8) (crash : Crash)
    (disk : Disk) : CrashPoint × Disk :=
  match crash.written with
  | none => (.between, disk)
  | some written =>
    (if written < bytes.length then .inBlobWrite else .between,
      disk.change recoveryId (RecordDir.putBlob now blobName (bytes.take written)))

/-- Create the file of a blob, write it and flush it. -/
def createBlob (now : Nat) (recoveryId blobName : String) (bytes : List UInt8) : RecoveryM Unit :=
  fsStep (fun disk => disk.change recoveryId (RecordDir.putBlob now blobName bytes))
    (cutWrite now recoveryId blobName bytes)

def validateExistingRecoveryBlob (file : BlobFile) (text : String) :
    Except FileResourceErrorV1 Unit :=
  if file.bytes.length ≠ (bytesOf text).length then
    .error (error "invalid_recovery"
      "existing recovery blob is not the expected bounded ordinary file")
  else if file.bytes ≠ bytesOf text then
    .error (error "invalid_recovery" "hash-addressed recovery blob contains different bytes")
  else .ok ()

def writeRecoveryBlob (now : Nat) (recoveryId text : String) : RecoveryM String := do
  atomicStep fun disk => disk.change recoveryId (RecordDir.addBlobs now)
  let disk ← readDisk
  match disk.blobOf recoveryId (recoveryBlobName backend text) with
  | some existing => check (validateExistingRecoveryBlob existing text)
  | none => createBlob now recoveryId (recoveryBlobName backend text) (bytesOf text)
  return recoveryBlobName backend text

/-- The manifest that commits the blobs. -/
def committedManifest (manifest : FileRecoveryManifestV1) (base buffer : String) (now : Nat) :
    FileRecoveryManifestV1 :=
  { manifest with
    baseBlob := recoveryBlobName backend base
    bufferBlob := recoveryBlobName backend buffer
    recoveryRevision := manifest.recoveryRevision + 1
    updatedAtMs := now }

/-- Put a manifest in the place of the one of a directory. -/
def RecordDir.putManifest (now : Nat) (manifest : FileRecoveryManifestV1) (dir : RecordDir) :
    RecordDir :=
  { dir with modified := now, manifest := some manifest }

/-- Replace the manifest of a record. -/
def replaceManifest (now : Nat) (manifest : FileRecoveryManifestV1) : RecoveryM Unit :=
  atomicStep fun disk => disk.change manifest.recoveryId (RecordDir.putManifest now manifest)

def writeRecoveryCheckpoint (manifest : FileRecoveryManifestV1) (base buffer : String)
    (now : Nat) : RecoveryM FileRecoveryManifestV1 := do
  atomicStep (addRecord now manifest.recoveryId)
  let _ ← writeRecoveryBlob backend now manifest.recoveryId base
  let _ ← writeRecoveryBlob backend now manifest.recoveryId buffer
  if u64Max < manifest.recoveryRevision + 1 then
    fail (error "recovery_conflict" "recovery revision is exhausted")
  else
    replaceManifest now (committedManifest backend manifest base buffer now)
    garbageCollectRecoveryBlobs backend (committedManifest backend manifest base buffer now) now
    return committedManifest backend manifest base buffer now

/-! ### The calls -/

structure FileDescriptor where
  canonicalPath : String
  displayName : String
  extension : Option String
  mimeType : String

/-- What a call is given from outside the store: the time, new identifiers, and what the live
subscription of the caller authorizes before and after a checkpoint. -/
structure Env where
  now : Nat
  newRecoveryId : String
  newBaseRevision : String
  live : Except FileResourceErrorV1 FileDescriptor
  probe : Except FileResourceErrorV1 FileDescriptor

structure CheckpointRequest where
  recoveryId : Option String
  expectedRecoveryRevision : Option Nat
  resourceId : String
  baseContentHash : String
  submittedBase : String
  resourceKey : String
  webviewScope : String
  buffer : String

def foreignResourceError : FileResourceErrorV1 :=
  error "unauthorized_resource" "live subscription does not match the recovery resource key"

/-- The checks of a request that read nothing else. -/
def CheckpointRequest.validate (request : CheckpointRequest) : Except FileResourceErrorV1 Unit := do
  validateSubmittedText backend.limits request.submittedBase
  validateSubmittedText backend.limits request.buffer
  if contentHash backend request.submittedBase ≠ request.baseContentHash then
    .error (error "invalid_request" "recovery base content does not match its declared hash")
  else if Text.isBlank request.resourceKey || Text.isBlank request.webviewScope then
    .error (error "invalid_request"
      "recovery resource key and webview scope must not be empty")
  else .ok ()

/-- A descriptor of the resource that the recovery belongs to. -/
def CheckpointRequest.matchesFile (request : CheckpointRequest) (descriptor : FileDescriptor) :
    Bool :=
  backend.fileResourceId descriptor.canonicalPath == request.resourceKey &&
    request.resourceId == request.resourceKey

/-- A new recovery needs a live subscription to its file; an update of one does not. -/
def CheckpointRequest.authorizeNew (env : Env) (request : CheckpointRequest) :
    Except FileResourceErrorV1 (Option FileDescriptor) :=
  match request.recoveryId with
  | some _ => .ok none
  | none => do
      let descriptor ← env.live
      if !request.matchesFile backend descriptor then .error foreignResourceError
      else return some descriptor

/-- The manifest of an update, before it is committed. -/
def updatedManifest (env : Env) (request : CheckpointRequest) (current : FileRecoveryManifestV1) :
    FileRecoveryManifestV1 :=
  if current.baseContentHash ≠ request.baseContentHash then
    { current with
      baseContentHash := request.baseContentHash
      baseOpaqueRevision := env.newBaseRevision }
  else current

/-- The manifest of a new recovery, before it is committed. -/
def newManifest (env : Env) (request : CheckpointRequest) (descriptor : FileDescriptor) :
    FileRecoveryManifestV1 :=
  { schema := 1
    recoveryId := env.newRecoveryId
    resourceKey := request.resourceKey
    displayName := descriptor.displayName
    extension := descriptor.extension
    mimeType := descriptor.mimeType
    baseContentHash := request.baseContentHash
    baseOpaqueRevision := env.newBaseRevision
    baseBlob := ""
    bufferBlob := ""
    recoveryRevision := 0
    webviewScope := request.webviewScope
    createdAtMs := env.now
    updatedAtMs := env.now }

/-- The manifest that the checkpoint starts from. -/
def prepareManifest (env : Env) (request : CheckpointRequest)
    (descriptor : Option FileDescriptor) (disk : Disk) :
    Except FileResourceErrorV1 FileRecoveryManifestV1 :=
  match request.recoveryId with
  | some recoveryId => do
      let current ← currentManifest backend disk recoveryId request.resourceKey
        request.webviewScope request.expectedRecoveryRevision
      return updatedManifest env request current
  | none =>
    if request.expectedRecoveryRevision.isSome then
      .error (error "recovery_conflict" "a new recovery checkpoint has no prior revision")
    else
      match descriptor with
      | none => .error (error "resource_not_found"
          "new recovery checkpoint lost its validated file resource")
      | some descriptor => .ok (newManifest env request descriptor)

structure FileRecoveryCheckpointV1 where
  schema : Nat
  recoveryId : String
  resourceKey : String
  baseContentHash : String
  baseOpaqueRevision : String
  recoveryRevision : Nat
  createdAtMs : Nat
  updatedAtMs : Nat
  fileAuthorizationError : Option FileResourceErrorV1
deriving DecidableEq

def recoveryCheckpointMetadata (manifest : FileRecoveryManifestV1)
    (fileAuthorizationError : Option FileResourceErrorV1) : FileRecoveryCheckpointV1 :=
  { schema := 1
    recoveryId := manifest.recoveryId
    resourceKey := manifest.resourceKey
    baseContentHash := manifest.baseContentHash
    baseOpaqueRevision := manifest.baseOpaqueRevision
    recoveryRevision := manifest.recoveryRevision
    createdAtMs := manifest.createdAtMs
    updatedAtMs := manifest.updatedAtMs
    fileAuthorizationError := fileAuthorizationError }

/-- The advisory failure of the live subscription after a checkpoint. -/
def fileAuthorizationError (env : Env) (request : CheckpointRequest) :
    Option FileResourceErrorV1 :=
  match env.probe with
  | .ok descriptor =>
    if request.matchesFile backend descriptor then none else some foreignResourceError
  | .error failure => some failure

def checkpointRecovery (env : Env) (request : CheckpointRequest) :
    RecoveryM FileRecoveryCheckpointV1 := do
  check (request.validate backend)
  let descriptor ← check (request.authorizeNew backend env)
  sweepRecoveryStore backend env.now
  let disk ← readDisk
  let manifest ← check (prepareManifest backend env request descriptor disk)
  check (enforceRecoveryAdmission backend disk manifest.recoveryId request.submittedBase
    request.buffer)
  let committed ← writeRecoveryCheckpoint backend manifest request.submittedBase request.buffer
    env.now
  return recoveryCheckpointMetadata committed (fileAuthorizationError backend env request)

structure FileRecoverySummaryV1 where
  schema : Nat
  recoveryId : String
  resourceKey : String
  displayName : String
  extension : Option String
  mimeType : String
  baseContentHash : String
  baseOpaqueRevision : String
  recoveryRevision : Nat
  createdAtMs : Nat
  updatedAtMs : Nat
deriving DecidableEq

def recoverySummaryMetadata (manifest : FileRecoveryManifestV1) : FileRecoverySummaryV1 :=
  { schema := 1
    recoveryId := manifest.recoveryId
    resourceKey := manifest.resourceKey
    displayName := manifest.displayName
    extension := manifest.extension
    mimeType := manifest.mimeType
    baseContentHash := manifest.baseContentHash
    baseOpaqueRevision := manifest.baseOpaqueRevision
    recoveryRevision := manifest.recoveryRevision
    createdAtMs := manifest.createdAtMs
    updatedAtMs := manifest.updatedAtMs }

structure FileRecoveryV1 extends FileRecoverySummaryV1 where
  base : String
  buffer : String
deriving DecidableEq

/-- The texts of a recovery. -/
def readTexts (disk : Disk) (manifest : FileRecoveryManifestV1) :
    Except FileResourceErrorV1 (String × String) := do
  let base ← readRecoveryBlob backend disk manifest manifest.baseBlob
  let buffer ← readRecoveryBlob backend disk manifest manifest.bufferBlob
  return (base, buffer)

def getRecovery (env : Env) (recoveryId resourceKey webviewScope : String) :
    RecoveryM FileRecoveryV1 := do
  sweepRecoveryStore backend env.now
  let disk ← readDisk
  let manifest ← check (authorizedManifest backend disk recoveryId resourceKey webviewScope)
  let (base, buffer) ← check (readTexts backend disk manifest)
  return { recoverySummaryMetadata manifest with base := base, buffer := buffer }

/-- The manifests with the key and scope whose blobs are there. -/
def listedManifests (disk : Disk) (resourceKey webviewScope : String) :
    List FileRecoveryManifestV1 :=
  (recoveryRecordIds backend disk).filterMap fun recoveryId =>
    match authorizedManifest backend disk recoveryId resourceKey webviewScope with
    | .error _ => none
    | .ok manifest =>
      match validateRecoveryBlobMetadata backend disk manifest manifest.baseBlob,
          validateRecoveryBlobMetadata backend disk manifest manifest.bufferBlob with
      | .ok _, .ok _ => some manifest
      | _, _ => none

/-- Newest first. -/
def newerFirst (left right : FileRecoveryManifestV1) : Bool :=
  right.updatedAtMs < left.updatedAtMs ||
    right.updatedAtMs == left.updatedAtMs && decide (right.recoveryId ≤ left.recoveryId)

def listRecoveries (env : Env) (resourceKey webviewScope : String) :
    RecoveryM (List FileRecoverySummaryV1) := do
  if Text.isBlank resourceKey || Text.isBlank webviewScope then
    fail (error "invalid_request" "recovery resource key and webview scope must not be empty")
  else
    sweepRecoveryStore backend env.now
    let disk ← readDisk
    return ((listedManifests backend disk resourceKey webviewScope).mergeSort newerFirst).map
      recoverySummaryMetadata

def discardRecovery (env : Env) (recoveryId : String) (expectedRecoveryRevision : Nat)
    (resourceKey webviewScope : String) : RecoveryM Unit := do
  sweepRecoveryStore backend env.now
  let disk ← readDisk
  let _ ← check (currentManifest backend disk recoveryId resourceKey webviewScope
    (some expectedRecoveryRevision))
  removeRecoveryRecord backend env.now recoveryId

/-- The part of a merge that holds the lock of the store: what it returns is then merged with the
current text of the live file. -/
def mergeRecovery (env : Env) (recoveryId : String) (expectedRecoveryRevision : Nat)
    (resourceKey webviewScope resourceId : String) :
    RecoveryM (FileRecoveryManifestV1 × String × String) := do
  let descriptor ← check env.live
  if backend.fileResourceId descriptor.canonicalPath ≠ resourceKey ∨ resourceId ≠ resourceKey then
    fail foreignResourceError
  else
    sweepRecoveryStore backend env.now
    let disk ← readDisk
    let manifest ← check (currentManifest backend disk recoveryId resourceKey webviewScope
      (some expectedRecoveryRevision))
    let (base, buffer) ← check (readTexts backend disk manifest)
    check (validateRecoveryDiffSide backend.limits base)
    check (validateRecoveryDiffSide backend.limits buffer)
    return (manifest, base, buffer)

inductive Call
  | checkpoint (request : CheckpointRequest)
  | get (recoveryId resourceKey webviewScope : String)
  | list (resourceKey webviewScope : String)
  | discard (recoveryId : String) (expectedRecoveryRevision : Nat)
      (resourceKey webviewScope : String)
  | merge (recoveryId : String) (expectedRecoveryRevision : Nat)
      (resourceKey webviewScope resourceId : String)
  | sweep

inductive Answer
  | checkpointed (checkpoint : FileRecoveryCheckpointV1)
  | recovery (recovery : FileRecoveryV1)
  | recoveries (summaries : List FileRecoverySummaryV1)
  | discarded
  | merged (manifest : FileRecoveryManifestV1) (base buffer : String)
  | swept
deriving DecidableEq

def perform (env : Env) : Call → RecoveryM Answer
  | .checkpoint request => do
      let checkpoint ← checkpointRecovery backend env request
      return .checkpointed checkpoint
  | .get recoveryId resourceKey webviewScope => do
      let recovery ← getRecovery backend env recoveryId resourceKey webviewScope
      return .recovery recovery
  | .list resourceKey webviewScope => do
      let summaries ← listRecoveries backend env resourceKey webviewScope
      return .recoveries summaries
  | .discard recoveryId expectedRecoveryRevision resourceKey webviewScope => do
      discardRecovery backend env recoveryId expectedRecoveryRevision resourceKey webviewScope
      return .discarded
  | .merge recoveryId expectedRecoveryRevision resourceKey webviewScope resourceId => do
      let (manifest, base, buffer) ← mergeRecovery backend env recoveryId
        expectedRecoveryRevision resourceKey webviewScope resourceId
      return .merged manifest base buffer
  | .sweep => do
      sweepRecoveryStore backend env.now
      return .swept

end Wardian.Recovery
