/-
The files of the editor recovery store.

Every dirty editor buffer has a record: a directory with a manifest and a directory of blobs, each
named by the digest of its text.  A manifest names the blob of the base and the blob of the buffer.
The manifest is replaced as a whole; a blob is written in place, so a process that stops inside the
write leaves a part of it under its final name.  A record is removed file by file.

Main results:

* `Recovery.isRecoveryBlobName_recoveryBlobName` — the name of every blob has the form of one;
* `Recovery.wp_fsStep` — what a step leaves, whole or cut.
-/

import Wardian.Lib.Counter
import Wardian.Lib.JsonText
import Wardian.Lib.Prog
import Wardian.Lib.Table
import Wardian.Lib.Text
import Wardian.Lib.Utf8

set_option autoImplicit false

namespace Wardian.Recovery

open JsonText

/-! ### Errors and limits -/

structure FileResourceErrorV1 where
  schema : Nat
  code : String
  message : String
deriving DecidableEq

def error (code message : String) : FileResourceErrorV1 :=
  { schema := 1, code := code, message := message }

/-- The limits of the text models. -/
structure FileResourceLimits where
  monacoMaxSizeBytes : Nat
  monacoMaxLineCount : Nat
  diffMaxSizeBytesPerSide : Nat
  diffMaxLineCount : Nat

def FileResourceLimits.allowsMonaco (limits : FileResourceLimits) (sizeBytes lineCount : Nat) :
    Bool :=
  sizeBytes ≤ limits.monacoMaxSizeBytes && lineCount ≤ limits.monacoMaxLineCount

def FileResourceLimits.allowsDiffSide (limits : FileResourceLimits) (sizeBytes lineCount : Nat) :
    Bool :=
  sizeBytes ≤ limits.diffMaxSizeBytesPerSide && lineCount ≤ limits.diffMaxLineCount

structure FileRecoveryStoreLimits where
  maxRecords : Nat
  maxBodyBytes : Nat
  /-- In milliseconds. -/
  orphanGracePeriod : Nat

/-! ### Texts -/

/-- The bytes of a text. -/
def bytesOf (text : String) : List UInt8 := Utf8.encode text.toList

/-- The text with the bytes. -/
def textOf (bytes : List UInt8) : Option String := (Utf8.decode? bytes).map String.ofList

theorem textOf_bytesOf (text : String) : textOf (bytesOf text) = some text := by
  unfold textOf bytesOf
  rw [Utf8.decode?_encode, Option.map_some, String.ofList_toList]

/-- Count one character; the flag says that the character before it was a carriage return. -/
def countLine : Nat × Bool → Char → Nat × Bool
  | (lineCount, previousWasCr), character =>
    if previousWasCr && character == '\n' then (lineCount, false)
    else if character == '\r' then (min (lineCount + 1) u64Max, true)
    else if character == '\n' then (min (lineCount + 1) u64Max, false)
    else (lineCount, false)

def textSizeAndLineCount (text : String) : Nat × Nat :=
  ((bytesOf text).length, (text.toList.foldl countLine (1, false)).1)

def validateSubmittedText (limits : FileResourceLimits) (text : String) :
    Except FileResourceErrorV1 Unit :=
  let (sizeBytes, lineCount) := textSizeAndLineCount text
  if limits.allowsMonaco sizeBytes lineCount then .ok ()
  else .error (error "file_too_large" "submitted text exceeds the complete model limits")

def validateRecoveryDiffSide (limits : FileResourceLimits) (text : String) :
    Except FileResourceErrorV1 Unit :=
  let (sizeBytes, lineCount) := textSizeAndLineCount text
  if limits.allowsDiffSide sizeBytes lineCount then .ok ()
  else .error (error "file_too_large" "recovery text exceeds the per-side diff limits")

theorem size_of_validateSubmittedText {limits : FileResourceLimits} {text : String}
    (h : validateSubmittedText limits text = .ok ()) : (bytesOf text).length ≤ limits.monacoMaxSizeBytes := by
  unfold validateSubmittedText at h
  by_cases hallows : limits.allowsMonaco (textSizeAndLineCount text).1
      (textSizeAndLineCount text).2
  · unfold FileResourceLimits.allowsMonaco at hallows
    rw [Bool.and_eq_true, decide_eq_true_eq] at hallows
    exact hallows.1
  · dsimp only at h
    rw [if_neg hallows] at h
    cases h

/-! ### The store -/

structure FileRecoveryManifestV1 where
  schema : Nat
  recoveryId : String
  resourceKey : String
  displayName : String
  extension : Option String
  mimeType : String
  baseContentHash : String
  baseOpaqueRevision : String
  baseBlob : String
  bufferBlob : String
  recoveryRevision : Nat
  webviewScope : String
  createdAtMs : Nat
  updatedAtMs : Nat
deriving DecidableEq

namespace FileRecoveryManifestV1

/-- One member of the written manifest. -/
def member (name value : String) : String := "  \"" ++ name ++ "\": " ++ value

/-- The manifest as it is written: indented JSON and a line feed. -/
def text (manifest : FileRecoveryManifestV1) : String :=
  "\x7b\n" ++ String.intercalate ",\n"
    [member "schema" (toString manifest.schema),
      member "recovery_id" (quote manifest.recoveryId),
      member "resource_key" (quote manifest.resourceKey),
      member "display_name" (quote manifest.displayName),
      member "extension" ((manifest.extension.map quote).getD "null"),
      member "mime_type" (quote manifest.mimeType),
      member "base_content_hash" (quote manifest.baseContentHash),
      member "base_opaque_revision" (quote manifest.baseOpaqueRevision),
      member "base_blob" (quote manifest.baseBlob),
      member "buffer_blob" (quote manifest.bufferBlob),
      member "recovery_revision" (toString manifest.recoveryRevision),
      member "webview_scope" (quote manifest.webviewScope),
      member "created_at_ms" (toString manifest.createdAtMs),
      member "updated_at_ms" (toString manifest.updatedAtMs)] ++ "\n\x7d\n"

/-- The size of the manifest file. -/
def size (manifest : FileRecoveryManifestV1) : Nat := manifest.text.utf8ByteSize

end FileRecoveryManifestV1

/-- The largest manifest file that is read. -/
def maxManifestSize : Nat := 64 * 1024

structure BlobFile where
  bytes : List UInt8
  /-- The modification time, in milliseconds. -/
  modified : Nat

/-- The directory of one record.  Without a directory of blobs there are none. -/
structure RecordDir where
  modified : Nat
  manifest : Option FileRecoveryManifestV1
  blobs : Option (Table BlobFile)

def RecordDir.files (dir : RecordDir) : Table BlobFile := dir.blobs.getD ∅

/-- The directories of the records, by name; a missing root has none. -/
abbrev Disk : Type := Table RecordDir

namespace Disk

/-- The manifest file of a record. -/
def manifestOf (disk : Disk) (recoveryId : String) : Option FileRecoveryManifestV1 :=
  disk[recoveryId]?.bind RecordDir.manifest

/-- A blob file of a record. -/
def blobOf (disk : Disk) (recoveryId blobName : String) : Option BlobFile :=
  disk[recoveryId]?.bind fun dir => dir.files[blobName]?

/-- Change the directory of a record that exists. -/
def change (disk : Disk) (recoveryId : String) (f : RecordDir → RecordDir) : Disk :=
  match disk[recoveryId]? with
  | none => disk
  | some dir => disk.insert recoveryId (f dir)

theorem lookup_change (disk : Disk) (recoveryId id : String) (f : RecordDir → RecordDir) :
    (disk.change recoveryId f)[id]? =
      if recoveryId = id then disk[id]?.map f else disk[id]? := by
  unfold change
  split
  · rename_i hnone
    split
    · rename_i heq
      subst heq
      rw [hnone]
      rfl
    · rfl
  · rename_i dir hdir
    rw [Table.lookup_insert]
    split
    · rename_i heq
      subst heq
      rw [hdir]
      rfl
    · rfl

theorem manifestOf_change (disk : Disk) (recoveryId id : String) (f : RecordDir → RecordDir) :
    (disk.change recoveryId f).manifestOf id =
      if recoveryId = id then disk[id]?.bind fun dir => (f dir).manifest
      else disk.manifestOf id := by
  unfold manifestOf
  rw [lookup_change]
  split
  · rw [Option.bind_map]
    rfl
  · rfl

theorem blobOf_change (disk : Disk) (recoveryId id name : String) (f : RecordDir → RecordDir) :
    (disk.change recoveryId f).blobOf id name =
      if recoveryId = id then disk[id]?.bind fun dir => (f dir).files[name]?
      else disk.blobOf id name := by
  unfold blobOf
  rw [lookup_change]
  split
  · rw [Option.bind_map]
    rfl
  · rfl

end Disk

/-- What the store is told from outside it: the digests, the canonical form of an identifier, the
identity of a file, and its limits. -/
structure Backend where
  sha256 : List UInt8 → Vector UInt8 32
  /-- An identifier that is parsed, and written again. -/
  canonicalUuid : String → Option String
  /-- The resource of a canonical path. -/
  fileResourceId : String → String
  limits : FileResourceLimits
  storeLimits : FileRecoveryStoreLimits
  /-- The system's text for a file that does not exist. -/
  notFound : String

open List

variable (backend : Backend)

/-! ### Blob names -/

/-- A byte in lower case hexadecimal. -/
def hexByte (byte : UInt8) : List Char :=
  [hexDigit (byte.toNat / 16), hexDigit (byte.toNat % 16)]

def hexDigest (bytes : List UInt8) : String :=
  String.ofList ((backend.sha256 bytes).toList.flatMap hexByte)

def contentHash (text : String) : String := "sha256:" ++ hexDigest backend (bytesOf text)

def recoveryBlobName (text : String) : String :=
  "sha256-" ++ hexDigest backend (bytesOf text) ++ ".txt"

def isAsciiHexdigit (c : Char) : Bool :=
  Text.isAsciiDigit c || ('a' ≤ c && c ≤ 'f') || ('A' ≤ c && c ≤ 'F')

def isRecoveryBlobName (blobName : String) : Bool :=
  "sha256-".toList.isPrefixOf blobName.toList &&
    ".txt".toList.isSuffixOf blobName.toList &&
    blobName.utf8ByteSize == 7 + 64 + 4 &&
    ((blobName.toList.drop 7).take (blobName.toList.length - 11)).all isAsciiHexdigit

theorem isAsciiHexdigit_hexDigit {n : Nat} (h : n < 16) : isAsciiHexdigit (hexDigit n) = true := by
  have hall : ∀ n < 16, isAsciiHexdigit (hexDigit n) = true := by decide
  exact hall n h

theorem mem_hexByte {byte : UInt8} {c : Char} (h : c ∈ hexByte byte) : ∃ n < 16, c = hexDigit n := by
  have hbyte : byte.toNat < 256 := byte.toNat_lt
  unfold hexByte at h
  rcases mem_cons.1 h with rfl | h
  · exact ⟨byte.toNat / 16, by omega, rfl⟩
  · obtain rfl := mem_singleton.1 h
    exact ⟨byte.toNat % 16, by omega, rfl⟩

theorem length_flatMap_hexByte (bytes : List UInt8) : (bytes.flatMap hexByte).length = 2 * bytes.length := by
  induction bytes with
  | nil => rfl
  | cons byte bytes ih =>
    rw [flatMap_cons, length_append, ih, length_cons]
    unfold hexByte
    simp only [length_cons, length_nil]
    omega

theorem byteSize_flatMap_hexByte (bytes : List UInt8) :
    byteSize (bytes.flatMap hexByte) = 2 * bytes.length := by
  induction bytes with
  | nil => rfl
  | cons byte bytes ih =>
    have hbyte : byte.toNat < 256 := byte.toNat_lt
    have hone : byteSize (hexByte byte) = 2 := by
      unfold hexByte
      rw [byteSize_cons, byteSize_cons, byteSize_nil,
        utf8Size_hexDigit (by omega), utf8Size_hexDigit (by omega)]
    rw [flatMap_cons, byteSize_append, ih, hone, length_cons]
    omega

theorem isRecoveryBlobName_recoveryBlobName (text : String) :
    isRecoveryBlobName (recoveryBlobName backend text) = true := by
  have hchars : (recoveryBlobName backend text).toList =
      "sha256-".toList ++ (backend.sha256 (bytesOf text)).toList.flatMap hexByte ++
        ".txt".toList := by
    simp only [recoveryBlobName, hexDigest, String.toList_append, String.toList_ofList]
  have hlen : ((backend.sha256 (bytesOf text)).toList.flatMap hexByte).length = 64 := by
    rw [length_flatMap_hexByte, Vector.length_toList]
  unfold isRecoveryBlobName
  rw [utf8ByteSize_eq, hchars]
  simp only [Bool.and_eq_true, beq_iff_eq]
  refine ⟨⟨⟨?_, ?_⟩, ?_⟩, ?_⟩
  · rw [append_assoc]
    exact isPrefixOf_iff_prefix.2 (prefix_append _ _)
  · exact isSuffixOf_iff_suffix.2 (suffix_append _ _)
  · rw [byteSize_append, byteSize_append, byteSize_flatMap_hexByte,
      Vector.length_toList]
    rfl
  · have hdrop : (("sha256-".toList ++ (backend.sha256 (bytesOf text)).toList.flatMap hexByte ++
        ".txt".toList).drop 7) =
        (backend.sha256 (bytesOf text)).toList.flatMap hexByte ++ ".txt".toList := by
      rw [append_assoc]
      rfl
    rw [hdrop, length_append, length_append, hlen,
      take_append_of_le_length (by rw [hlen]; decide), all_eq_true]
    intro c hc
    obtain ⟨byte, -, hbyte⟩ := mem_flatMap.1 (mem_of_mem_take hc)
    obtain ⟨n, hn, rfl⟩ := mem_hexByte hbyte
    exact isAsciiHexdigit_hexDigit hn

/-! ### Steps -/

/-- Where the process stopped. -/
inductive CrashPoint
  /-- Between two steps, or at a step that it left undone or done. -/
  | between
  /-- With a part of a blob under the name of the blob. -/
  | inBlobWrite
  /-- With a part of the directory of a committed record removed. -/
  | inRemoval
deriving DecidableEq

/-- A crash that is to come: after how many steps on the files, how many bytes of a blob it leaves if
the step writes one, and what it leaves of a directory or of a list of files if the step removes
them. -/
structure Crash where
  after : Nat
  written : Option Nat
  kept : Option (Bool × List String)

/-- Why a call stopped. -/
inductive Stop
  | failed (failure : FileResourceErrorV1)
  | crashed (point : CrashPoint)

structure World where
  disk : Disk
  crash : Option Crash

abbrev RecoveryM (α : Type) : Type := Prog World Stop α

def fail {α : Type} (failure : FileResourceErrorV1) : RecoveryM α := Prog.fail (.failed failure)

/-- A check that reads only what it is given. -/
def check {α : Type} (result : Except FileResourceErrorV1 α) : RecoveryM α :=
  Prog.ofExcept (match result with
    | .ok a => .ok a
    | .error failure => .error (.failed failure))

def readDisk : RecoveryM Disk := fun world => (.ok world.disk, world)

/-- A step on the files: done as a whole, or cut by the crash. -/
def fsStep (whole : Disk → Disk) (cut : Crash → Disk → CrashPoint × Disk) : RecoveryM Unit :=
  fun world =>
    match world.crash with
    | none => (.ok (), { world with disk := whole world.disk })
    | some crash =>
      match crash.after with
      | 0 => (.error (.crashed (cut crash world.disk).1),
          { world with disk := (cut crash world.disk).2 })
      | after + 1 => (.ok (),
          { disk := whole world.disk, crash := some { crash with after := after } })

/-- A step that a crash leaves undone or done. -/
def atomicStep (whole : Disk → Disk) : RecoveryM Unit :=
  fsStep whole fun _ disk => (.between, disk)

variable {whole : Disk → Disk} {world : World} {Q : Unit → World → Prop} {R : Stop → World → Prop}

/-- What a step leaves, whole or cut; it is cut by a crash that was to come. -/
theorem wp_fsStep {cut : Crash → Disk → CrashPoint × Disk}
    (hwhl : ∀ crash, (world.crash = none → crash = none) →
      Q () { disk := whole world.disk, crash := crash })
    (hcut : ∀ crash, world.crash = some crash →
      R (.crashed (cut crash world.disk).1) { world with disk := (cut crash world.disk).2 }) :
    Prog.Wp (fsStep whole cut) Q R world := by
  unfold Prog.Wp fsStep
  obtain ⟨disk, crash⟩ := world
  cases crash with
  | none => exact hwhl none fun h => h
  | some crash =>
    obtain ⟨after, written, kept⟩ := crash
    cases after with
    | zero => exact hcut _ rfl
    | succ after => exact hwhl _ fun h => by cases h

theorem wp_atomicStep
    (hwhl : ∀ crash, (world.crash = none → crash = none) →
      Q () { disk := whole world.disk, crash := crash })
    (hcut : world.crash ≠ none → R (.crashed .between) world) : Prog.Wp (atomicStep whole) Q R world :=
  wp_fsStep hwhl fun _ hcrs => hcut (by rw [hcrs]; simp)

theorem wp_check {α : Type} {result : Except FileResourceErrorV1 α} {Q : α → World → Prop}
    (hok : ∀ a, result = .ok a → Q a world)
    (herr : ∀ failure, result = .error failure → R (.failed failure) world) :
    Prog.Wp (check result) Q R world := by
  unfold check Prog.Wp Prog.ofExcept
  cases result with
  | ok a => exact hok a rfl
  | error failure => exact herr failure rfl

@[simp] theorem wp_readDisk {Q : Disk → World → Prop} :
    Prog.Wp readDisk Q R world ↔ Q world.disk world := Iff.rfl

end Wardian.Recovery
