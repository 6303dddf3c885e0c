/-
The two slots of a workbench: the primary file and its last-known-good backup.

A slot is classified by reading its bytes strictly: a repeated key or a negative zero makes it
invalid, and so does everything that the document type or its validation refuses; a newer schema
version makes the home read-only.  The two classifications resolve to the durable document.

Persisting stages the new bytes, copies a valid primary to the backup, and then replaces the
primary.  Every one of these steps may fail, which leaves what was done before it.

Main results:

* `Workbench.wp_resolveState`, `Workbench.wp_persistBytes` — what reading and writing do.
-/

import Wardian.Lib.Prog
import Wardian.Workbench.Document

set_option autoImplicit false

namespace Wardian.Workbench

open Prog (Wp wp_bind wp_get wp_ite wp_modify wp_ofExcept_of)

/-! ### Strict reading -/

/-- What follows the closing quote of a string, from the byte after its opening quote. -/
def skipString : Bytes → Bytes
  | [] => []
  | [_] => []
  | byte :: next :: rest =>
    if byte = 92 then skipString rest
    else if byte = 34 then next :: rest
    else skipString (next :: rest)

def isAsciiDigit (byte : UInt8) : Bool := decide (48 ≤ byte ∧ byte ≤ 57)

/-- Skip digits; whether one of them was not zero, and what follows. -/
def skipDigits : Bytes → Bool × Bytes
  | [] => (false, [])
  | byte :: rest =>
    if isAsciiDigit byte then
      let (nonzero, after) := skipDigits rest
      (byte != 48 || nonzero, after)
    else (false, byte :: rest)

/-- Skip the digits before and after the point. -/
def skipSignificand (bytes : Bytes) : Bool × Bytes :=
  match skipDigits bytes with
  | (nonzero, 46 :: rest) =>
    let (nonzero', after) := skipDigits rest
    (nonzero || nonzero', after)
  | (nonzero, after) => (nonzero, after)

/-- Skip an exponent, if there is one. -/
def skipExponent : Bytes → Bytes
  | 101 :: rest | 69 :: rest =>
    match rest with
    | 43 :: digits | 45 :: digits => (skipDigits digits).2
    | digits => (skipDigits digits).2
  | bytes => bytes

/-- One round of the scan for each unit of fuel; every round moves forward. -/
def containsNegativeZeroLexemeFrom : Nat → Bytes → Bool
  | 0, _ => false
  | _ + 1, [] => false
  | fuel + 1, byte :: rest =>
    if byte = 34 then containsNegativeZeroLexemeFrom fuel (skipString rest)
    else
      let negative := byte == 45
      if isAsciiDigit byte || (negative && (rest.head?.any isAsciiDigit)) then
        let (nonzero, after) := skipSignificand (if negative then rest else byte :: rest)
        if negative && !nonzero then true
        else containsNegativeZeroLexemeFrom fuel (skipExponent after)
      else containsNegativeZeroLexemeFrom fuel rest

def containsNegativeZeroLexeme (bytes : Bytes) : Bool :=
  containsNegativeZeroLexemeFrom bytes.length bytes

mutual

/-- The visitor of the strict reading: no negative zero, and no key twice in an object. -/
def strictJson : Value → Bool
  | .null | .bool _ | .string _ => true
  | .number number => !isNegativeZero number
  | .array values => strictJsonList values
  | .object members => decide (members.map Prod.fst).Nodup && strictJsonMembers members

def strictJsonList : List Value → Bool
  | [] => true
  | value :: values => strictJson value && strictJsonList values

def strictJsonMembers : List (String × Value) → Bool
  | [] => true
  | (_, value) :: members => strictJson value && strictJsonMembers members

end

variable (serde : SerdeJson) (tokenFor : Bytes → String)

def strictJsonPreflight (bytes : Bytes) : Bool :=
  match serde.parse bytes with
  | none => false
  | some value => strictJson value && !containsNegativeZeroLexeme bytes

/-! ### Classifying a slot -/

inductive SlotState
  | missing
  | invalid
  | futureSchema
  | valid (document : WorkbenchDocumentV1) (bytes : Bytes) (token : String)
deriving DecidableEq

/-- The classification of a file's bytes.  Behind the strict reading no key is repeated, so the
members of the text are those of the value. -/
def classifyBytes (bytes : Bytes) : SlotState :=
  if !strictJsonPreflight serde bytes then .invalid
  else
    match serde.parse bytes with
    | none => .invalid
    | some value =>
      match (value.get? "schema_version").bind Value.asU64 with
      | none => .invalid
      | some schemaVersion =>
        if workbenchSchemaVersion < schemaVersion then .futureSchema
        else if maxWorkbenchDocumentBytes < bytes.length then .invalid
        else if schemaVersion ≠ workbenchSchemaVersion then .invalid
        else
          match serde.fromValue value with
          | none => .invalid
          | some document =>
            if document.validate serde ≠ [] then .invalid
            else .valid document bytes (tokenFor bytes)

def classifySlot : Option Bytes → SlotState
  | none => .missing
  | some bytes => classifyBytes serde tokenFor bytes

/-! ### What the slots resolve to -/

inductive WorkbenchLoadSource
  | primary
  | backup
  | default
  | futureSchema
deriving DecidableEq

inductive ResolvedState
  | futureSchema (notice : String)
  | v1 (source : WorkbenchLoadSource) (document : WorkbenchDocumentV1) (token : String)
      (notice : Option String) (validPrimaryBytes : Option Bytes)

/-- The errors of the workbench; those of the file system are told apart by whether the write had
begun. -/
inductive WorkbenchIoError
  | invalidDocument (errors : List WorkbenchValidationError)
  | io (text : String)
  | persistIo (text : String)

def futurePrimaryNotice : String :=
  "This workbench was written by a newer Wardian version and is read-only."

def futureBackupNotice : String :=
  "The workbench backup was written by a newer Wardian version and is read-only."

/-- The deterministic default, and why it is opened. -/
def resolveDefault (primary backup : SlotState) : Except WorkbenchIoError ResolvedState :=
  match defaultDocument.validate serde with
  | [] =>
    .ok (.v1 .default defaultDocument (tokenFor (serde.toVec defaultDocument))
      (if primary = .invalid then
        some "Wardian could not restore the saved workbench and opened a default."
      else if backup = .invalid then
        some "Wardian could not restore the workbench backup and opened a default."
      else none)
      none)
  | errors => .error (.invalidDocument errors)

/-- The durable document of a home, from the classifications of its primary and its backup. -/
def resolveSlots (primary backup : SlotState) : Except WorkbenchIoError ResolvedState :=
  match primary with
  | .futureSchema => .ok (.futureSchema futurePrimaryNotice)
  | .valid document bytes token =>
    match backup with
    | .futureSchema => .ok (.futureSchema futureBackupNotice)
    | _ => .ok (.v1 .primary document token none (some bytes))
  | .missing | .invalid =>
    match backup with
    | .futureSchema => .ok (.futureSchema futureBackupNotice)
    | .valid document _ token =>
      .ok (.v1 .backup document token
        (some "Wardian recovered the workbench from its last-known-good backup.") none)
    | .missing | .invalid => resolveDefault serde tokenFor primary backup

/-! ### A home and its file system -/

/-- The primary and the backup; either may be missing. -/
structure Slots where
  primary : Option Bytes
  backup : Option Bytes

/-- How the file system treats one request: the errors of its steps, if any.  A replacement may
fail before or, when the directory is synchronised, after the new file is in place. -/
structure Access where
  cleanupError : Option String
  primaryReadError : Option String
  backupReadError : Option String
  retryReadError : Option String
  stagePrimaryError : Option String
  stageBackupError : Option String
  replaceBackupError : Option String
  syncBackupError : Option String
  replacePrimaryError : Option String
  syncPrimaryError : Option String

/-- Nothing fails. -/
def Access.fine : Access := ⟨none, none, none, none, none, none, none, none, none, none⟩

/-- What the two slots resolve to when they can be read. -/
def Slots.resolve (slots : Slots) : Except WorkbenchIoError ResolvedState :=
  resolveSlots serde tokenFor (classifySlot serde tokenFor slots.primary)
    (classifySlot serde tokenFor slots.backup)

/-- A program over the slots of one home. -/
abbrev SlotM (α : Type) : Type := Prog Slots WorkbenchIoError α

/-- Stop with an error of the file system, if there is one. -/
def failIo (error : Option String) : SlotM Unit :=
  match error with
  | some text => Prog.fail (.io text)
  | none => return

/-- Stop with an error of the write, if there is one. -/
def failPersist (error : Option String) : SlotM Unit :=
  match error with
  | some text => Prog.fail (.persistIo text)
  | none => return

/-- Read the slots; the backup is not read behind a primary of a newer schema. -/
def resolveState (io : Access) : SlotM ResolvedState := do
  failIo io.cleanupError
  failIo io.primaryReadError
  let slots ← Prog.get
  if classifySlot serde tokenFor slots.primary = .futureSchema then
    Prog.ofExcept (slots.resolve serde tokenFor)
  else do
    failIo io.backupReadError
    Prog.ofExcept (slots.resolve serde tokenFor)

def ResolvedState.validPrimaryBytes : ResolvedState → Option Bytes
  | .futureSchema _ => none
  | .v1 _ _ _ _ validPrimaryBytes => validPrimaryBytes

/-- Copy the valid primary, if there is one, to the backup. -/
def copyToBackup (io : Access) (currentPrimary : Option Bytes) : SlotM Unit :=
  match currentPrimary with
  | none => return
  | some bytes => do
      failPersist io.stageBackupError
      failPersist io.replaceBackupError
      Prog.modify fun slots => { slots with backup := some bytes }
      failPersist io.syncBackupError

def persistBytes (io : Access) (resolved : ResolvedState) (incomingBytes : Bytes) :
    SlotM Unit := do
  failPersist io.stagePrimaryError
  copyToBackup io resolved.validPrimaryBytes
  failPersist io.replacePrimaryError
  Prog.modify fun slots => { slots with primary := some incomingBytes }
  failPersist io.syncPrimaryError

/-! ### What reading and writing do -/

variable {serde tokenFor} {io : Access} {slots : Slots}

variable {error : Option String} {Q : Unit → Slots → Prop} {R : WorkbenchIoError → Slots → Prop}

theorem wp_failIo (hok : Q () slots) (herr : ∀ text, R (.io text) slots) :
    Wp (failIo error) Q R slots := by
  unfold failIo
  cases error with
  | none => exact hok
  | some text => exact herr text

theorem wp_failPersist (hok : Q () slots) (herr : ∀ text, R (.persistIo text) slots) :
    Wp (failPersist error) Q R slots := by
  unfold failPersist
  cases error with
  | none => exact hok
  | some text => exact herr text

theorem resolveSlots_error {primary backup : SlotState} {e : WorkbenchIoError}
    (h : resolveSlots serde tokenFor primary backup = .error e) : ∃ errors, e = .invalidDocument errors := by
  unfold resolveSlots resolveDefault at h
  split at h
  · cases h
  · split at h <;> cases h
  all_goals
    split at h
    · cases h
    · cases h
    all_goals
      split at h
      · cases h
      · exact ⟨_, (Except.error.inj h).symm⟩

/-- Reading returns what the slots resolve to, or fails before the write; it changes nothing. -/
theorem wp_resolveState {Q : ResolvedState → Slots → Prop}
    (hok : ∀ resolved, slots.resolve serde tokenFor = .ok resolved → Q resolved slots)
    (herr : ∀ e, (∀ text, e ≠ .persistIo text) → R e slots) :
    Wp (resolveState serde tokenFor io) Q R slots := by
  have hresv : Wp (Prog.ofExcept (slots.resolve serde tokenFor)) Q R slots := by
    refine wp_ofExcept_of hok fun e he => ?_
    obtain ⟨errors, rfl⟩ := resolveSlots_error he
    exact herr _ fun _ => nofun
  have hio : ∀ text, R (.io text) slots := fun text => herr _ fun _ => nofun
  unfold resolveState
  rw [wp_bind]
  refine wp_failIo ?_ hio
  rw [wp_bind]
  refine wp_failIo ?_ hio
  rw [wp_bind, wp_get]
  refine wp_ite (fun _ => hresv) fun _ => ?_
  rw [wp_bind]
  exact wp_failIo hresv hio

/-- The slots once a valid primary is copied to the backup. -/
def Slots.copied (slots : Slots) (currentPrimary : Option Bytes) : Slots :=
  { slots with backup := currentPrimary.or slots.backup }

/-- The write ends with the new primary and the old one in the backup; when it fails, the slots are
as they were, or have the backup written, or have both written. -/
theorem wp_persistBytes {resolved : ResolvedState} {incomingBytes : Bytes}
    (hok : Q () { slots.copied resolved.validPrimaryBytes with primary := some incomingBytes })
    (hsame : ∀ text, R (.persistIo text) slots)
    (hcpd : ∀ text, R (.persistIo text) (slots.copied resolved.validPrimaryBytes))
    (hboth : ∀ text, R (.persistIo text)
      { slots.copied resolved.validPrimaryBytes with primary := some incomingBytes }) :
    Wp (persistBytes io resolved incomingBytes) Q R slots := by
  unfold persistBytes
  rw [wp_bind]
  refine wp_failPersist ?_ hsame
  -- Behind the copy the slots are `slots.copied _`, whether or not there was a primary to copy.
  have hrepc : Wp (do
      failPersist io.replacePrimaryError
      Prog.modify fun slots => { slots with primary := some incomingBytes }
      failPersist io.syncPrimaryError) Q R (slots.copied resolved.validPrimaryBytes) := by
    rw [wp_bind]
    refine wp_failPersist ?_ hcpd
    rw [wp_bind, wp_modify]
    exact wp_failPersist hok hboth
  rw [wp_bind]
  unfold copyToBackup
  cases hcur : resolved.validPrimaryBytes with
  | none =>
    rw [hcur] at hrepc
    exact hrepc
  | some bytes =>
    rw [hcur] at hrepc hcpd
    dsimp only
    rw [wp_bind]
    refine wp_failPersist ?_ hsame
    rw [wp_bind]
    refine wp_failPersist ?_ hsame
    rw [wp_bind, wp_modify]
    exact wp_failPersist hrepc hcpd

end Wardian.Workbench
