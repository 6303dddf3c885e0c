/-
Reading a provider's log forward.

The log is only appended to.  What was read of it ends at a cursor, which is kept with a hash of the
bytes before it, with what the lines read so far leave behind, and with the spans of the log that
were written while logging was disabled.  One call reads the complete records of one window at the
cursor, up to where a disabled span begins, or it passes the disabled span that the cursor stands
in.  Another call notes the length of the log when logging is disabled or enabled.
-/

import Wardian.Lib.Lines
import Wardian.Lib.Utf8
import Wardian.ProviderLog.Transcript

set_option autoImplicit false

namespace Wardian.ProviderLog

/-! ### What is kept -/

def providerLogBatchBytes : Nat := 256 * 1024
def providerLogMaxRecordBytes : Nat := 16 * 1024 * 1024
def providerLogAnchorBytes : Nat := 4 * 1024
def maxProviderLogPolicySpans : Nat := 256

structure ProviderLogNativeIdentity where
  platform : String
  primary : Nat
  secondary : Nat
  deriving DecidableEq

structure ProviderLogContinuityAnchor where
  start : Nat
  len : Nat
  sha256 : String

/-- From `start` on, and before `stop`. -/
structure ProviderLogDisabledSpan where
  start : Nat
  stop : Nat

structure ProviderLogCaptureState where
  providerSourceKey : String
  path : String
  nativeIdentity : ProviderLogNativeIdentity
  committedOffset : Nat
  continuityAnchor : ProviderLogContinuityAnchor
  normalizer : TranscriptNormalizationState
  status : String
  reason : Option String
  unknownBeforeOffset : Option Nat
  policyGeneration : Nat
  disabledSpans : List ProviderLogDisabledSpan
  openDisabledFrom : Option Nat

structure ProviderLogBatch where
  events : List AgentChatEvent
  previous : Option ProviderLogCaptureState
  next : ProviderLogCaptureState
  consumedBytes : Nat
  continueImmediately : Bool

/-- The log as a call finds it. -/
structure ProviderLogFile where
  path : String
  nativeIdentity : ProviderLogNativeIdentity
  bytes : List UInt8

def isNewline (byte : UInt8) : Bool := byte == 10

/-- A batch without events that moves nothing. -/
def stillBatch (previous : Option ProviderLogCaptureState) (next : ProviderLogCaptureState) :
    ProviderLogBatch :=
  ⟨[], previous, next, 0, false⟩

def ProviderLogCaptureState.report (state : ProviderLogCaptureState) (status : String)
    (reason : Option String) : ProviderLogCaptureState :=
  { state with status := status, reason := reason }

def incompleteBatch (previous : Option ProviderLogCaptureState) (state : ProviderLogCaptureState)
    (reason : String) : ProviderLogBatch :=
  stillBatch previous (state.report "incomplete" (some reason))

/-! ### Continuity -/

def readAnchor (env : Env) (bytes : List UInt8) (offset : Nat) :
    Except String ProviderLogContinuityAnchor :=
  let start := offset - providerLogAnchorBytes
  let len := offset - start
  let overlap := (bytes.drop start).take len
  if overlap.length ≠ len then .error "provider log ended while reading continuity anchor"
  else .ok ⟨start, len, env.hexSha256 overlap⟩

def anchorMatches (env : Env) (bytes : List UInt8) (expected : ProviderLogContinuityAnchor) : Bool :=
  let overlap := (bytes.drop expected.start).take expected.len
  overlap.length = expected.len && env.hexSha256 overlap = expected.sha256

/-- Why the log is not the one that the state was kept for. -/
def continuityFailure (env : Env) (file : ProviderLogFile) (providerSourceKey : String)
    (state : ProviderLogCaptureState) : Option String :=
  if state.providerSourceKey ≠ providerSourceKey ∨ state.path ≠ file.path ∨
      state.nativeIdentity ≠ file.nativeIdentity then
    some "provider_log_source_replaced"
  else if file.bytes.length < state.committedOffset then some "provider_log_truncated"
  else if !anchorMatches env file.bytes state.continuityAnchor then
    some "provider_log_continuity_mismatch"
  else none

def ensureObservedIdentity (expected : Option ProviderLogNativeIdentity)
    (actual : ProviderLogNativeIdentity) : Except String Unit :=
  if expected.any (· ≠ actual) then .error "provider_log_source_replaced" else .ok ()

/-! ### The spans around the cursor -/

def disabledEndAtCursor (state : ProviderLogCaptureState) (fileLen : Nat) : Option Nat :=
  ((state.disabledSpans.find? fun span =>
      span.start ≤ state.committedOffset && state.committedOffset < span.stop).map (·.stop)).or
    ((state.openDisabledFrom.filter (· ≤ state.committedOffset)).map fun _ => fileLen)

def zeroLengthPolicyBoundaryAtCursor (state : ProviderLogCaptureState) : Bool :=
  state.disabledSpans.any fun span =>
    span.start = state.committedOffset && span.stop = state.committedOffset

def nextDisabledStart (state : ProviderLogCaptureState) (fileLen : Nat) : Option Nat :=
  ((((state.disabledSpans.filter (state.committedOffset < ·.stop)).map (·.start)) ++
    state.openDisabledFrom.toList).filter fun start =>
      state.committedOffset ≤ start && start ≤ fileLen).min?

/-! ### The records of a window -/

/-- How a window was read: the bytes, and how many of them are complete records. -/
inductive RecordRead
  | complete (bytes : List UInt8) (completeLen : Nat)
  | stopped (status reason : String)

/-- How far the last newline reaches. -/
def lastNewline (bytes : List UInt8) : Option Nat :=
  (bytes.reverse.findIdx? isNewline).map (bytes.length - ·)

/-- A record that the window does not hold is read on until its newline. -/
def extendRecord (available : List UInt8) (remaining bufferedLen : Nat) : RecordRead :=
  if providerLogMaxRecordBytes ≤ bufferedLen then
    .stopped "incomplete" "provider_log_record_exceeds_record_limit"
  else if remaining ≤ bufferedLen then .stopped "pending" "provider_log_partial_record"
  else
    let readLen := min (min (remaining - bufferedLen) providerLogBatchBytes)
      (providerLogMaxRecordBytes - bufferedLen)
    let chunk := (available.drop bufferedLen).take readLen
    if _hempty : chunk = [] then .stopped "incomplete" "provider_log_unexpected_eof"
    else
      match chunk.findIdx? isNewline with
      | some index => .complete (available.take (bufferedLen + index + 1)) (bufferedLen + index + 1)
      | none => extendRecord available remaining (bufferedLen + chunk.length)
termination_by remaining - bufferedLen
decreasing_by
  have hchunk : 0 < chunk.length := List.length_pos_iff.2 _hempty
  show remaining - (bufferedLen + chunk.length) < remaining - bufferedLen
  omega

/-- Where reading stops: before the next disabled span. -/
def readableEnd (state : ProviderLogCaptureState) (fileLen : Nat) : Nat :=
  min ((nextDisabledStart state fileLen).getD fileLen) fileLen

def readRecords (file : List UInt8) (state : ProviderLogCaptureState) : RecordRead :=
  let remaining := readableEnd state file.length - state.committedOffset
  let available := file.drop state.committedOffset
  let window := available.take (min remaining providerLogBatchBytes)
  match lastNewline window with
  | some completeLen => .complete window completeLen
  | none => extendRecord available remaining window.length

/-- The first line, counted from zero, that is not a JSON value. -/
def invalidJsonLine (env : Env) (lines : List String) : Option (Nat × String) :=
  (lines.zipIdx.filter fun line => !Text.isBlank line.1).findSome? fun line =>
    match env.parseJson line.1 with
    | .error error => some (line.2, error)
    | .ok _ => none

/-- The lines of complete records, each of which has to be a JSON value. -/
def parseRecords (env : Env) (complete : List UInt8) : Except String (List String) :=
  match Utf8.decode? complete with
  | none => .error s!"provider_log_invalid_utf8: {env.utf8Error complete}"
  | some text =>
    let lines := (Lines.lines text).map String.ofList
    match invalidJsonLine env lines with
    | some (lineIndex, error) =>
      .error s!"provider_log_invalid_json_line_{lineIndex + 1}: {error}"
    | none => .ok lines

/-! ### The calls -/

/-- The lines of the window are normalized, and the cursor moves behind them. -/
def commitRecords (env : Env) (sessionId provider : String) (file : List UInt8)
    (previous : Option ProviderLogCaptureState) (state : ProviderLogCaptureState)
    (bytes : List UInt8) (completeLen : Nat) : Except String ProviderLogBatch :=
  match parseRecords env (bytes.take completeLen) with
  | .error reason => .ok (incompleteBatch previous state reason)
  | .ok lines =>
    match normalizeChatLinesWithState env sessionId provider lines state.normalizer false true with
    | .error error => .ok (incompleteBatch previous state
        s!"provider_log_normalization_state_limit: {error}")
    | .ok (events, nextNormalizer) => do
        let remaining := readableEnd state file.length - state.committedOffset
        let committedOffset := state.committedOffset + completeLen
        let continuityAnchor ← readAnchor env file committedOffset
        let moreFileBytes := decide (committedOffset < file.length)
        let batchLimitReached := moreFileBytes &&
          ((bytes.drop completeLen).any isNewline ||
            decide (providerLogBatchBytes < remaining) ||
            decide (providerLogBatchBytes < completeLen))
        let next := { state with
          committedOffset := committedOffset
          continuityAnchor := continuityAnchor
          normalizer := nextNormalizer
          status := if moreFileBytes || nextNormalizer.hasPendingEvents then "pending"
            else "complete"
          reason :=
            if batchLimitReached then some "provider_log_batch_limit"
            else if moreFileBytes then some "provider_log_partial_record"
            else if nextNormalizer.hasPendingEvents then
              some "provider_log_waiting_for_request_root"
            else none }
        return {
          events := events
          previous := previous
          next := next
          consumedBytes := completeLen
          continueImmediately := batchLimitReached ||
            (nextDisabledStart next file.length).any (· = next.committedOffset) }

/-- Nothing of what was read before is bound to what follows an empty span. -/
def ProviderLogCaptureState.resetAtBoundary (state : ProviderLogCaptureState) :
    ProviderLogCaptureState :=
  if zeroLengthPolicyBoundaryAtCursor state then { state with normalizer := .fresh } else state

/-- The cursor passes the disabled span that it stands in. -/
def skipDisabled (env : Env) (file : List UInt8) (previous : Option ProviderLogCaptureState)
    (state : ProviderLogCaptureState) (disabledEnd : Nat) : Except String ProviderLogBatch := do
  let continuityAnchor ← readAnchor env file disabledEnd
  return {
    events := []
    previous := previous
    next := { state with
      committedOffset := disabledEnd
      continuityAnchor := continuityAnchor
      normalizer := .fresh
      status := if disabledEnd < file.length then "pending" else "complete"
      reason := some "provider_log_disabled_span_skipped" }
    consumedBytes := disabledEnd - state.committedOffset
    continueImmediately := decide (disabledEnd < file.length) }

/-- There is nothing behind the cursor. -/
def idleBatch (previous : Option ProviderLogCaptureState) (state : ProviderLogCaptureState) :
    ProviderLogBatch :=
  stillBatch previous <|
    if state.normalizer.hasPendingEvents then
      state.report "pending" (some "provider_log_waiting_for_request_root")
    else if state.unknownBeforeOffset.isNone then state.report "complete" none
    else state.report "complete" state.reason

/-- The call once the state belongs to the log. -/
def acquireFrom (env : Env) (sessionId provider : String) (file : List UInt8)
    (previous : Option ProviderLogCaptureState) (state : ProviderLogCaptureState) :
    Except String ProviderLogBatch :=
  let state := state.resetAtBoundary
  match disabledEndAtCursor state file.length with
  | some disabledEnd => skipDisabled env file previous state disabledEnd
  | none =>
    if state.committedOffset = file.length then .ok (idleBatch previous state)
    else
      match readRecords file state with
      | .stopped status reason => .ok (stillBatch previous (state.report status (some reason)))
      | .complete bytes completeLen =>
        commitRecords env sessionId provider file previous state bytes completeLen

/-- What is kept of a log that was not observed before.  When it is not known whether logging was
enabled before, nothing of what is there is read. -/
def firstState (file : ProviderLogFile) (providerSourceKey : String) (committedOffset : Nat)
    (continuityAnchor : ProviderLogContinuityAnchor) (policyUnknown : Bool) (status : String) :
    ProviderLogCaptureState where
  providerSourceKey := providerSourceKey
  path := file.path
  nativeIdentity := file.nativeIdentity
  committedOffset := committedOffset
  continuityAnchor := continuityAnchor
  normalizer := .fresh
  status := status
  reason := if policyUnknown then some "provider_log_prefix_policy_unknown" else none
  unknownBeforeOffset := if policyUnknown then some file.bytes.length else none
  policyGeneration := 0
  disabledSpans := []
  openDisabledFrom := none

def acquireProviderLogBatchForIdentity (env : Env) (sessionId provider : String)
    (file : ProviderLogFile) (providerSourceKey : String)
    (previous : Option ProviderLogCaptureState) (trustSourceFromStart : Bool)
    (expectedIdentity : Option ProviderLogNativeIdentity) : Except String ProviderLogBatch := do
  ensureObservedIdentity expectedIdentity file.nativeIdentity
  match previous with
  | some state =>
    match continuityFailure env file providerSourceKey state with
    | some reason => return incompleteBatch previous state reason
    | none => acquireFrom env sessionId provider file.bytes previous state
  | none =>
    let committedOffset := if trustSourceFromStart then 0 else file.bytes.length
    let continuityAnchor ← readAnchor env file.bytes committedOffset
    acquireFrom env sessionId provider file.bytes previous
      (firstState file providerSourceKey committedOffset continuityAnchor (!trustSourceFromStart)
        (if trustSourceFromStart then "pending" else "complete"))

/-- Logging is enabled or disabled at the end of the log; `none` when there are too many spans. -/
def toggleLogging (state : ProviderLogCaptureState) (fileLen : Nat) (loggingEnabled : Bool) :
    Option ProviderLogCaptureState :=
  let policyGeneration := min (state.policyGeneration + 1) u64Max
  if loggingEnabled then
    match state.openDisabledFrom with
    | some start =>
      if maxProviderLogPolicySpans ≤ state.disabledSpans.length then none
      else some { state with
        openDisabledFrom := none
        disabledSpans := state.disabledSpans ++ [⟨start, fileLen⟩]
        policyGeneration := policyGeneration }
    | none => some state
  else if state.openDisabledFrom.isNone then
    some { state with openDisabledFrom := some fileLen, policyGeneration := policyGeneration }
  else some state

/-- The observation once the state belongs to the log. -/
def observeFrom (file : List UInt8) (previous : Option ProviderLogCaptureState)
    (state : ProviderLogCaptureState) (loggingEnabled : Bool) : ProviderLogBatch :=
  match toggleLogging state file.length loggingEnabled with
  | none => incompleteBatch previous state "provider_log_policy_span_limit"
  | some state => stillBatch previous <| state.report
      (if state.committedOffset < file.length then "pending" else "complete")
      (if loggingEnabled then
        if state.disabledSpans.isEmpty then none else some "provider_log_policy_boundary_recorded"
      else some "provider_log_logging_disabled")

def observeProviderLogPolicyForIdentity (env : Env) (file : ProviderLogFile)
    (providerSourceKey : String) (previous : Option ProviderLogCaptureState)
    (loggingEnabled trustSourceFromStart : Bool)
    (expectedIdentity : Option ProviderLogNativeIdentity) : Except String ProviderLogBatch := do
  ensureObservedIdentity expectedIdentity file.nativeIdentity
  match previous with
  | some state =>
    match continuityFailure env file providerSourceKey state with
    | some reason => return incompleteBatch previous state reason
    | none => return observeFrom file.bytes previous state loggingEnabled
  | none =>
    let prefixPolicyUnknown := !trustSourceFromStart || !loggingEnabled
    let committedOffset := if prefixPolicyUnknown then file.bytes.length else 0
    let continuityAnchor ← readAnchor env file.bytes committedOffset
    return observeFrom file.bytes previous
      (firstState file providerSourceKey committedOffset continuityAnchor prefixPolicyUnknown
        (if committedOffset < file.bytes.length then "pending" else "complete")) loggingEnabled

end Wardian.ProviderLog
