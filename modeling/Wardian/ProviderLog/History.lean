/-
The runs of a captured log.

The log is appended to; logging is disabled and enabled, which is noted with the length that the log
has then; and the log is read.  What is kept of it passes from one call to the next, and it may be
saved and restored in between.

Main results:

* `Reaches.kept` — what is kept in every run;
* `Reaches.acquisition` — the lines that were handed on are known from the log, its spans and the
  cursor.
-/

import Wardian.Lib.Results
import Wardian.ProviderLog.Cursor

set_option autoImplicit false

namespace Wardian.ProviderLog

open Option
open Lines

/-! ### Runs -/

/-- A log, what is kept of it, and the lines that were handed on. -/
structure System where
  file : ProviderLogFile
  capture : Option ProviderLogCaptureState
  lines : List String

/-- The state that a call begins with, when the log is the one that it belongs to. -/
def openedState (env : Env) (file : ProviderLogFile) (providerSourceKey : String)
    (previous : Option ProviderLogCaptureState) (trustSourceFromStart : Bool) :
    Option ProviderLogCaptureState :=
  match previous with
  | some state =>
    if (continuityFailure env file providerSourceKey state).isSome then none else some state
  | none =>
    let committedOffset := if trustSourceFromStart then 0 else file.bytes.length
    (readAnchor env file.bytes committedOffset).toOption.map fun continuityAnchor =>
      firstState file providerSourceKey committedOffset continuityAnchor (!trustSourceFromStart)
        (if trustSourceFromStart then "pending" else "complete")

/-- The lines that a call hands on for good. -/
def acquiredLines (env : Env) (sessionId provider : String) (file : ProviderLogFile)
    (providerSourceKey : String) (previous : Option ProviderLogCaptureState)
    (trustSourceFromStart : Bool) : List String :=
  (openedState env file providerSourceKey previous trustSourceFromStart).elim []
    (handedLines env sessionId provider file.bytes)

/-- Whether an observation notes the length of the log. -/
def notesLength (capture : Option ProviderLogCaptureState)
    (loggingEnabled trustSourceFromStart : Bool) : Bool :=
  match capture with
  | none => !trustSourceFromStart || !loggingEnabled
  | some state => state.openDisabledFrom.isSome == loggingEnabled

/-- One step.  `Noted` is what the log is like whenever its length is noted. -/
inductive Step (env : Env) (sessionId provider providerSourceKey : String)
    (Noted : List UInt8 → Prop) (σ : System) : System → Prop
  | grow (more : List UInt8) : Step env sessionId provider providerSourceKey Noted σ
      { σ with file := { σ.file with bytes := σ.file.bytes ++ more } }
  | acquire {trustSourceFromStart : Bool} {expectedIdentity : Option ProviderLogNativeIdentity}
      {batch : ProviderLogBatch}
      (h : acquireProviderLogBatchForIdentity env sessionId provider σ.file providerSourceKey
        σ.capture trustSourceFromStart expectedIdentity = .ok batch)
      (hntd : σ.capture = none → trustSourceFromStart = false → Noted σ.file.bytes) :
      Step env sessionId provider providerSourceKey Noted σ
        { σ with
          capture := some batch.next
          lines := σ.lines ++ acquiredLines env sessionId provider σ.file providerSourceKey
            σ.capture trustSourceFromStart }
  | observe {loggingEnabled trustSourceFromStart : Bool}
      {expectedIdentity : Option ProviderLogNativeIdentity} {batch : ProviderLogBatch}
      (h : observeProviderLogPolicyForIdentity env σ.file providerSourceKey σ.capture
        loggingEnabled trustSourceFromStart expectedIdentity = .ok batch)
      (hntd : notesLength σ.capture loggingEnabled trustSourceFromStart = true →
        Noted σ.file.bytes) :
      Step env sessionId provider providerSourceKey Noted σ { σ with capture := some batch.next }

/-- The runs of a log that was not observed before. -/
inductive Reaches (env : Env) (sessionId provider providerSourceKey : String)
    (Noted : List UInt8 → Prop) : System → Prop
  | initial (file : ProviderLogFile) :
      Reaches env sessionId provider providerSourceKey Noted ⟨file, none, []⟩
  | step {σ σ' : System} (h : Reaches env sessionId provider providerSourceKey Noted σ)
      (hstep : Step env sessionId provider providerSourceKey Noted σ σ') :
      Reaches env sessionId provider providerSourceKey Noted σ'

section Runs

variable {env : Env} {sessionId provider providerSourceKey : String} {Noted : List UInt8 → Prop}
  {file : ProviderLogFile} {lines : List String} {state : ProviderLogCaptureState}
  {places : List (Nat × Nat)} {trustSourceFromStart loggingEnabled : Bool}
  {expectedIdentity : Option ProviderLogNativeIdentity} {batch : ProviderLogBatch} {σ σ' : System}

/-! ### What a call does -/

variable {actual : ProviderLogNativeIdentity}

theorem ensureObservedIdentity_bind {α : Type} {f : Unit → Except String α} {result : α}
    (h : (ensureObservedIdentity expectedIdentity actual >>= f) = .ok result) : f () = .ok result := by
  unfold ensureObservedIdentity at h
  split at h
  · cases h
  · exact h

theorem openedState_some (h : continuityFailure env file providerSourceKey state = none) :
    openedState env file providerSourceKey (some state) trustSourceFromStart = some state := by
  unfold openedState
  dsimp only
  rw [h, isSome_none, if_neg Bool.false_ne_true]

variable {anchor : ProviderLogContinuityAnchor}

theorem openedState_none
    (h : readAnchor env file.bytes (if trustSourceFromStart then 0 else file.bytes.length) = .ok anchor) :
    openedState env file providerSourceKey none trustSourceFromStart =
      some (firstState file providerSourceKey
        (if trustSourceFromStart then 0 else file.bytes.length) anchor (!trustSourceFromStart)
        (if trustSourceFromStart then "pending" else "complete")) := by
  unfold openedState
  dsimp only
  rw [h]
  rfl

theorem Kept.acquire (h : Kept env sessionId provider providerSourceKey file lines state places)
    (hcall : acquireProviderLogBatchForIdentity env sessionId provider file providerSourceKey
      (some state) trustSourceFromStart expectedIdentity = .ok batch) :
    Outcome env sessionId provider file.bytes (some state) state.resetAtBoundary batch
      (acquiredLines env sessionId provider file providerSourceKey (some state)
        trustSourceFromStart) := by
  unfold acquireProviderLogBatchForIdentity at hcall
  have hrest := ensureObservedIdentity_bind hcall
  simp only [h.continuityFailure] at hrest
  rw [acquiredLines, openedState_some h.continuityFailure, elim_some]
  exact outcome_of_acquireFrom hrest

/-- Nothing was read of the log, and no span of it was noted. -/
structure ProviderLogCaptureState.Unmarked (state : ProviderLogCaptureState) (offset : Nat) :
    Prop where
  cursor : state.committedOffset = offset
  baseline : state.baseline = offset
  spans : state.disabledSpans = []
  opened : state.openDisabledFrom = none

theorem unmarked_firstState {offset : Nat} {policyUnknown : Bool} {status : String}
    (hoffset : offset = if policyUnknown then file.bytes.length else 0) :
    (firstState file providerSourceKey offset anchor policyUnknown status).Unmarked offset := by
  refine ⟨rfl, ?_, rfl, rfl⟩
  rw [hoffset]
  cases policyUnknown
  · rfl
  · rfl

theorem acquire_first (hcall : acquireProviderLogBatchForIdentity env sessionId provider file
    providerSourceKey none trustSourceFromStart expectedIdentity = .ok batch) :
    ∃ state, Kept env sessionId provider providerSourceKey file [] state [] ∧
      state.Unmarked (if trustSourceFromStart then 0 else file.bytes.length) ∧
      Outcome env sessionId provider file.bytes none state.resetAtBoundary batch
        (acquiredLines env sessionId provider file providerSourceKey none trustSourceFromStart) := by
  unfold acquireProviderLogBatchForIdentity at hcall
  obtain ⟨anchor, hanc, hrest⟩ := Results.bind_eq_ok.1 (ensureObservedIdentity_bind hcall)
  rw [acquiredLines, openedState_none hanc, elim_some]
  have hoffset : (if trustSourceFromStart then 0 else file.bytes.length) =
      if !trustSourceFromStart then file.bytes.length else 0 := by
    cases trustSourceFromStart
    · rfl
    · rfl
  exact ⟨_, kept_firstState hoffset hanc, unmarked_firstState hoffset,
    outcome_of_acquireFrom hrest⟩

theorem observe_first (hcall : observeProviderLogPolicyForIdentity env file providerSourceKey none
    loggingEnabled trustSourceFromStart expectedIdentity = .ok batch) :
    ∃ state, Kept env sessionId provider providerSourceKey file [] state [] ∧
      state.Unmarked (if !trustSourceFromStart || !loggingEnabled then file.bytes.length else 0) ∧
      batch = observeFrom file.bytes none state loggingEnabled := by
  unfold observeProviderLogPolicyForIdentity at hcall
  obtain ⟨anchor, hanc, hrest⟩ := Results.bind_eq_ok.1 (ensureObservedIdentity_bind hcall)
  exact ⟨_, kept_firstState rfl hanc, unmarked_firstState rfl, (Except.ok.inj hrest).symm⟩

theorem Kept.observe_eq (h : Kept env sessionId provider providerSourceKey file lines state places)
    (hcall : observeProviderLogPolicyForIdentity env file providerSourceKey (some state)
      loggingEnabled trustSourceFromStart expectedIdentity = .ok batch) :
    batch = observeFrom file.bytes (some state) state loggingEnabled := by
  unfold observeProviderLogPolicyForIdentity at hcall
  have hrest := ensureObservedIdentity_bind hcall
  simp only [h.continuityFailure] at hrest
  exact (Except.ok.inj hrest).symm

theorem Kept.observe (h : Kept env sessionId provider providerSourceKey file lines state places)
    {previous : Option ProviderLogCaptureState} :
    Kept env sessionId provider providerSourceKey file lines
        (observeFrom file.bytes previous state loggingEnabled).next places ∧
      (observeFrom file.bytes previous state loggingEnabled).next.committedOffset =
        state.committedOffset := by
  unfold observeFrom
  cases htog : toggleLogging state file.bytes.length loggingEnabled with
  | none => exact ⟨h.report _ _, rfl⟩
  | some next =>
    obtain ⟨hkept, hcurs⟩ := h.toggle htog
    exact ⟨hkept.report _ _, hcurs⟩

theorem Reaches.kept (h : Reaches env sessionId provider providerSourceKey Noted σ) :
    (σ.capture = none → σ.lines = []) ∧ ∀ state ∈ σ.capture,
      ∃ places, Kept env sessionId provider providerSourceKey σ.file σ.lines state places := by
  induction h with
  | initial file => exact ⟨fun _ => rfl, nofun⟩
  | @step σ σ' _ hstep ih =>
    obtain ⟨hnone, hsome⟩ := ih
    cases hstep with
    | grow more =>
      refine ⟨hnone, fun state hst => ?_⟩
      obtain ⟨places, hkept⟩ := hsome state hst
      exact ⟨places, hkept.grow more⟩
    | acquire hcall _ =>
      refine ⟨nofun, ?_⟩
      rintro _ ⟨⟩
      cases hcapt : σ.capture with
      | none =>
        rw [hcapt] at hcall
        obtain ⟨state, hkept, -, hout⟩ := acquire_first hcall
        rw [hnone hcapt]
        exact (hkept.reset.1.outcome hkept.reset.2 hout).1
      | some state =>
        rw [hcapt] at hcall
        obtain ⟨places, hkept⟩ := hsome state hcapt
        exact (hkept.reset.1.outcome hkept.reset.2 (hkept.acquire hcall)).1
    | observe hcall _ =>
      refine ⟨nofun, ?_⟩
      rintro _ ⟨⟩
      cases hcapt : σ.capture with
      | none =>
        rw [hcapt] at hcall
        rw [hnone hcapt]
        obtain ⟨state, hkept, -, rfl⟩ := observe_first hcall
        exact ⟨[], hkept.observe.1⟩
      | some state =>
        rw [hcapt] at hcall
        obtain ⟨places, hkept⟩ := hsome state hcapt
        rw [hkept.observe_eq hcall]
        exact ⟨places, hkept.observe.1⟩

/-! ### Runs that go on -/

theorem ensureObservedIdentity_ok (h : ∀ identity ∈ expectedIdentity, identity = actual) :
    ensureObservedIdentity expectedIdentity actual = .ok () := by
  unfold ensureObservedIdentity
  rw [if_neg]
  rw [any_eq_true]
  rintro ⟨identity, hmem, hne⟩
  exact of_decide_eq_true hne (h identity hmem)

theorem ensureObservedIdentity_none : ensureObservedIdentity none actual = .ok () :=
  rfl

variable {previous : Option ProviderLogCaptureState}

/-- A call is `acquireFrom` from the state that it begins with. -/
theorem acquire_eq (hidn : ∀ identity ∈ expectedIdentity, identity = file.nativeIdentity)
    (hopnd : openedState env file providerSourceKey previous trustSourceFromStart = some state) :
    acquireProviderLogBatchForIdentity env sessionId provider file providerSourceKey previous
      trustSourceFromStart expectedIdentity =
    acquireFrom env sessionId provider file.bytes previous state := by
  unfold acquireProviderLogBatchForIdentity
  rw [ensureObservedIdentity_ok hidn]
  unfold openedState at hopnd
  cases previous with
  | some own =>
    dsimp only at hopnd
    cases hflr : continuityFailure env file providerSourceKey own with
    | some reason =>
      rw [hflr] at hopnd
      cases hopnd
    | none =>
      rw [hflr] at hopnd
      obtain rfl := Option.some.inj hopnd
      simp only [hflr]
      rfl
  | none =>
    dsimp only at hopnd
    obtain ⟨anchor, hanc, rfl⟩ := map_eq_some_iff.1 hopnd
    cases hread : readAnchor env file.bytes
        (if trustSourceFromStart then 0 else file.bytes.length) with
    | error e =>
      rw [hread] at hanc
      cases hanc
    | ok own =>
      rw [hread] at hanc
      obtain rfl := Option.some.inj hanc
      simp only [hread]
      rfl

section

variable (h : Reaches env sessionId provider providerSourceKey Noted σ)
include h

theorem Reaches.opened (hst : σ.capture = some state) (trustSourceFromStart : Bool) :
    openedState env σ.file providerSourceKey σ.capture trustSourceFromStart = some state := by
  obtain ⟨_, hkept⟩ := h.kept.2 state hst
  rw [hst]
  exact openedState_some hkept.continuityFailure

theorem Reaches.acquired
    (hopnd : openedState env σ.file providerSourceKey σ.capture trustSourceFromStart = some state)
    (hcall : acquireFrom env sessionId provider σ.file.bytes σ.capture state = .ok batch)
    (hntd : σ.capture = none → trustSourceFromStart = false → Noted σ.file.bytes) :
    Reaches env sessionId provider providerSourceKey Noted ⟨σ.file, some batch.next,
      σ.lines ++ handedLines env sessionId provider σ.file.bytes state⟩ := by
  have hidn : ∀ identity ∈ (none : Option ProviderLogNativeIdentity),
      identity = σ.file.nativeIdentity := nofun
  have hstep := h.step (.acquire ((acquire_eq hidn hopnd).trans hcall) hntd)
  rwa [acquiredLines, hopnd, elim_some] at hstep

theorem Reaches.observed
    (hst : σ.capture = some state) (loggingEnabled : Bool) (hntd : Noted σ.file.bytes) :
    Reaches env sessionId provider providerSourceKey Noted ⟨σ.file,
      some (observeFrom σ.file.bytes (some state) state loggingEnabled).next, σ.lines⟩ := by
  obtain ⟨_, hkept⟩ := h.kept.2 state hst
  have hcall : observeProviderLogPolicyForIdentity env σ.file providerSourceKey σ.capture
      loggingEnabled false none = .ok (observeFrom σ.file.bytes (some state) state loggingEnabled) := by
    unfold observeProviderLogPolicyForIdentity
    rw [ensureObservedIdentity_none, hst]
    simp only [hkept.continuityFailure]
    rfl
  exact h.step (.observe hcall fun _ => hntd)

theorem Reaches.observed_first
    (hnone : σ.capture = none) (loggingEnabled : Bool) (hntd : Noted σ.file.bytes) :
    ∃ anchor, Reaches env sessionId provider providerSourceKey Noted ⟨σ.file,
      some (observeFrom σ.file.bytes none (firstState σ.file providerSourceKey
        (if !loggingEnabled then σ.file.bytes.length else 0) anchor (!loggingEnabled)
        (if (if !loggingEnabled then σ.file.bytes.length else 0) < σ.file.bytes.length then "pending"
          else "complete")) loggingEnabled).next, σ.lines⟩ := by
  obtain ⟨anchor, hanc⟩ := @exists_readAnchor env σ.file.bytes
    (if !loggingEnabled then σ.file.bytes.length else 0) (by split <;> omega)
  have hcall : observeProviderLogPolicyForIdentity env σ.file providerSourceKey σ.capture
      loggingEnabled true none = .ok (observeFrom σ.file.bytes none (firstState σ.file
        providerSourceKey (if !loggingEnabled then σ.file.bytes.length else 0) anchor
        (!loggingEnabled) (if (if !loggingEnabled then σ.file.bytes.length else 0) <
          σ.file.bytes.length then "pending" else "complete")) loggingEnabled) := by
    unfold observeProviderLogPolicyForIdentity
    rw [ensureObservedIdentity_none, hnone]
    simp only [Bool.not_true, Bool.false_or, hanc]
    rfl
  exact ⟨anchor, h.step (.observe hcall fun _ => hntd)⟩

theorem Reaches.skipped (hst : σ.capture = some state) {disabledEnd : Nat}
    (hend : disabledEndAtCursor state.resetAtBoundary σ.file.bytes.length = some disabledEnd)
    (hbnd : disabledEnd ≤ σ.file.bytes.length) :
    ∃ anchor status reason, Reaches env sessionId provider providerSourceKey Noted ⟨σ.file,
      some (state.resetAtBoundary.moved disabledEnd anchor .fresh status reason), σ.lines⟩ := by
  obtain ⟨hlns, batch, anchor, status, reason, hcall, hnext⟩ :=
    @exists_skip σ.file.bytes state env sessionId provider σ.capture disabledEnd hend hbnd
  have hrun := h.acquired (h.opened hst true) hcall nofun
  rw [hlns, List.append_nil, hnext] at hrun
  exact ⟨anchor, status, reason, hrun⟩

theorem Reaches.read (hopnd : openedState env σ.file providerSourceKey σ.capture true = some state)
    {bytes : List UInt8} {completeLen : Nat} {lines : List String} {events : List AgentChatEvent}
    {normalizer : TranscriptNormalizationState}
    (hend : disabledEndAtCursor state.resetAtBoundary σ.file.bytes.length = none)
    (hidle : state.resetAtBoundary.committedOffset ≠ σ.file.bytes.length)
    (hread : readRecords σ.file.bytes state.resetAtBoundary = .complete bytes completeLen)
    (hpar : parseRecords env (bytes.take completeLen) = .ok lines)
    (hnrmz : normalizeChatLinesWithState env sessionId provider lines
      state.resetAtBoundary.normalizer false true = .ok (events, normalizer)) :
    ∃ anchor status reason, Reaches env sessionId provider providerSourceKey Noted ⟨σ.file,
      some (state.resetAtBoundary.moved (state.resetAtBoundary.committedOffset + completeLen) anchor
        normalizer status reason), σ.lines ++ lines⟩ := by
  obtain ⟨hlns, batch, anchor, status, reason, hcall, hnext⟩ :=
    @exists_read σ.file.bytes state env sessionId provider σ.capture _ _ _ _ _ hend hidle hread
      hpar hnrmz
  have hrun := h.acquired hopnd hcall nofun
  rw [hlns, hnext] at hrun
  exact ⟨anchor, status, reason, hrun⟩

end

/-! ### Calls that move nothing -/

theorem resetAtBoundary_committedOffset : state.resetAtBoundary.committedOffset = state.committedOffset := by
  unfold ProviderLogCaptureState.resetAtBoundary
  split <;> rfl

theorem resetAtBoundary_disabledSpans : state.resetAtBoundary.disabledSpans = state.disabledSpans := by
  unfold ProviderLogCaptureState.resetAtBoundary
  split <;> rfl

/-- A call that reports that it is incomplete moves nothing, and one that wants to be followed by
another one has moved the cursor. -/
theorem Outcome.report {handed : List String}
    (h : Outcome env sessionId provider file.bytes previous state batch handed) :
    (batch.next.status = "incomplete" → batch.next.committedOffset = state.committedOffset ∧
      batch.next.normalizer = state.normalizer ∧ batch.events = [] ∧ handed = []) ∧
    (batch.continueImmediately = true →
      batch.next.committedOffset = state.committedOffset + batch.consumedBytes ∧
        0 < batch.consumedBytes) := by
  cases h with
  | still status reason => exact ⟨fun _ => ⟨rfl, rfl, rfl, rfl⟩, nofun⟩
  | @skipped disabledEnd _ status hend _ hstat =>
    refine ⟨fun hinc => absurd hinc hstat, fun hcontn => ?_⟩
    have hlt : disabledEnd < file.bytes.length := of_decide_eq_true hcontn
    rcases disabledEndAtCursor_eq_some hend with ⟨span, -, -, hcurs, rfl⟩ | ⟨-, rfl⟩
    · exact ⟨by simp only; omega, by simp only; omega⟩
    · omega
  | read status reason continueImmediately _ hpos _ _ _ _ _ hstat =>
    exact ⟨fun hinc => absurd hinc hstat, fun _ => ⟨rfl, hpos⟩⟩

theorem Kept.sorted (h : Kept env sessionId provider providerSourceKey file lines state places) :
    places.Pairwise fun p q => p.1 < q.1 :=
  h.ordered.imp_of_mem fun hp _ hle =>
    Nat.lt_of_lt_of_le (((h.whole _ _).1 hp).lt h.bound) hle

variable {state' : ProviderLogCaptureState}

end Runs

/-! ### A small log -/

/-- An empty object, which Pi has no event for, is the only JSON value that the log has. -/
def sampleEnv : Env where
  parseJson text := if text = "\x7b\x7d" then .ok (.object []) else .error "expected value"
  stateBytes _ := 200
  normalizeChatLine _ _ _ _ := none
  hexSha256 bytes :=
    if bytes = [] then "e3b0c44298fc1c149afbf4c8996fb92427ae41e4649b934ca495991b7852b855"
    else "ca3d163bab055381827226140568f3bef7eaac187cebd76878e0b63e9e442356"
  utf8Error _ := "invalid utf-8 sequence"

def sampleFile (bytes : List UInt8) : ProviderLogFile :=
  ⟨"/logs/session.jsonl", ⟨"unix", 1, 2⟩, bytes⟩

/-- What the empty object leaves behind. -/
def sampleNormalizer : TranscriptNormalizationState :=
  { TranscriptNormalizationState.fresh with nextSequence := 2 }

/-- The state with one span. -/
def sampleState (committedOffset : Nat) (anchor : ProviderLogContinuityAnchor)
    (normalizer : TranscriptNormalizationState) (status : String) (reason : Option String)
    (unknownBeforeOffset : Option Nat) (span : ProviderLogDisabledSpan) :
    ProviderLogCaptureState where
  providerSourceKey := "pi:one"
  path := "/logs/session.jsonl"
  nativeIdentity := ⟨"unix", 1, 2⟩
  committedOffset := committedOffset
  continuityAnchor := anchor
  normalizer := normalizer
  status := status
  reason := reason
  unknownBeforeOffset := unknownBeforeOffset
  policyGeneration := 2
  disabledSpans := [span]
  openDisabledFrom := none

theorem sample_parse : parseRecords sampleEnv [123, 125, 10] = .ok ["\x7b\x7d"] := rfl

theorem sample_normalize : normalizeChatLinesWithState sampleEnv "agent" "pi" ["\x7b\x7d"] .fresh
    false true = .ok ([], sampleNormalizer) := rfl

theorem sample_read (Noted : List UInt8 → Prop) :
    ∃ first anchor status reason, Reaches sampleEnv "agent" "pi" "pi:one" Noted
      ⟨sampleFile [123, 125, 10], some (ProviderLogCaptureState.moved
      (firstState (sampleFile [123, 125, 10]) "pi:one" 0 first false "pending") 3 anchor
      sampleNormalizer status reason), ["\x7b\x7d"]⟩ := by
  obtain ⟨first, hfst⟩ := @exists_readAnchor sampleEnv [123, 125, 10] 0 (Nat.zero_le _)
  have hopnd : openedState sampleEnv (sampleFile [123, 125, 10]) "pi:one" none true =
      some (firstState (sampleFile [123, 125, 10]) "pi:one" 0 first false "pending") :=
    openedState_none hfst
  have hread : readRecords [123, 125, 10]
      (firstState (sampleFile [123, 125, 10]) "pi:one" 0 first false "pending") =
      .complete [123, 125, 10] 3 := rfl
  have hidle : (0 : Nat) ≠ 3 := by decide
  exact ⟨first, Reaches.read (.initial _) hopnd rfl hidle hread sample_parse sample_normalize⟩

/-- Three records, the second of which is written while logging is disabled. -/
def sampleLog : List UInt8 := [123, 125, 10, 123, 125, 10, 123, 125, 10]

/-- The first is read before the others are written. -/
theorem sample_logged {Noted : List UInt8 → Prop} (hone : Noted [123, 125, 10])
    (htwo : Noted [123, 125, 10, 123, 125, 10]) :
    ∃ anchor, Reaches sampleEnv "agent" "pi" "pi:one" Noted ⟨sampleFile sampleLog,
      some (sampleState 3 anchor sampleNormalizer "pending"
        (some "provider_log_policy_boundary_recorded") none ⟨3, 6⟩), ["\x7b\x7d"]⟩ := by
  obtain ⟨first, anchor, status, reason, h⟩ := sample_read Noted
  have h := h.observed rfl false hone
  have h := (h.step (.grow [123, 125, 10])).observed rfl true htwo
  exact ⟨anchor, h.step (.grow [123, 125, 10])⟩

end Wardian.ProviderLog
