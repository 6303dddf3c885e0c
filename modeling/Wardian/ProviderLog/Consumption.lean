/-
A provider's log is read to its end.

Whatever was noted of a log while it grew, a call that finds a complete line behind the cursor moves
the cursor: over the disabled span that it stands in, or over lines.  So the lines are consumed by
finitely many calls.  The one exception is a line that would take what is left behind above a bound;
the calls are incomplete there, and they stay so.

Main results:

* `Kept.progress` — a call moves the cursor or refuses the lines at it;
* `Reaches.consumed` — finitely many calls read every complete line, unless lines are refused.
-/

import Wardian.ProviderLog.History

set_option autoImplicit false

namespace Wardian.ProviderLog

open List
open Lines

/-! ### The end of the last line -/

/-- The end of the last complete line. -/
def completeEnd (bytes : List UInt8) : Nat := (lastNewline bytes).getD 0

theorem completeEnd_le (bytes : List UInt8) : completeEnd bytes ≤ bytes.length := by
  unfold completeEnd
  cases h : lastNewline bytes with
  | none => exact Nat.zero_le _
  | some completeLen => exact (lastNewline_eq_some h).2.1

variable {bytes : List UInt8}

theorem exists_newline {i : Nat} (h : i < completeEnd bytes) :
    ∃ k byte, i ≤ k ∧ bytes[k]? = some byte ∧ isNewline byte = true := by
  unfold completeEnd at h
  cases hlast : lastNewline bytes with
  | none =>
    rw [hlast] at h
    cases h
  | some completeLen =>
    rw [hlast, Option.getD_some] at h
    obtain ⟨hpos, hle, htrmd⟩ := lastNewline_eq_some hlast
    obtain ⟨last, hget⟩ : ∃ last, bytes[completeLen - 1]? = some last :=
      ⟨_, getElem?_eq_getElem (by omega)⟩
    refine ⟨completeLen - 1, _, by omega, hget, htrmd _ ?_⟩
    rw [Option.mem_def, getLast?_eq_getElem?, length_take, Nat.min_eq_left hle,
      getElem?_take_of_lt (by omega), hget]

theorem lt_completeEnd {i : Nat} {byte : UInt8} (h : bytes[i]? = some byte)
    (hnl : isNewline byte = true) : i < completeEnd bytes := by
  obtain ⟨hi, hbyte⟩ := List.getElem?_eq_some_iff.1 h
  unfold completeEnd
  cases hlast : lastNewline bytes with
  | none =>
    rw [lastNewline_eq_none.1 hlast byte (mem_of_getElem? h)] at hnl
    cases hnl
  | some completeLen =>
    obtain ⟨j, hj, rfl⟩ := Option.map_eq_some_iff.1 hlast
    obtain ⟨hlt, -, hbef⟩ := findIdx?_eq_some_iff_getElem.1 hj
    rw [length_reverse] at hlt
    rw [Option.getD_some]
    by_contra hle
    refine hbef (bytes.length - 1 - i) (by omega) ?_
    rw [getElem_reverse]
    simp only [show bytes.length - 1 - (bytes.length - 1 - i) = i by omega, hbyte, hnl]

/-- A place where a line may begin is not behind the end of the last line. -/
theorem le_completeEnd {p : Nat} (h : Boundary isNewline bytes p)
    (hp : p ≤ bytes.length) : p ≤ completeEnd bytes := by
  rcases Nat.eq_zero_or_pos p with rfl | hpos
  · exact Nat.zero_le _
  · obtain ⟨last, hget⟩ : ∃ last, bytes[p - 1]? = some last :=
      ⟨_, getElem?_eq_getElem (by omega)⟩
    have hlt := lt_completeEnd hget (h _ hpos hget)
    omega

theorem boundary_length (h : Terminated isNewline bytes) : Boundary isNewline bytes bytes.length := by
  intro last _ hlast
  refine h last ?_
  rw [Option.mem_def, getLast?_eq_getElem?, hlast]

/-! ### Valid logs -/

/-- Every line is the text of a JSON object, and none is longer than a record may be. -/
def ValidLog (env : Env) (bytes : List UInt8) : Prop :=
  ∀ p q, q ≤ bytes.length → Boundary isNewline bytes p → IsLine isNewline (slice bytes p q) →
    q - p ≤ providerLogMaxRecordBytes ∧ ValidRecord env (slice bytes p q)

variable {env : Env}

/-- The records of lines that begin where a line may begin are valid. -/
theorem ValidLog.records (h : ValidLog env bytes) {p q : Nat} (hp : Boundary isNewline bytes p) (hpq : p ≤ q)
    (hq : q ≤ bytes.length) (htrmd : Terminated isNewline (slice bytes p q)) :
    ∀ record ∈ splitInclusive isNewline (slice bytes p q), ValidRecord env record := by
  intro record hrec
  have hdrop : bytes.drop p =
      (splitInclusive isNewline (slice bytes p q)).flatten ++ bytes.drop q := by
    have hspl := take_append_drop (q - p) (bytes.drop p)
    rw [drop_drop, Nat.add_sub_cancel' hpq] at hspl
    rw [flatten_splitInclusive]
    exact hspl.symm
  rw [← map_slice_places hdrop] at hrec
  obtain ⟨⟨start, stop⟩, hplc, rfl⟩ := mem_map.1 hrec
  obtain ⟨-, hstop, hline, hbegs⟩ :=
    (mem_places (forall_isLine htrmd) hdrop (Nat.le_trans hpq hq)).1 hplc
  rw [flatten_splitInclusive, length_slice hq] at hstop
  have hstart : Boundary isNewline bytes start := by
    rcases hbegs with rfl | hbegs
    · exact hp
    · exact hbegs
  exact (h start stop (by omega) hstart hline).2

/-! ### What was noted -/

/-- What was noted of the log are ends of lines. -/
structure Aligned (bytes : List UInt8) (state : ProviderLogCaptureState) : Prop where
  baseline : Boundary isNewline bytes state.baseline
  spans : ∀ span ∈ state.disabledSpans,
    Boundary isNewline bytes span.start ∧ Boundary isNewline bytes span.stop
  opened : ∀ start ∈ state.openDisabledFrom, Boundary isNewline bytes start

section Consumption

variable {env : Env} {sessionId provider providerSourceKey : String} {file : ProviderLogFile}
  {lines : List String} {state next : ProviderLogCaptureState} {places : List (Nat × Nat)}
  {trustSourceFromStart loggingEnabled : Bool} {bytes : List UInt8}
  {expectedIdentity : Option ProviderLogNativeIdentity} {batch : ProviderLogBatch} {σ σ' : System}

theorem Aligned.congr (h : Aligned bytes state)
    (hunkn : next.unknownBeforeOffset = state.unknownBeforeOffset)
    (hspans : next.disabledSpans = state.disabledSpans)
    (hopen : next.openDisabledFrom = state.openDisabledFrom) : Aligned bytes next := by
  refine ⟨?_, ?_, ?_⟩
  · unfold ProviderLogCaptureState.baseline
    rw [hunkn]
    exact h.baseline
  · rw [hspans]
    exact h.spans
  · rw [hopen]
    exact h.opened

theorem Aligned.grow (h : Aligned file.bytes state)
    (hkept : Kept env sessionId provider providerSourceKey file lines state places)
    (more : List UInt8) : Aligned (file.bytes ++ more) state := by
  refine ⟨?_, fun span hspan => ?_, fun start hstart => ?_⟩
  · exact (boundary_append (Nat.le_trans hkept.baseline hkept.bound)).2 h.baseline
  · obtain ⟨hord, hstop⟩ := hkept.spans span hspan
    obtain ⟨hstrs, hstops⟩ := h.spans span hspan
    exact ⟨(boundary_append (Nat.le_trans hord hstop)).2 hstrs, (boundary_append hstop).2 hstops⟩
  · exact (boundary_append (hkept.opened start hstart)).2 (h.opened start hstart)

variable {previous : Option ProviderLogCaptureState}

theorem Outcome.aligned {handed : List String}
    (hout : Outcome env sessionId provider bytes previous state batch handed)
    (h : Aligned bytes state) : Aligned bytes batch.next := by
  cases hout with
  | still _ _ | skipped _ _ _ _ | read _ _ _ _ _ _ _ _ _ _ _ => exact h.congr rfl rfl rfl

theorem Aligned.reset (h : Aligned bytes state) : Aligned bytes state.resetAtBoundary := by
  unfold ProviderLogCaptureState.resetAtBoundary
  split
  · exact h.congr rfl rfl rfl
  · exact h

theorem Aligned.observe (h : Aligned bytes state)
    (hntd : state.openDisabledFrom.isSome = loggingEnabled → Terminated isNewline bytes)
    {previous : Option ProviderLogCaptureState} :
    Aligned bytes (observeFrom bytes previous state loggingEnabled).next := by
  unfold observeFrom
  cases htog : toggleLogging state bytes.length loggingEnabled with
  | none => exact h.congr rfl rfl rfl
  | some toggled =>
    suffices htogg : Aligned bytes toggled from htogg.congr rfl rfl rfl
    unfold toggleLogging at htog
    dsimp only at htog
    cases loggingEnabled with
    | true =>
      rw [if_pos rfl] at htog
      cases hopen : state.openDisabledFrom with
      | none =>
        simp only [hopen] at htog
        obtain rfl := Option.some.inj htog
        exact h
      | some start =>
        simp only [hopen] at htog
        split at htog
        · cases htog
        · obtain rfl := Option.some.inj htog
          have hend := boundary_length (hntd (by rw [hopen]; rfl))
          refine ⟨h.baseline, fun span hspan => ?_, nofun⟩
          rcases mem_append.1 hspan with hspan | hspan
          · exact h.spans span hspan
          · obtain rfl := mem_singleton.1 hspan
            exact ⟨h.opened start (by rw [hopen]; rfl), hend⟩
    | false =>
      rw [if_neg Bool.false_ne_true] at htog
      cases hopen : state.openDisabledFrom with
      | none =>
        simp only [hopen, Option.isNone_none, if_true] at htog
        obtain rfl := Option.some.inj htog
        have hend := boundary_length (hntd (by rw [hopen]; rfl))
        refine ⟨h.baseline, h.spans, ?_⟩
        rintro _ ⟨⟩
        exact hend
      | some start =>
        simp only [hopen, Option.isNone_some, Bool.false_eq_true, if_false] at htog
        obtain rfl := Option.some.inj htog
        exact h

/-- Nothing was noted but the place where the log was first observed. -/
theorem ProviderLogCaptureState.Unmarked.aligned {offset : Nat} (h : state.Unmarked offset)
    (hoffset : Boundary isNewline bytes offset) : Aligned bytes state := by
  refine ⟨h.baseline ▸ hoffset, ?_, ?_⟩
  · rw [h.spans]
    exact nofun
  · rw [h.opened]
    exact nofun

theorem boundary_first {fromEnd : Bool} (h : fromEnd = true → Terminated isNewline bytes) :
    Boundary isNewline bytes (if fromEnd then bytes.length else 0) := by
  cases fromEnd with
  | true => exact boundary_length (h rfl)
  | false => exact fun _ hpos _ => absurd hpos (Nat.lt_irrefl 0)

/-- **What was noted are ends of lines**, in every run that notes only such. -/
theorem Reaches.aligned (h : Reaches env sessionId provider providerSourceKey (Terminated isNewline) σ) :
    ∀ state ∈ σ.capture, Aligned σ.file.bytes state := by
  induction h with
  | initial file => exact nofun
  | @step σ σ' hrch hstep ih =>
    cases hstep with
    | grow more =>
      intro state hst
      obtain ⟨places, hkept⟩ := hrch.kept.2 state hst
      exact (ih state hst).grow hkept more
    | @acquire trustSourceFromStart _ _ hcall hntd =>
      rintro _ ⟨⟩
      cases hcapt : σ.capture with
      | none =>
        rw [hcapt] at hcall
        obtain ⟨state, -, hunmk, hout⟩ := @acquire_first env sessionId provider
          providerSourceKey σ.file _ _ _ hcall
        have hfst := @boundary_first σ.file.bytes (!trustSourceFromStart) fun htrust =>
          hntd hcapt (by simpa using htrust)
        rw [show (if !trustSourceFromStart then σ.file.bytes.length else 0) =
          if trustSourceFromStart then 0 else σ.file.bytes.length by
            cases trustSourceFromStart <;> rfl] at hfst
        exact hout.aligned (hunmk.aligned hfst).reset
      | some state =>
        rw [hcapt] at hcall
        obtain ⟨places, hkept⟩ := hrch.kept.2 state hcapt
        exact (hkept.acquire hcall).aligned (ih state hcapt).reset
    | @observe loggingEnabled trustSourceFromStart _ _ hcall hntd =>
      rintro _ ⟨⟩
      cases hcapt : σ.capture with
      | none =>
        rw [hcapt] at hcall hntd
        obtain ⟨state, -, hunmk, rfl⟩ := @observe_first env sessionId provider
          providerSourceKey σ.file _ _ _ _ hcall
        refine (hunmk.aligned (boundary_first hntd)).observe fun hsome => hntd ?_
        rw [hunmk.opened] at hsome
        rw [notesLength, ← hsome]
        simp
      | some state =>
        rw [hcapt] at hcall hntd
        obtain ⟨places, hkept⟩ := hrch.kept.2 state hcapt
        rw [hkept.observe_eq hcall]
        refine (ih state hcapt).observe fun hsome => hntd ?_
        rw [notesLength, hsome, beq_self_eq_true]

/-! ### Progress -/

/-- The lines at the cursor would take what is left behind above a bound. -/
def Refused (env : Env) (sessionId provider : String) (bytes : List UInt8)
    (state : ProviderLogCaptureState) : Prop :=
  ∃ (stop : Nat) (error : String) (front : List String), state.committedOffset < stop ∧
    stop ≤ readableEnd state bytes.length ∧
    Terminated isNewline (slice bytes state.committedOffset stop) ∧
    acquireFrom env sessionId provider bytes (some state) state = .ok (incompleteBatch (some state)
      state.resetAtBoundary s!"provider_log_normalization_state_limit: {error}") ∧
    front <+: (splitInclusive isNewline (slice bytes state.committedOffset stop)).map lineText ∧
    Exceeds env (feed env sessionId provider state.resetAtBoundary.normalizer front)

/-- Where logging was enabled, a cursor stands where a line may begin. -/
theorem Aligned.boundary (h : Aligned bytes state) (hcurs : state.AtBoundary bytes)
    (henbd : ¬state.Disabled state.committedOffset) : Boundary isNewline bytes state.committedOffset := by
  rcases hcurs with hbase | hnl | ⟨hpos, ⟨span, hspan, hstart, hstop⟩ | ⟨start, hopen, hle⟩⟩
  · exact hbase ▸ h.baseline
  · exact hnl
  · -- the cursor is at the end of the span, as it is not inside of it
    have hend : span.stop = state.committedOffset := by
      by_contra hne
      exact henbd (.inl ⟨span, hspan, by omega, by omega⟩)
    exact hend ▸ (h.spans span hspan).2
  · exact absurd (.inr ⟨start, hopen, by omega⟩) henbd

theorem Aligned.le_readableEnd (h : Aligned bytes state)
    (henbd : ¬state.Disabled state.committedOffset) {stop : Nat} (hstop : stop ≤ bytes.length)
    (hline : IsLine isNewline (slice bytes state.committedOffset stop)) :
    stop ≤ readableEnd state bytes.length := by
  rcases @readableEnd_cases state bytes.length with hend | ⟨hstart, hle⟩
  · rw [hend]
    exact hstop
  · have hbdry : Boundary isNewline bytes (readableEnd state bytes.length) := by
      rcases hstart with ⟨span, hspan, -, hsame⟩ | hopen
      · exact hsame ▸ (h.spans span hspan).1
      · exact h.opened _ hopen
    have hne : readableEnd state bytes.length ≠ state.committedOffset := by
      intro hsame
      rw [hsame] at hstart
      rcases hstart with ⟨span, hspan, hlt, hstart⟩ | hopen
      · exact henbd (.inl ⟨span, hspan, Nat.le_of_eq hstart, hlt⟩)
      · exact henbd (.inr ⟨_, hopen, Nat.le_refl _⟩)
    by_contra hlt
    have hbnd := @readableEnd_le_fileLen state bytes.length
    obtain ⟨last, hget⟩ : ∃ last, bytes[readableEnd state bytes.length - 1]? = some last :=
      ⟨_, getElem?_eq_getElem (by omega)⟩
    have hins := hline.not_isEnd hstop (by omega) (by omega) hget
    rw [hbdry _ (by omega) hget] at hins
    cases hins

theorem readableEnd_resetAtBoundary {fileLen : Nat} :
    readableEnd state.resetAtBoundary fileLen = readableEnd state fileLen := by
  unfold ProviderLogCaptureState.resetAtBoundary
  split <;> rfl

/-- **A call moves the cursor**, or it refuses the lines at it. -/
theorem Kept.progress (h : Kept env sessionId provider providerSourceKey file lines state places)
    (halgn : Aligned file.bytes state) (hval : ValidLog env file.bytes)
    (hcurs : state.committedOffset < completeEnd file.bytes) :
    (∃ batch, acquireFrom env sessionId provider file.bytes (some state) state = .ok batch ∧
      state.committedOffset < batch.next.committedOffset) ∨
    Refused env sessionId provider file.bytes state := by
  have hrst : state.resetAtBoundary.committedOffset = state.committedOffset :=
    resetAtBoundary_committedOffset
  have hkept := h.reset.1
  have hbase := halgn.reset
  have hlen := Nat.lt_of_lt_of_le hcurs (completeEnd_le file.bytes)
  cases hend : disabledEndAtCursor state.resetAtBoundary file.bytes.length with
  | some disabledEnd =>
    have hmove : state.committedOffset < disabledEnd ∧ disabledEnd ≤ file.bytes.length := by
      rcases disabledEndAtCursor_eq_some hend with ⟨span, hspan, -, hlt, rfl⟩ | ⟨-, rfl⟩
      · exact ⟨hrst ▸ hlt, (hkept.spans span hspan).2⟩
      · exact ⟨hlen, Nat.le_refl _⟩
    obtain ⟨-, batch, anchor, status, reason, hcall, hnext⟩ :=
      @exists_skip file.bytes state env sessionId provider (some state) _ hend hmove.2
    refine .inl ⟨batch, hcall, ?_⟩
    rw [hnext]
    exact hmove.1
  | none =>
    have henbd := disabledEndAtCursor_eq_none hend
    have hbdry := hbase.boundary hkept.cursor henbd
    obtain ⟨k, byte, hk, hbyte, hnl⟩ := exists_newline hcurs
    obtain ⟨stop, hlt, hle, hline⟩ := exists_isLine hk hbyte hnl
    have hkLen := (List.getElem?_eq_some_iff.1 hbyte).1
    have hstop : stop ≤ file.bytes.length := by omega
    rw [← hrst] at hline hlt
    obtain ⟨last, hlast, hlastNewline⟩ := hline.getElem?_last hstop
    have hrdbl := hbase.le_readableEnd henbd hstop hline
    have hlim := (hval _ _ hstop hbdry hline).1
    obtain ⟨window, completeLen, hread⟩ := @exists_readRecords file.bytes state.resetAtBoundary
      (stop - 1 - state.resetAtBoundary.committedOffset) last (by omega) (by omega)
      (by rw [← hlast]; congr 1; omega) hlastNewline
    obtain ⟨hpos, hwthn, hbnd, htake, htrmd⟩ := readRecords_complete hread
    have hrecs := hval.records hbdry (Nat.le_add_right _ completeLen) hbnd
      (htake ▸ htrmd)
    have hpar := parseRecords_of_valid htrmd (htake ▸ hrecs)
    have hidle : state.resetAtBoundary.committedOffset ≠ file.bytes.length := by omega
    rcases @normalizeChatLinesWithState_feed env sessionId provider _ hkept.rooted
        ((splitInclusive isNewline (window.take completeLen)).map lineText) with
      ⟨events, hnrmz⟩ | ⟨error, front, hnrmz, hfrt, hexce⟩
    · obtain ⟨-, batch, anchor, status, reason, hcall, hnext⟩ :=
        @exists_read file.bytes state env sessionId provider (some state) _ _ _ _ _ hend hidle hread
          hpar hnrmz
      refine .inl ⟨batch, hcall, ?_⟩
      rw [hnext]
      show state.committedOffset < state.resetAtBoundary.committedOffset + completeLen
      omega
    · rw [htake, hrst] at hfrt htrmd
      rw [hrst, readableEnd_resetAtBoundary] at hwthn
      exact .inr ⟨state.committedOffset + completeLen, error, front, by omega, hwthn, htrmd,
        acquireFrom_refused hend hidle hread hpar hnrmz, hfrt, hexce⟩

/-! ### Calls -/

/-- One call, as what is kept passes to the next one. -/
def acquireOnce (env : Env) (sessionId provider : String) (file : ProviderLogFile)
    (providerSourceKey : String) (trustSourceFromStart : Bool)
    (expectedIdentity : Option ProviderLogNativeIdentity)
    (capture : Option ProviderLogCaptureState) : Option ProviderLogCaptureState :=
  match acquireProviderLogBatchForIdentity env sessionId provider file providerSourceKey capture
    trustSourceFromStart expectedIdentity with
  | .ok batch => some batch.next
  | .error _ => capture

theorem acquireOnce_eq (hidn : ∀ identity ∈ expectedIdentity, identity = file.nativeIdentity)
    (hopnd : openedState env file providerSourceKey previous trustSourceFromStart = some state)
    (hcall : acquireFrom env sessionId provider file.bytes previous state = .ok batch) :
    acquireOnce env sessionId provider file providerSourceKey trustSourceFromStart expectedIdentity
      previous = some batch.next := by
  unfold acquireOnce
  rw [acquire_eq hidn hopnd, hcall]

/-- The lines are consumed, or they are refused. -/
def Consumed (env : Env) (sessionId provider : String) (bytes : List UInt8)
    (state : ProviderLogCaptureState) : Prop :=
  (state.openDisabledFrom = none → state.committedOffset ≤ completeEnd bytes) ∧
    (completeEnd bytes ≤ state.committedOffset ∨ Refused env sessionId provider bytes state)

/-- The cursor does not pass the last line while logging is enabled. -/
theorem Kept.le_completeEnd (h : Kept env sessionId provider providerSourceKey file lines state places)
    (halgn : Aligned file.bytes state) (hopen : state.openDisabledFrom = none) :
    state.committedOffset ≤ completeEnd file.bytes := by
  by_cases hdis : state.Disabled state.committedOffset
  · rcases hdis with ⟨span, hspan, -, hlt⟩ | ⟨start, hstart, -⟩
    · exact Nat.le_trans (Nat.le_of_lt hlt)
        (ProviderLog.le_completeEnd (halgn.spans span hspan).2 (h.spans span hspan).2)
    · rw [hopen] at hstart
      cases hstart
  · exact ProviderLog.le_completeEnd (halgn.boundary h.cursor hdis) h.bound

/-- From a state that is kept, by induction on what is left behind the cursor. -/
theorem Reaches.consumed_of_some
    (h : Reaches env sessionId provider providerSourceKey (Terminated isNewline) σ)
    (hst : σ.capture = some state) (hval : ValidLog env σ.file.bytes)
    (hidn : ∀ identity ∈ expectedIdentity, identity = σ.file.nativeIdentity) :
    ∃ n state', (acquireOnce env sessionId provider σ.file providerSourceKey trustSourceFromStart
        expectedIdentity)^[n] (some state) = some state' ∧
      Consumed env sessionId provider σ.file.bytes state' := by
  generalize hleft : completeEnd σ.file.bytes - state.committedOffset = left
  induction left using Nat.strong_induction_on generalizing σ state with
  | _ left ih =>
    obtain ⟨places, hkept⟩ := h.kept.2 state hst
    have halgn := h.aligned state hst
    have hopen := hkept.le_completeEnd halgn
    rcases Nat.lt_or_ge state.committedOffset (completeEnd σ.file.bytes) with hlt | hge
    · rcases hkept.progress halgn hval hlt with ⟨batch, hcall, hmoved⟩ | hrfsd
      · have hopnd := h.opened hst trustSourceFromStart
        rw [← hst] at hcall
        have hnext := h.acquired hopnd hcall fun hnone => absurd hnone (by rw [hst]; nofun)
        obtain ⟨n, state', hrun, hcsmd⟩ := ih
          (completeEnd σ.file.bytes - batch.next.committedOffset) (by omega) hnext rfl hval
          hidn rfl
        have honce := acquireOnce_eq hidn hopnd hcall
        refine ⟨n + 1, state', ?_, hcsmd⟩
        rw [Function.iterate_succ_apply, ← hst, honce, hrun]
      · exact ⟨0, state, rfl, hopen, .inr hrfsd⟩
    · exact ⟨0, state, rfl, hopen, .inl hge⟩

/-- **A valid log is consumed by finitely many calls**, unless lines of it are refused. -/
theorem Reaches.consumed (h : Reaches env sessionId provider providerSourceKey (Terminated isNewline) σ)
    (hval : ValidLog env σ.file.bytes)
    (hidn : ∀ identity ∈ expectedIdentity, identity = σ.file.nativeIdentity)
    (hntd : σ.capture = none → trustSourceFromStart = false → Terminated isNewline σ.file.bytes) :
    ∃ n state, (acquireOnce env sessionId provider σ.file providerSourceKey trustSourceFromStart
        expectedIdentity)^[n] σ.capture = some state ∧
      Consumed env sessionId provider σ.file.bytes state := by
  cases hcapt : σ.capture with
  | some state => exact h.consumed_of_some hcapt hval hidn
  | none =>
    -- the first call makes the state that the others go on with
    obtain ⟨anchor, hanc⟩ := @exists_readAnchor env σ.file.bytes
      (if trustSourceFromStart then 0 else σ.file.bytes.length) (by split <;> omega)
    obtain ⟨state, hopnd, hspans⟩ : ∃ state, openedState env σ.file providerSourceKey none
        trustSourceFromStart = some state ∧ state.disabledSpans = [] :=
      ⟨_, openedState_none hanc, rfl⟩
    obtain ⟨batch, hcall⟩ := @exists_acquireFrom σ.file.bytes state env sessionId provider none
      fun span hspan => by
        rw [resetAtBoundary_disabledSpans, hspans] at hspan
        cases hspan
    rw [← hcapt] at hopnd hcall
    have hnext := h.acquired hopnd hcall hntd
    obtain ⟨n, state, hrun, hcsmd⟩ := hnext.consumed_of_some rfl hval hidn
    refine ⟨n + 1, state, ?_, hcsmd⟩
    rw [Function.iterate_succ_apply, ← hcapt, acquireOnce_eq hidn hopnd hcall, hrun]

end Consumption

/-! ### Two logs that are not consumed -/

variable {state : ProviderLogCaptureState}

/-- A state that a call does not change is kept by every later one. -/
theorem Reaches.iterate_still {sessionId provider providerSourceKey : String}
    {Noted : List UInt8 → Prop} {σ : System}
    (h : Reaches env sessionId provider providerSourceKey Noted σ) (hst : σ.capture = some state)
    (hcall : acquireFrom env sessionId provider σ.file.bytes (some state) state =
      .ok (stillBatch (some state) state)) (n : Nat) :
    (acquireOnce env sessionId provider σ.file providerSourceKey true none)^[n] σ.capture =
      some state := by
  have hidn : ∀ identity ∈ (none : Option ProviderLogNativeIdentity),
      identity = σ.file.nativeIdentity := nofun
  have hopnd := h.opened hst true
  rw [hst] at hopnd ⊢
  have honce := acquireOnce_eq hidn hopnd hcall
  exact Function.iterate_fixed honce n

/-- A log is valid when the lines are that it is put together from. -/
theorem validLog_flatten {env : Env} {records : List (List UInt8)}
    (h : ∀ record ∈ records, IsLine isNewline record ∧
      record.length ≤ providerLogMaxRecordBytes ∧ ValidRecord env record) : ValidLog env records.flatten := by
  intro p q hq hbegs hline
  have hdrop : records.flatten.drop 0 = records.flatten ++ [] := (append_nil _).symm
  have hplc := (mem_places (fun record hrec => (h record hrec).1) hdrop (Nat.zero_le _)).2
    ⟨Nat.zero_le p, by omega, hline, .inr hbegs⟩
  have hmem := mem_map_of_mem (f := fun place => slice records.flatten place.1 place.2) hplc
  rw [map_slice_places hdrop] at hmem
  obtain ⟨-, hlen, hrec⟩ := h _ hmem
  rw [length_slice hq] at hlen
  exact ⟨hlen, hrec⟩

theorem sample_valid (n : Nat) : ValidLog sampleEnv (replicate n [123, 125, 10]).flatten := by
  refine validLog_flatten fun record hrec => ?_
  obtain rfl := (mem_replicate.1 hrec).2
  refine ⟨⟨[123, 125], 10, rfl, rfl, ?_⟩, by decide, ⟨_, rfl⟩, [], rfl⟩
  exact forall_mem_cons.2 ⟨rfl, forall_mem_singleton.2 rfl⟩

/-- A valid log is consumed, as one with a record that was written while logging was disabled is. -/
theorem consumed_sample : ∃ σ, Reaches sampleEnv "agent" "pi" "pi:one" (Terminated isNewline) σ ∧
    σ.file = sampleFile sampleLog ∧ σ.capture.map (·.disabledSpans.length) = some 1 ∧
    ∃ n state, (acquireOnce sampleEnv "agent" "pi" (sampleFile sampleLog) "pi:one" true none)^[n]
        σ.capture = some state ∧
      Consumed sampleEnv "agent" "pi" sampleLog state := by
  have hends : ∀ bytes : List UInt8, bytes.getLast? = some 10 → Terminated isNewline bytes := by
    intro bytes hlast last hmem
    rw [hlast] at hmem
    obtain rfl := Option.some.inj hmem
    rfl
  obtain ⟨anchor, h⟩ := sample_logged (hends [123, 125, 10] rfl) (hends _ rfl)
  have hval : ValidLog sampleEnv sampleLog := sample_valid 3
  exact ⟨_, h, rfl, rfl, Reaches.consumed h hval nofun nofun⟩

/-- Logging is enabled, and a complete line is behind the cursor, which no call moves. -/
def Stuck (env : Env) (sessionId provider providerSourceKey : String) (σ : System) : Prop :=
  ValidLog env σ.file.bytes ∧ ∃ state, σ.capture = some state ∧ state.openDisabledFrom = none ∧
    state.committedOffset < completeEnd σ.file.bytes ∧
    ∀ n, (acquireOnce env sessionId provider σ.file providerSourceKey true none)^[n] σ.capture =
      some state

/-- Logging is disabled and enabled in the middle of a record, which never is complete then. -/
theorem sample_split : ∃ σ, Reaches sampleEnv "agent" "pi" "pi:one" (fun _ => True) σ ∧
    Stuck sampleEnv "agent" "pi" "pi:one" σ := by
  have hinit : Reaches sampleEnv "agent" "pi" "pi:one" (fun _ => True)
      ⟨sampleFile [], none, []⟩ := .initial _
  obtain ⟨first, h⟩ := hinit.observed_first rfl true trivial
  have h := Reaches.observed (h.step (.grow [123])) rfl false trivial
  have h := h.observed rfl true trivial
  have hgr : Reaches sampleEnv "agent" "pi" "pi:one" (fun _ => True)
      ⟨sampleFile [123, 125, 10], some (sampleState 0 first .fresh "pending"
        (some "provider_log_policy_boundary_recorded") none ⟨1, 1⟩), []⟩ :=
    h.step (.grow [125, 10])
  have hstop : ∀ (reason : Option String) (previous : Option ProviderLogCaptureState),
      acquireFrom sampleEnv "agent" "pi" [123, 125, 10] previous
        (sampleState 0 first .fresh "pending" reason none ⟨1, 1⟩) =
      .ok (stillBatch previous (sampleState 0 first .fresh "pending"
        (some "provider_log_partial_record") none ⟨1, 1⟩)) := by
    intro reason previous
    have hread : readRecords [123, 125, 10] (sampleState 0 first .fresh "pending" reason none ⟨1, 1⟩) =
        .stopped "pending" "provider_log_partial_record" := by
      show extendRecord [123, 125, 10] 1 1 = _
      rw [extendRecord, if_neg (by decide), if_pos (by decide)]
    have hidle : ¬(0 : Nat) = 3 := by decide
    exact acquireFrom_stopped rfl hidle hread
  obtain ⟨lines, hread⟩ : ∃ lines, Reaches sampleEnv "agent" "pi" "pi:one" (fun _ => True)
      ⟨sampleFile [123, 125, 10], some (sampleState 0 first .fresh "pending"
        (some "provider_log_partial_record") none ⟨1, 1⟩), lines⟩ :=
    ⟨_, hgr.acquired (hgr.opened rfl true) (hstop _ _) (by simp)⟩
  have hcurs : 0 < completeEnd [123, 125, 10] := by decide
  exact ⟨_, hread, sample_valid 1, _, rfl, rfl, hcurs, hread.iterate_still rfl (hstop _ _)⟩

/-- A context of Codex's that names its turn, for which no request is known. -/
def contextLine : String :=
  "\x7b\"type\":\"response_item\",\"payload\":\x7b\"type\":\"message\",\"id\":\"context-1\"," ++
  "\"role\":\"user\",\"content\":[\x7b\"type\":\"input_text\",\"text\":\"context\"\x7d]," ++
  "\"internal_chat_message_metadata_passthrough\":\x7b\"turn_id\":\"turn-1\"\x7d\x7d\x7d"

def contextMembers : JsonMap :=
  [("type", .string "response_item"),
    ("payload", .object [("type", .string "message"), ("id", .string "context-1"),
      ("role", .string "user"),
      ("content", .array [.object [("type", .string "input_text"), ("text", .string "context")]]),
      ("internal_chat_message_metadata_passthrough", .object [("turn_id", .string "turn-1")])])]

def contextEvent (sessionId : String) (sequence : Nat) : AgentChatEvent where
  id := s!"{sessionId}:{sequence}"
  sessionId := sessionId
  provider := "codex"
  kind := .message
  role := some .user
  text := some "context"
  title := none
  status := none
  turnId := some "context-1"
  source := some "response_item"
  command := none
  exitCode := none
  path := none
  language := none
  createdAt := none
  sequence := some sequence
  metadata := .object [("raw_type", .string "message"),
    ("input_origin", .string "context_injection"), ("input_purpose", .string "context"),
    ("context_observation", .string "provider_native"),
    ("causal_ref", .string "provider:message:context-1"), ("provider_turn_id", .string "turn-1")]

def contextEnv : Env :=
  { sampleEnv with
    parseJson := fun text =>
      if text = contextLine then .ok (.object contextMembers) else .error "expected value"
    normalizeChatLine := fun sessionId _ rawLine sequence =>
      if rawLine = contextLine then some (contextEvent sessionId sequence) else none }

theorem parseJson_contextLine : contextEnv.parseJson contextLine = .ok (.object contextMembers) := by
  simp only [contextEnv, if_true]

/-- A context that names its turn waits, when its request is not known. -/
theorem normalizeEvent_context {state : TranscriptNormalizationState} {event : AgentChatEvent}
    {turnId : String} (hst : state.requestRootId = none) (hrole : event.role = some .user)
    (horig : event.metadataString "input_origin" = some "context_injection")
    (hturn : event.metadataString "provider_turn_id" = some turnId)
    (hroot : event.metadataString "request_root_id" = none) :
    normalizeEvent "codex" state event =
      ({ state with
          pendingEvents := state.pendingEvents ++ [event]
          pendingContextIndices := state.pendingContextIndices ++ [state.pendingEvents.length] },
        []) := by
  have hassi : event.role ≠ some .assistant := by
    rw [hrole]
    decide
  have hmirror : bindAssistantMirror "codex" state event = event :=
    if_neg fun h => hassi h.2.2.1
  have huser : bindUserMirror "codex" state (some "context_injection") (some turnId) event =
      (event, some turnId, false) := if_neg fun h => absurd h.2.1 (by decide)
  have htool : ∀ own, rememberTool "codex" own event = own := fun own =>
    if_neg fun h => absurd h.1 (by decide)
  have hbind : bindContext "codex" state event = (state, event) := by
    unfold bindContext causingTool
    rw [if_neg (show ¬("codex" = "claude") by decide)]
    simp only [hroot, hst, Option.isSome_none, Bool.false_eq_true, and_false, ite_self]
  have hemit : emit "codex" (some "context_injection") state event =
      ({ state with
          pendingEvents := state.pendingEvents ++ [event]
          pendingContextIndices := state.pendingContextIndices ++ [state.pendingEvents.length] },
        []) := by
    unfold emit
    simp only [hroot, hturn, Option.isNone_none, Option.isSome_some, true_and, true_or, if_true]
  unfold normalizeEvent
  simp only [horig, hturn, hmirror, huser, htool, hbind, hemit, hassi, and_false, if_false,
    if_true, nil_append, show ¬(some "context_injection" = some "human_input" ∨
      some "context_injection" = some "agent_input") by decide]

/-- Nothing is known but the contexts that wait. -/
structure Waiting (state : TranscriptNormalizationState) (pending : Nat) : Prop where
  root : state.requestRootId = none
  pending : state.pendingEvents.length = pending
  roots : state.toolRequestRoots = ∅
  seen : state.seenGeminiMessages = ∅

theorem Waiting.normalizeLine {state : TranscriptNormalizationState} {pending : Nat}
    (h : Waiting state pending) : ∃ next, Waiting next (pending + 1) ∧
      ProviderLog.normalizeLine contextEnv "agent" "codex" true state contextLine =
        (next, some []) := by
  have hturn : codexTurnContext contextEnv "codex" contextLine = none := by
    unfold codexTurnContext
    rw [if_pos rfl, parseJson_contextLine]
    rfl
  have hline : contextEnv.normalizeChatLine "agent" "codex" contextLine state.nextSequence =
      some (contextEvent "agent" state.nextSequence) := by
    simp only [contextEnv, if_true]
  unfold ProviderLog.normalizeLine TranscriptNormalizationState.beginLine
  simp only [hturn, hline, if_true]
  rw [if_neg (show ¬(_ ∧ _) from fun hgemini => absurd hgemini.1 (by decide)),
    @normalizeEvent_context { state with nextSequence := min (state.nextSequence + 1) u64Max } _ _
      h.root rfl rfl rfl rfl]
  refine ⟨_, ?_, rfl⟩
  refine ⟨h.root, ?_, h.roots, h.seen⟩
  rw [id, length_append, h.pending]
  rfl

theorem Waiting.normalizeLines {state : TranscriptNormalizationState} {pending : Nat}
    (h : Waiting state pending) {count : Nat} (hpend : pending ≤ maxPendingNormalizedEvents)
    (hcnt : maxPendingNormalizedEvents < pending + count) :
    ProviderLog.normalizeLines contextEnv "agent" "codex" true (replicate count contextLine)
      state = .error "provider transcript pending-event limit exceeded" := by
  induction count generalizing state pending with
  | zero => omega
  | succ count ih =>
    obtain ⟨next, hnext, hline⟩ := h.normalizeLine
    rw [replicate_succ, ProviderLog.normalizeLines, hline]
    simp only [if_true]
    by_cases hlim : maxPendingNormalizedEvents < pending + 1
    · have hchk : checkLine next =
          .error "provider transcript pending-event limit exceeded" := by
        unfold checkLine
        rw [if_pos (hnext.pending ▸ hlim)]
      rw [hchk]
      rfl
    · have hchk : checkLine next = .ok () := by
        unfold checkLine
        rw [if_neg (by rw [hnext.pending]; exact hlim), hnext.roots, hnext.seen]
        rfl
      rw [hchk, ih hnext (by omega) (by omega)]
      rfl

def contextRecord : List UInt8 := Utf8.encode (contextLine.toList ++ ['\n'])

/-- The characters of the line, with what is evaluated about them. -/
theorem contextLine_chars : ∃ cs, contextLine.toList = cs ∧ (cs.all fun c => !(c == '\n')) = true ∧
    cs.getLast? = some '\x7d' ∧ (Utf8.encode (cs ++ ['\n'])).length ≤ 1000 := by
  unfold contextLine
  rw [String.toList_append, String.toList_append]
  refine ⟨_, congrArg₂ _ (congrArg₂ _ String.toList_ofList String.toList_ofList) String.toList_ofList, ?_, ?_, ?_⟩
  · decide
  · decide
  · decide +kernel

theorem isLine_contextRecord : IsLine isNewline contextRecord := by
  obtain ⟨cs, rfl, hbody, -⟩ := contextLine_chars
  have hline : IsLine (· == '\n') (contextLine.toList ++ ['\n']) := by
    refine ⟨contextLine.toList, '\n', rfl, rfl, fun c hc => ?_⟩
    exact Bool.not_eq_true' _ ▸ all_eq_true.1 hbody c hc
  exact hline.flatMap isNewline_encode_end isNewline_encode_other

theorem lineText_contextRecord : lineText contextRecord = contextLine := by
  obtain ⟨cs, rfl, -, hlast, -⟩ := contextLine_chars
  have hend : contextLine.toList.getLast? ≠ some '\r' := by
    rw [hlast]
    decide
  unfold lineText contextRecord
  rw [Utf8.decode?_encode, Option.getD_some, stripLineEnding_concat hend]
  exact String.ofList_toList

theorem length_contextRecord : contextRecord.length ≤ 1000 := by
  obtain ⟨cs, rfl, -, -, hlen⟩ := contextLine_chars
  exact hlen

/-- One context more than may wait. -/
@[irreducible] def contextLog : List UInt8 :=
  (replicate (maxPendingNormalizedEvents + 1) contextRecord).flatten

theorem contextLog_valid : ValidLog contextEnv contextLog := by
  unfold contextLog
  refine validLog_flatten fun record hrec => ?_
  rw [eq_of_mem_replicate hrec]
  have hlim : 1000 ≤ providerLogMaxRecordBytes := by decide
  have htext : Utf8.decode? contextRecord = some (contextLine.toList ++ ['\n']) :=
    Utf8.decode?_encode _
  have hpar : contextEnv.parseJson (lineText contextRecord) = .ok (.object contextMembers) := by
    rw [lineText_contextRecord, parseJson_contextLine]
  exact ⟨isLine_contextRecord, Nat.le_trans length_contextRecord hlim, ⟨_, htext⟩, _, hpar⟩

theorem splitInclusive_contextLog : splitInclusive isNewline contextLog =
    replicate (maxPendingNormalizedEvents + 1) contextRecord := by
  unfold contextLog
  exact splitInclusive_flatten fun _ hrec =>
    eq_of_mem_replicate hrec ▸ isLine_contextRecord

theorem terminated_contextLog : Terminated isNewline contextLog := by
  unfold contextLog
  exact terminated_flatten fun _ hrec =>
    eq_of_mem_replicate hrec ▸ isLine_contextRecord

theorem contextLog_ne_nil : contextLog ≠ [] := by
  intro hemp
  have hlns := splitInclusive_contextLog
  rw [hemp] at hlns
  cases hlns

theorem length_contextLog : contextLog.length ≤ providerLogBatchBytes := by
  unfold contextLog
  rw [length_flatten, map_replicate, sum_replicate_nat]
  exact Nat.le_trans (Nat.mul_le_mul_left _ length_contextRecord) (by decide)

theorem readRecords_whole (hcurs : state.committedOffset = 0)
    (hend : readableEnd state bytes.length = bytes.length) (hne : bytes ≠ [])
    (htrmd : Terminated isNewline bytes) (hlen : bytes.length ≤ providerLogBatchBytes) :
    readRecords bytes state = .complete bytes bytes.length := by
  have hwin : bytes.take (min bytes.length providerLogBatchBytes) = bytes := by
    rw [Nat.min_eq_left hlen, take_length]
  have hlast : lastNewline bytes = some bytes.length := by
    have hcompl := le_completeEnd (boundary_length htrmd) (Nat.le_refl _)
    have hle := completeEnd_le bytes
    unfold completeEnd at hcompl hle
    have hpos := length_pos_iff.2 hne
    cases hlns : lastNewline bytes with
    | none =>
      rw [hlns, Option.getD_none] at hcompl
      omega
    | some completeLen =>
      rw [hlns, Option.getD_some] at hcompl hle
      rw [Nat.le_antisymm hle hcompl]
  unfold readRecords
  dsimp only
  rw [hcurs, hend, drop_zero, Nat.sub_zero, hwin, hlast]

/-- What the contexts are refused with. -/
def contextReason : String :=
  "provider_log_normalization_state_limit: " ++ "provider transcript pending-event limit exceeded"

/-- The state of a log that was observed when it was empty and that nothing was read of. -/
def contextState (anchor : ProviderLogContinuityAnchor) (status : String) (reason : Option String) :
    ProviderLogCaptureState :=
  (firstState (sampleFile []) "codex:one" 0 anchor false "pending").report status reason

theorem openedState_context {anchor : ProviderLogContinuityAnchor}
    (h : readAnchor env bytes 0 = .ok anchor) : openedState env (sampleFile bytes) "codex:one" none
      true = some (contextState anchor "pending" none) :=
  openedState_none h

theorem normalizeChatLinesWithState_error {env : Env} {sessionId error : String} {lines : List String}
    (h : normalizeLines env sessionId "codex" true lines .fresh = .error error) :
    normalizeChatLinesWithState env sessionId "codex" lines .fresh false true = .error error := by
  unfold normalizeChatLinesWithState
  rw [show normalizeProvider "codex" = "codex" by decide]
  dsimp only
  rw [show TranscriptNormalizationState.fresh.forProvider "codex" = .fresh from rfl, h]

theorem contextLog_refused (anchor : ProviderLogContinuityAnchor) (status : String)
    (reason : Option String) (previous : Option ProviderLogCaptureState) :
    acquireFrom contextEnv "agent" "codex" contextLog previous (contextState anchor status reason) =
      .ok (stillBatch previous (contextState anchor "incomplete" (some contextReason))) := by
  have htrmd := terminated_contextLog
  have hne := contextLog_ne_nil
  have hrdbl : ∀ fileLen, readableEnd (contextState anchor status reason) fileLen = fileLen :=
    fun fileLen => Nat.min_self fileLen
  have hend : ∀ fileLen, disabledEndAtCursor
      (contextState anchor status reason).resetAtBoundary fileLen = none := fun _ => rfl
  have hread : readRecords contextLog (contextState anchor status reason) =
      .complete contextLog contextLog.length :=
    readRecords_whole rfl (hrdbl _) hne htrmd length_contextLog
  have hval : ∀ record ∈ splitInclusive isNewline contextLog, ValidRecord contextEnv record := by
    have hfst : Boundary isNewline contextLog 0 := fun _ hpos _ => absurd hpos (by decide)
    have hslice : slice contextLog 0 contextLog.length = contextLog := by
      rw [slice, drop_zero, Nat.sub_zero, take_length]
    have hrecs := contextLog_valid.records hfst (Nat.zero_le _) (Nat.le_refl contextLog.length)
    rw [hslice] at hrecs
    exact hrecs htrmd
  have hpar := parseRecords_of_valid htrmd hval
  rw [splitInclusive_contextLog, map_replicate, lineText_contextRecord] at hpar
  have hwtng : Waiting .fresh 0 := ⟨rfl, rfl, rfl, rfl⟩
  have hlns := @Waiting.normalizeLines _ _ hwtng (maxPendingNormalizedEvents + 1)
    (Nat.zero_le _) (by omega)
  have hnrmz := normalizeChatLinesWithState_error hlns
  have hidle : ¬(contextState anchor status reason).resetAtBoundary.committedOffset =
      contextLog.length := by
    intro hemp
    exact hne (length_eq_zero_iff.1 hemp.symm)
  rw [← @take_length _ contextLog] at hpar
  exact acquireFrom_refused (hend _) hidle hread hpar hnrmz

/-- **A valid log may stay where it is**: too many contexts wait for their request, or logging was
disabled and enabled in the middle of a record. -/
theorem consumed_stuck :
    (∃ σ, Reaches contextEnv "agent" "codex" "codex:one" (Terminated isNewline) σ ∧
      Stuck contextEnv "agent" "codex" "codex:one" σ) ∧
    ∃ σ, Reaches sampleEnv "agent" "pi" "pi:one" (fun _ => True) σ ∧
      Stuck sampleEnv "agent" "pi" "pi:one" σ := by
  refine ⟨?_, sample_split⟩
  obtain ⟨anchor, hanc⟩ := exists_readAnchor contextEnv (Nat.zero_le contextLog.length)
  have hinit : Reaches contextEnv "agent" "codex" "codex:one" (Terminated isNewline)
      ⟨sampleFile contextLog, none, []⟩ := .initial _
  have hopnd := openedState_context hanc
  obtain ⟨lines, hread⟩ : ∃ lines, Reaches contextEnv "agent" "codex" "codex:one"
      (Terminated isNewline) ⟨sampleFile contextLog,
        some (contextState anchor "incomplete" (some contextReason)), lines⟩ :=
    ⟨_, hinit.acquired hopnd (contextLog_refused anchor "pending" none none) nofun⟩
  have hlen : 0 < contextLog.length := length_pos_iff.2 contextLog_ne_nil
  have hend := le_completeEnd (boundary_length terminated_contextLog) (Nat.le_refl _)
  have hcurs : 0 < completeEnd contextLog := Nat.lt_of_lt_of_le hlen hend
  have hstl := hread.iterate_still rfl
    (contextLog_refused anchor "incomplete" (some contextReason) _)
  exact ⟨_, hread, contextLog_valid, _, rfl, rfl, hcurs, hstl⟩

end Wardian.ProviderLog
