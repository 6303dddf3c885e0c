/-
The cursor of a provider's log.

While the log is appended to, logging is disabled and enabled, and the log is read, the lines that
were handed to the normalizer are always those that stand before the cursor and were written while
logging was enabled.  A line begins at the first observation, behind a newline or where a disabled
span ends.  It does not matter in which windows the log was read, nor when.

Main results:

* `kept_firstState` — a log that is observed for the first time keeps it;
* `Kept.outcome`, `Kept.toggle`, `Kept.grow` — a call, a toggle and growth keep it.
-/

import Wardian.ProviderLog.Reading

set_option autoImplicit false

namespace Wardian.ProviderLog

open List
open Lines

/-! ### The lines of a log -/

/-- Where the log begins for us: what stands before it when it is first observed is not read unless
it is known that logging was enabled. -/
def ProviderLogCaptureState.baseline (state : ProviderLogCaptureState) : Nat :=
  state.unknownBeforeOffset.getD 0

/-- A line begins there. -/
def ProviderLogCaptureState.Begins (state : ProviderLogCaptureState) (bytes : List UInt8)
    (p : Nat) : Prop :=
  p = state.baseline ∨ Boundary isNewline bytes p ∨ ∃ span ∈ state.disabledSpans, span.stop = p

/-- A line before the cursor, every byte of which was written while logging was enabled. -/
structure ProviderLogCaptureState.Whole (state : ProviderLogCaptureState) (bytes : List UInt8)
    (p q : Nat) : Prop where
  baseline : state.baseline ≤ p
  cursor : q ≤ state.committedOffset
  line : IsLine isNewline (slice bytes p q)
  begins : state.Begins bytes p
  enabled : ∀ i, p ≤ i → i < q → ¬state.Disabled i

/-- The cursor stands at the beginning of the log, behind a newline, or behind a byte that was
written while logging was disabled. -/
def ProviderLogCaptureState.AtBoundary (state : ProviderLogCaptureState) (bytes : List UInt8) :
    Prop :=
  state.committedOffset = state.baseline ∨ Boundary isNewline bytes state.committedOffset ∨
    (0 < state.committedOffset ∧ state.Disabled (state.committedOffset - 1))

def texts (bytes : List UInt8) (places : List (Nat × Nat)) : List String :=
  places.map fun place => lineText (slice bytes place.1 place.2)

/-- What is left behind comes from the lines since a place, and no disabled span ends behind it and
up to the cursor. -/
def Fresh (env : Env) (sessionId provider : String) (bytes : List UInt8)
    (state : ProviderLogCaptureState) (places : List (Nat × Nat)) : Prop :=
  ∃ since ≤ state.committedOffset,
    state.normalizer = feed env sessionId provider .fresh
      (texts bytes (places.filter (since ≤ ·.1))) ∧
    (∀ span ∈ state.disabledSpans, span.stop ≤ since ∨ state.committedOffset < span.stop) ∧
    ∀ start ∈ state.openDisabledFrom, state.committedOffset ≤ start ∨ state.committedOffset ≤ since

/-- The same between two calls: an empty span may be at the cursor, where it has just been noted. -/
def Context (env : Env) (sessionId provider : String) (bytes : List UInt8)
    (state : ProviderLogCaptureState) (places : List (Nat × Nat)) : Prop :=
  ∃ since ≤ state.committedOffset,
    state.normalizer = feed env sessionId provider .fresh
      (texts bytes (places.filter (since ≤ ·.1))) ∧
    (∀ span ∈ state.disabledSpans, span.stop ≤ since ∨ state.committedOffset < span.stop ∨
      (span.start = state.committedOffset ∧ span.stop = state.committedOffset)) ∧
    ∀ start ∈ state.openDisabledFrom, state.committedOffset ≤ start ∨ state.committedOffset ≤ since

/-- What a captured log keeps: the lines that were handed on, and where they stand. -/
structure Kept (env : Env) (sessionId provider providerSourceKey : String) (file : ProviderLogFile)
    (lines : List String) (state : ProviderLogCaptureState) (places : List (Nat × Nat)) : Prop where
  source : state.providerSourceKey = providerSourceKey
  path : state.path = file.path
  identity : state.nativeIdentity = file.nativeIdentity
  baseline : state.baseline ≤ state.committedOffset
  bound : state.committedOffset ≤ file.bytes.length
  anchor : readAnchor env file.bytes state.committedOffset = .ok state.continuityAnchor
  spans : ∀ span ∈ state.disabledSpans, span.start ≤ span.stop ∧ span.stop ≤ file.bytes.length
  opened : ∀ start ∈ state.openDisabledFrom, start ≤ file.bytes.length
  cursor : state.AtBoundary file.bytes
  ordered : places.Pairwise fun p q => p.2 ≤ q.1
  whole : ∀ p q, (p, q) ∈ places ↔ state.Whole file.bytes p q
  handed : lines = texts file.bytes places
  context : Context env sessionId provider file.bytes state places

section Kept

variable {env : Env} {sessionId provider providerSourceKey : String} {file : ProviderLogFile}
  {lines : List String} {state : ProviderLogCaptureState} {places : List (Nat × Nat)}
  {bytes : List UInt8} {p q : Nat}

theorem ProviderLogCaptureState.Whole.lt (h : state.Whole bytes p q)
    (hbnd : state.committedOffset ≤ bytes.length) : p < q := by
  have hpos := h.line.length_pos
  rw [length_slice (Nat.le_trans h.cursor hbnd)] at hpos
  omega

theorem ProviderLogCaptureState.AtBoundary.not_inside (h : state.AtBoundary bytes)
    (hbasel : state.baseline ≤ p) (hstop : q ≤ bytes.length)
    (hline : IsLine isNewline (slice bytes p q)) (henbd : ∀ i, p ≤ i → i < q → ¬state.Disabled i)
    (hp : p < state.committedOffset) : q ≤ state.committedOffset := by
  by_contra hq
  rcases h with hbase | hnl | ⟨hpos, hdis⟩
  · omega
  · obtain ⟨last, hget⟩ : ∃ last, bytes[state.committedOffset - 1]? = some last :=
      ⟨_, getElem?_eq_getElem (by omega)⟩
    have hins := hline.not_isEnd hstop (by omega) (by omega) hget
    rw [hnl _ (by omega) hget] at hins
    cases hins
  · exact henbd _ (by omega) (by omega) hdis

/-! ### Anchors -/

variable {offset : Nat}

theorem readAnchor_append (h : offset ≤ bytes.length) (more : List UInt8) :
    readAnchor env (bytes ++ more) offset = readAnchor env bytes offset := by
  have hslice := @slice_append _ bytes (offset - providerLogAnchorBytes) offset h more
  unfold slice at hslice
  unfold readAnchor
  dsimp only
  rw [hslice]

variable {anchor : ProviderLogContinuityAnchor}

theorem anchorMatches_of_readAnchor
    (h : readAnchor env bytes offset = .ok anchor) : anchorMatches env bytes anchor = true := by
  unfold readAnchor at h
  dsimp only at h
  split at h
  · cases h
  · rename_i hlen
    obtain rfl := Except.ok.inj h
    simpa [anchorMatches] using hlen

theorem Kept.continuityFailure (h : Kept env sessionId provider providerSourceKey file lines state
    places) : continuityFailure env file providerSourceKey state = none := by
  unfold ProviderLog.continuityFailure
  rw [if_neg (by simp [h.source, h.path, h.identity]), if_neg (Nat.not_lt.2 h.bound),
    anchorMatches_of_readAnchor h.anchor]
  rfl

/-! ### Growth -/

variable {more : List UInt8}

theorem getElem?_append_of_le {i : Nat} (h : i ≤ bytes.length) (hpos : 0 < i) :
    (bytes ++ more)[i - 1]? = bytes[i - 1]? :=
  getElem?_append_left (by omega)

theorem boundary_append {i : Nat} (h : i ≤ bytes.length) :
    Boundary isNewline (bytes ++ more) i ↔ Boundary isNewline bytes i := by
  unfold Boundary
  refine forall_congr' fun last => forall_congr' fun hpos => ?_
  rw [getElem?_append_of_le h hpos]

theorem whole_append (hbnd : state.committedOffset ≤ bytes.length) :
    state.Whole (bytes ++ more) p q ↔ state.Whole bytes p q := by
  have hiff : ∀ {own : List UInt8}, state.Whole own p q ↔ (state.baseline ≤ p ∧
      q ≤ state.committedOffset) ∧ IsLine isNewline (slice own p q) ∧ state.Begins own p ∧
      ∀ i, p ≤ i → i < q → ¬state.Disabled i :=
    fun {_} => ⟨fun h => ⟨⟨h.1, h.2⟩, h.3, h.4, h.5⟩, fun h => ⟨h.1.1, h.1.2, h.2.1, h.2.2.1, h.2.2.2⟩⟩
  rw [hiff, hiff]
  refine and_congr_right fun hplc => ?_
  rw [slice_append (Nat.le_trans hplc.2 hbnd)]
  refine and_congr_right fun hline => ?_
  have hpos := hline.length_pos
  rw [length_slice (Nat.le_trans hplc.2 hbnd)] at hpos
  unfold ProviderLogCaptureState.Begins
  rw [boundary_append (by omega)]

theorem texts_append (h : ∀ place ∈ places, place.2 ≤ bytes.length) :
    texts (bytes ++ more) places = texts bytes places := by
  refine map_congr_left fun place hplc => ?_
  rw [slice_append (h place hplc)]

section

variable (h : Kept env sessionId provider providerSourceKey file lines state places)
include h

theorem Kept.grow (more : List UInt8) : Kept env sessionId provider providerSourceKey
      { file with bytes := file.bytes ++ more } lines state places := by
  have hlen : file.bytes.length ≤ (file.bytes ++ more).length := by simp
  have hplcs : ∀ place ∈ places, place.2 ≤ file.bytes.length := fun place hplc =>
    Nat.le_trans ((h.whole _ _).1 hplc).cursor h.bound
  refine ⟨h.source, h.path, h.identity, h.baseline, Nat.le_trans h.bound hlen, ?_, ?_, ?_, ?_,
    h.ordered, ?_, ?_, ?_⟩
  · rw [readAnchor_append h.bound, h.anchor]
  · exact fun span hspan => (h.spans span hspan).imp id fun hstop => Nat.le_trans hstop hlen
  · exact fun start hstart => Nat.le_trans (h.opened start hstart) hlen
  · exact h.cursor.imp id (.imp (boundary_append h.bound).2 id)
  · intro p q
    rw [h.whole, whole_append h.bound]
  · rw [texts_append hplcs, h.handed]
  · obtain ⟨since, hsince, hnrmr, hctx⟩ := h.context
    refine ⟨since, hsince, ?_, hctx⟩
    rw [texts_append fun place hplc => hplcs place (mem_of_mem_filter hplc), hnrmr]

/-! ### Calls -/

theorem Kept.report (status : String) (reason : Option String) :
    Kept env sessionId provider providerSourceKey file lines (state.report status reason) places :=
  ⟨h.source, h.path, h.identity, h.baseline, h.bound, h.anchor, h.spans, h.opened, h.cursor,
    h.ordered, fun p q => (h.whole p q).trans ⟨fun w => ⟨w.1, w.2, w.3, w.4, w.5⟩,
      fun w => ⟨w.1, w.2, w.3, w.4, w.5⟩⟩, h.handed, h.context⟩

/-- At the cursor nothing is left behind by the lines since the cursor. -/
theorem Kept.filter_places
    {since : Nat} (hsince : state.committedOffset ≤ since) : places.filter (since ≤ ·.1) = [] := by
  refine filter_eq_nil_iff.2 fun place hplc => ?_
  have hwhl := (h.whole place.1 place.2).1 hplc
  have hlt := hwhl.lt h.bound
  have hcurs := hwhl.cursor
  simp only [decide_eq_true_eq]
  omega

/-- What is left behind once the call has looked at the spans. -/
theorem Kept.reset :
    Kept env sessionId provider providerSourceKey file lines state.resetAtBoundary places ∧
      Fresh env sessionId provider file.bytes state.resetAtBoundary places := by
  unfold ProviderLogCaptureState.resetAtBoundary
  split
  · -- an empty span is at the cursor
    have hfrs : TranscriptNormalizationState.fresh = feed env sessionId provider .fresh
        (texts file.bytes (places.filter (state.committedOffset ≤ ·.1))) := by
      rw [h.filter_places (Nat.le_refl _)]
      rfl
    have hspans : ∀ span ∈ state.disabledSpans, span.stop ≤ state.committedOffset ∨
        state.committedOffset < span.stop := fun span _ => (Nat.lt_or_ge _ _).symm
    exact ⟨⟨h.source, h.path, h.identity, h.baseline, h.bound, h.anchor, h.spans, h.opened, h.cursor,
      h.ordered, fun p q => (h.whole p q).trans ⟨fun w => ⟨w.1, w.2, w.3, w.4, w.5⟩,
        fun w => ⟨w.1, w.2, w.3, w.4, w.5⟩⟩, h.handed, state.committedOffset, Nat.le_refl _, hfrs,
      fun span hspan => (hspans span hspan).imp id .inl, fun _ _ => .inr (Nat.le_refl _)⟩,
      state.committedOffset, Nat.le_refl _, hfrs, hspans, fun _ _ => .inr (Nat.le_refl _)⟩
  · rename_i hbdry
    refine ⟨h, ?_⟩
    obtain ⟨since, hsince, hnrmr, hspans, hopen⟩ := h.context
    refine ⟨since, hsince, hnrmr, fun span hspan => ?_, hopen⟩
    rcases hspans span hspan with hbef | hbeh | hemp
    · exact .inl hbef
    · exact .inr hbeh
    · refine absurd ?_ hbdry
      refine any_eq_true.2 ⟨span, hspan, ?_⟩
      simp [hemp]

theorem Kept.rooted :
    state.normalizer.Rooted (normalizeProvider provider) := by
  obtain ⟨since, -, hnrmr, -⟩ := h.context
  rw [hnrmr]
  exact rooted_fresh.feed _

theorem Kept.skip {disabledEnd : Nat} {status : String} {reason : Option String}
    (hend : disabledEndAtCursor state file.bytes.length = some disabledEnd)
    (hanc : readAnchor env file.bytes disabledEnd = .ok anchor) :
    Kept env sessionId provider providerSourceKey file lines
      { state with
        committedOffset := disabledEnd, continuityAnchor := anchor, normalizer := .fresh
        status := status, reason := reason } places ∧ state.committedOffset ≤ disabledEnd := by
  have hle : state.committedOffset ≤ disabledEnd ∧ disabledEnd ≤ file.bytes.length := by
    rcases disabledEndAtCursor_eq_some hend with ⟨span, hspan, -, hlt, rfl⟩ | ⟨-, rfl⟩
    · exact ⟨Nat.le_of_lt hlt, (h.spans span hspan).2⟩
    · exact ⟨h.bound, Nat.le_refl _⟩
  have hdis : ∀ i, state.committedOffset ≤ i → i < disabledEnd → state.Disabled i :=
    fun i hi hlt => disabled_of_disabledEndAtCursor hend hi hlt
  refine ⟨⟨h.source, h.path, h.identity, Nat.le_trans h.baseline hle.1, hle.2, hanc, h.spans,
    h.opened, ?_, h.ordered, fun p q => (h.whole p q).trans ⟨fun w => ?_, fun w => ?_⟩, h.handed,
    disabledEnd, Nat.le_refl _, ?_, fun span _ => ?_, fun _ _ => .inr (Nat.le_refl _)⟩, hle.1⟩
  · rcases Nat.eq_or_lt_of_le hle.1 with heq | hlt
    · have hcurs := h.cursor
      unfold ProviderLogCaptureState.AtBoundary at hcurs ⊢
      rw [heq] at hcurs
      exact hcurs
    · have hpos : 0 < disabledEnd := Nat.lt_of_le_of_lt (Nat.zero_le _) hlt
      exact .inr (.inr ⟨hpos, hdis (disabledEnd - 1) (by omega) (by omega)⟩)
  · exact ⟨w.1, Nat.le_trans w.2 hle.1, w.3, w.4, w.5⟩
  · refine ⟨w.1, ?_, w.3, w.4, w.5⟩
    -- the last byte of the line would be disabled
    have hlt := w.lt hle.2
    have hcurs : q ≤ disabledEnd := w.2
    by_contra hq
    exact w.5 (q - 1) (by omega) (by omega) (hdis (q - 1) (by omega) (by omega))
  · rw [h.filter_places hle.1]
    rfl
  · exact (Nat.lt_or_ge disabledEnd span.stop).symm.imp id .inl

theorem Kept.read {completeLen : Nat} {handed : List String} {events : List AgentChatEvent}
    {normalizer : TranscriptNormalizationState} {anchor : ProviderLogContinuityAnchor} {status : String}
    {reason : Option String}
    (hfrs : Fresh env sessionId provider file.bytes state places)
    (hend : disabledEndAtCursor state file.bytes.length = none) (hpos : 0 < completeLen)
    (hstop : state.committedOffset + completeLen ≤ readableEnd state file.bytes.length)
    (htrmd : Terminated isNewline
      (slice file.bytes state.committedOffset (state.committedOffset + completeLen)))
    (hlns : handed = (splitInclusive isNewline
      (slice file.bytes state.committedOffset (state.committedOffset + completeLen))).map lineText)
    (hnrmz : normalizeChatLinesWithState env sessionId provider handed state.normalizer false
      true = .ok (events, normalizer))
    (hanc : readAnchor env file.bytes (state.committedOffset + completeLen) = .ok anchor) :
    ∃ places', Kept env sessionId provider providerSourceKey file (lines ++ handed)
      { state with
        committedOffset := state.committedOffset + completeLen, continuityAnchor := anchor
        normalizer := normalizer, status := status, reason := reason } places' := by
  have hbnd : state.committedOffset + completeLen ≤ file.bytes.length :=
    Nat.le_trans hstop readableEnd_le_fileLen
  obtain ⟨pieces, hpieces⟩ : ∃ pieces, pieces = splitInclusive isNewline
      (slice file.bytes state.committedOffset (state.committedOffset + completeLen)) := ⟨_, rfl⟩
  have hflat : pieces.flatten =
      slice file.bytes state.committedOffset (state.committedOffset + completeLen) := by
    rw [hpieces, flatten_splitInclusive]
  have hall : ∀ piece ∈ pieces, IsLine isNewline piece := hpieces ▸ forall_isLine htrmd
  have hlen : pieces.flatten.length = completeLen := by
    rw [hflat, length_slice hbnd, Nat.add_sub_cancel_left]
  have hdrop : file.bytes.drop state.committedOffset =
      pieces.flatten ++ file.bytes.drop (state.committedOffset + completeLen) := by
    rw [hflat, slice, Nat.add_sub_cancel_left, ← drop_drop, take_append_drop]
  have hmem : ∀ p q, (p, q) ∈ Lines.places state.committedOffset pieces ↔
      state.committedOffset ≤ p ∧ q ≤ state.committedOffset + completeLen ∧
      IsLine isNewline (slice file.bytes p q) ∧
      (p = state.committedOffset ∨ Boundary isNewline file.bytes p) := by
    intro p q
    rw [mem_places hall hdrop h.bound, hlen]
  have hnew : texts file.bytes (Lines.places state.committedOffset pieces) = handed := by
    rw [hlns, ← hpieces, texts, ← map_slice_places hdrop, map_map, map_slice_places hdrop]
    rfl
  have haft : ∀ place ∈ Lines.places state.committedOffset pieces,
      state.committedOffset ≤ place.1 := fun place hplc => (places_bounds hplc).1
  have hcurs := disabledEndAtCursor_eq_none hend
  have henbd : ∀ i, state.committedOffset ≤ i → i < state.committedOffset + completeLen →
      ¬state.Disabled i := fun i hi hlt =>
    not_disabled_of_lt_readableEnd hend hi (Nat.lt_of_lt_of_le hlt hstop)
  -- spans in front of the cursor begin where reading stops, or later
  have hspans : ∀ span ∈ state.disabledSpans, state.committedOffset < span.stop →
      state.committedOffset + completeLen ≤ span.start := by
    intro span hspan hlt
    rcases Nat.lt_or_ge span.start state.committedOffset with hbef | hbeh
    · exact absurd (.inl ⟨span, hspan, Nat.le_of_lt hbef, hlt⟩) hcurs
    · exact Nat.le_trans hstop (readableEnd_le (.inl ⟨span, hspan, hlt, rfl⟩) hbeh)
  have hopen : ∀ start ∈ state.openDisabledFrom, state.committedOffset + completeLen ≤ start := by
    intro start hstart
    rcases Nat.lt_or_ge start state.committedOffset with hbef | hbeh
    · exact absurd (.inr ⟨start, hstart, Nat.le_of_lt hbef⟩) hcurs
    · exact Nat.le_trans hstop (readableEnd_le (.inr hstart) hbeh)
  have hbegs : state.Begins file.bytes state.committedOffset := by
    rcases h.cursor with hbase | hnl | ⟨hpos, ⟨span, hspan, hstart, hlt⟩ | ⟨start, hstart, hle⟩⟩
    · exact .inl hbase
    · exact .inr (.inl hnl)
    · refine .inr (.inr ⟨span, hspan, ?_⟩)
      by_contra hne
      exact hcurs (.inl ⟨span, hspan, by omega, by omega⟩)
    · exact absurd (.inr ⟨start, hstart, by omega⟩) hcurs
  refine ⟨places ++ Lines.places state.committedOffset pieces, h.source, h.path, h.identity,
    Nat.le_trans h.baseline (Nat.le_add_right _ _), hbnd, hanc, h.spans, h.opened, ?_, ?_, ?_,
    ?_, ?_⟩
  · refine .inr (.inl fun last _ hlast => htrmd last ?_)
    rw [getLast?_eq_getElem?, length_slice hbnd, Nat.add_sub_cancel_left,
      getElem?_slice _ (by omega), Option.mem_def, ← hlast]
    exact congrArg (file.bytes[·]?) (Nat.add_sub_assoc hpos _).symm
  · refine pairwise_append.2 ⟨h.ordered, pairwise_places _ _, ?_⟩
    intro before hbef after haft'
    exact Nat.le_trans ((h.whole _ _).1 hbef).cursor (haft after haft')
  · intro p q
    rw [mem_append, h.whole, hmem]
    constructor
    · rintro (w | ⟨hp, hq, hline, hbdry⟩)
      · exact ⟨w.1, Nat.le_trans w.2 (Nat.le_add_right _ _), w.3, w.4, w.5⟩
      · refine ⟨Nat.le_trans h.baseline hp, hq, hline, ?_, ?_⟩
        · rcases hbdry with rfl | hbdry
          · exact hbegs
          · exact .inr (.inl hbdry)
        · exact fun i hi hlt => henbd i (Nat.le_trans hp hi) (Nat.lt_of_lt_of_le hlt hq)
    · intro w
      have hq : q ≤ state.committedOffset + completeLen := w.2
      have hlt : p < q := w.lt hbnd
      rcases Nat.lt_or_ge p state.committedOffset with hbef | hbeh
      · exact .inl ⟨w.1, h.cursor.not_inside w.1 (Nat.le_trans hq hbnd) w.3 w.5 hbef, w.3, w.4,
          w.5⟩
      · refine .inr ⟨hbeh, hq, w.3, ?_⟩
        rcases w.4 with hbase | hbdry | ⟨span, hspan, hstopp⟩
        · have hbase' : p = state.baseline := hbase
          have := h.baseline
          exact .inl (by omega)
        · exact .inr hbdry
        · rcases Nat.eq_or_lt_of_le hbeh with heq | hfar
          · exact .inl heq.symm
          · have hstart := hspans span hspan (by omega)
            have hord := (h.spans span hspan).1
            omega
  · rw [h.handed, ← hnew, texts, texts, texts, map_append]
  · obtain ⟨since, hsince, hnrmr, hbef, -⟩ := hfrs
    refine ⟨since, Nat.le_trans hsince (Nat.le_add_right _ _), ?_, fun span hspan => ?_,
      fun start hstart => .inl (hopen start hstart)⟩
    · have hkeep : (Lines.places state.committedOffset pieces).filter (since ≤ ·.1) =
          Lines.places state.committedOffset pieces :=
        filter_eq_self.2 fun place hplc =>
          decide_eq_true (Nat.le_trans hsince (haft place hplc))
      rw [filter_append, hkeep, texts, map_append, feed_append]
      change normalizer = feed env sessionId provider (feed env sessionId provider .fresh
        (texts file.bytes (places.filter (since ≤ ·.1)))) (texts file.bytes _)
      rw [hnew, ← hnrmr]
      rcases normalizeChatLinesWithState_feed h.rooted handed with ⟨_, hfed⟩ | ⟨_, _, hfed, -⟩
      · rw [hfed] at hnrmz
        exact (Prod.mk.inj (Except.ok.inj hnrmz)).2.symm
      · rw [hfed] at hnrmz
        cases hnrmz
    · rcases hbef span hspan with hstopp | hlt
      · exact .inl hstopp
      · have hstart := hspans span hspan hlt
        have hord := (h.spans span hspan).1
        rcases Nat.eq_or_lt_of_le (Nat.le_trans hstart hord) with heq | hfar
        · exact .inr (.inr ⟨by simp only; omega, heq.symm⟩)
        · exact .inr (.inl hfar)

theorem Kept.outcome {previous : Option ProviderLogCaptureState} {batch : ProviderLogBatch}
    {handed : List String}
    (hfrs : Fresh env sessionId provider file.bytes state places)
    (hout : Outcome env sessionId provider file.bytes previous state batch handed) :
    (∃ places', Kept env sessionId provider providerSourceKey file (lines ++ handed) batch.next
      places') ∧ state.committedOffset ≤ batch.next.committedOffset := by
  cases hout with
  | still status reason =>
    refine ⟨⟨places, ?_⟩, Nat.le_refl _⟩
    rw [append_nil]
    exact h.report status reason
  | skipped status hend hanc hstat =>
    obtain ⟨hkept, hle⟩ := h.skip hend hanc
    refine ⟨⟨places, ?_⟩, hle⟩
    rw [append_nil]
    exact hkept
  | read status reason continueImmediately hend hpos hstop htrmd hlns hnrmz hanc
      hstat =>
      exact ⟨h.read hfrs hend hpos hstop htrmd hlns hnrmz hanc, Nat.le_add_right _ _⟩

/-! ### Toggles -/

/-- Spans are noted that end at the end of the log, or begin there. -/
theorem Kept.respan {spans : List ProviderLogDisabledSpan} {opened : Option Nat} {policyGeneration : Nat}
    (hold : ∀ span ∈ state.disabledSpans, span ∈ spans)
    (hspan : ∀ span ∈ spans, span ∈ state.disabledSpans ∨
      (span.start ∈ state.openDisabledFrom ∧ span.stop = file.bytes.length))
    (hopnd : ∀ start ∈ opened, start ∈ state.openDisabledFrom ∨ start = file.bytes.length)
    (hdis : ∀ i < file.bytes.length, state.Disabled i ↔
      ({ state with disabledSpans := spans, openDisabledFrom := opened } :
        ProviderLogCaptureState).Disabled i) :
    Kept env sessionId provider providerSourceKey file lines
      { state with
        disabledSpans := spans, openDisabledFrom := opened, policyGeneration := policyGeneration }
      places := by
  have hbnd := h.bound
  have hbegs : ∀ p < state.committedOffset, state.Begins file.bytes p ↔
      ({ state with disabledSpans := spans } : ProviderLogCaptureState).Begins file.bytes p := by
    refine fun p hp => or_congr_right (or_congr_right ⟨?_, ?_⟩)
    · rintro ⟨span, hmem, hstop⟩
      exact ⟨span, hold span hmem, hstop⟩
    · rintro ⟨span, hmem, hstop⟩
      rcases hspan span hmem with hmem | ⟨-, hend⟩
      · exact ⟨span, hmem, hstop⟩
      · omega
  refine ⟨h.source, h.path, h.identity, h.baseline, hbnd, h.anchor, fun span hmem => ?_,
    fun start hstart => ?_, ?_, h.ordered, fun p q => (h.whole p q).trans ⟨fun w => ?_, fun w => ?_⟩,
    h.handed, ?_⟩
  · rcases hspan span hmem with hmem | ⟨hstart, hstop⟩
    · exact h.spans span hmem
    · exact ⟨hstop ▸ h.opened _ hstart, Nat.le_of_eq hstop⟩
  · rcases hopnd start hstart with hstart | rfl
    · exact h.opened start hstart
    · exact Nat.le_refl _
  · refine h.cursor.imp id (.imp id ?_)
    rintro ⟨hpos, hbef⟩
    have hlt := Nat.lt_of_lt_of_le (Nat.sub_lt hpos Nat.one_pos) hbnd
    exact ⟨hpos, (hdis _ hlt).1 hbef⟩
  · have hlt := w.lt hbnd
    have hcurs := w.cursor
    exact ⟨w.1, w.2, w.3, (hbegs p (by omega)).1 w.4, fun i hi hiq hno =>
      w.5 i hi hiq ((hdis i (by omega)).2 hno)⟩
  · have hlt : p < q := w.lt hbnd
    have hcurs : q ≤ state.committedOffset := w.cursor
    exact ⟨w.1, w.2, w.3, (hbegs p (by omega)).2 w.4, fun i hi hiq hno =>
      w.5 i hi hiq ((hdis i (by omega)).1 hno)⟩
  · obtain ⟨since, hsince, hnrmr, hbef, hopen⟩ := h.context
    refine ⟨since, hsince, hnrmr, fun span hmem => ?_, fun start hstart => ?_⟩
    · rcases hspan span hmem with hmem | ⟨hstart, hstop⟩
      · exact hbef span hmem
      · have hle := h.opened _ hstart
        rcases hopen _ hstart with hah | hpsd
        · rcases Nat.eq_or_lt_of_le hbnd with heq | hlt
          · exact .inr (.inr ⟨by simp only; omega, by simp only; omega⟩)
          · exact .inr (.inl (by simp only; omega))
        · rcases Nat.eq_or_lt_of_le hbnd with heq | hlt
          · exact .inl (by omega)
          · exact .inr (.inl (by simp only; omega))
    · rcases hopnd start hstart with hstart | rfl
      · exact hopen start hstart
      · exact .inl hbnd

/-- **Up to the cursor nothing changes** when logging is disabled or enabled at the end of the log. -/
theorem Kept.toggle {next : ProviderLogCaptureState} {loggingEnabled : Bool}
    (htog : toggleLogging state file.bytes.length loggingEnabled = some next) :
    Kept env sessionId provider providerSourceKey file lines next places ∧
      next.committedOffset = state.committedOffset := by
  unfold toggleLogging at htog
  dsimp only at htog
  split at htog
  · split at htog
    · rename_i start hstart
      split at htog
      · cases htog
      · -- the open span is closed
        obtain rfl := Option.some.inj htog
        refine ⟨h.respan (fun span hmem => mem_append_left _ hmem) (fun span hmem => ?_)
          (fun start hstart => by cases hstart) fun i hi => ⟨?_, ?_⟩, rfl⟩
        · rcases mem_append.1 hmem with hmem | hmem
          · exact .inl hmem
          · rw [mem_singleton.1 hmem]
            exact .inr ⟨hstart, rfl⟩
        · rintro (⟨span, hmem, hspan⟩ | ⟨other, hoth, hle⟩)
          · exact .inl ⟨span, mem_append_left _ hmem, hspan⟩
          · obtain rfl := Option.some.inj (hstart.symm.trans hoth)
            exact .inl ⟨_, mem_append_right _ (mem_singleton_self _), hle, hi⟩
        · rintro (⟨span, hmem, hspan⟩ | ⟨other, hoth, -⟩)
          · rcases mem_append.1 hmem with hmem | hmem
            · exact .inl ⟨span, hmem, hspan⟩
            · obtain rfl := mem_singleton.1 hmem
              exact .inr ⟨start, hstart, hspan.1⟩
          · cases hoth
    · obtain rfl := Option.some.inj htog
      exact ⟨h, rfl⟩
  · split at htog
    · -- a span is opened
      rename_i hopen
      obtain rfl := Option.some.inj htog
      refine ⟨h.respan (fun _ hmem => hmem) (fun _ hmem => .inl hmem)
        (fun start hstart => .inr (Option.some.inj hstart).symm) fun i hi => ⟨?_, ?_⟩, rfl⟩
      · rintro (hspan | ⟨start, hstart, -⟩)
        · exact .inl hspan
        · rw [Option.isNone_iff_eq_none.1 hopen] at hstart
          cases hstart
      · rintro (hspan | ⟨start, hstart, hle⟩)
        · exact .inl hspan
        · have hend := Option.some.inj hstart
          omega
    · obtain rfl := Option.some.inj htog
      exact ⟨h, rfl⟩

end

/-- **A log that is observed for the first time.** -/
theorem kept_firstState {policyUnknown : Bool}
    {status : String} (hoffset : offset = if policyUnknown then file.bytes.length else 0)
    (hanc : readAnchor env file.bytes offset = .ok anchor) :
    Kept env sessionId provider providerSourceKey file []
      (firstState file providerSourceKey offset anchor policyUnknown status) [] := by
  have hbasel : (firstState file providerSourceKey offset anchor policyUnknown status).baseline =
      offset := by
    unfold ProviderLogCaptureState.baseline firstState
    rw [hoffset]
    cases policyUnknown <;> rfl
  have hbnd : offset ≤ file.bytes.length := by
    rw [hoffset]
    split
    · exact Nat.le_refl _
    · exact Nat.zero_le _
  refine ⟨rfl, rfl, rfl, Nat.le_of_eq hbasel, hbnd, hanc, nofun, nofun, .inl hbasel.symm,
    .nil, fun p q => ⟨nofun, fun w => ?_⟩, rfl, 0, Nat.zero_le _, rfl, nofun, nofun⟩
  have hlt := w.lt hbnd
  have hbase := w.baseline
  have hcurs : q ≤ offset := w.cursor
  omega

end Kept

end Wardian.ProviderLog
