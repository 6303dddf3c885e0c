/-
What one call reads.

A window ends with its last newline; a record that is longer than a window is read on to its first
one.  Either way a call takes lines, all of them before the next disabled span, and it takes some
whenever there is one at the cursor that is not too long.

Main results:

* `readRecords_complete` — the complete records of a window are lines;
* `exists_readRecords` — there are some when a record is complete and not too long;
* `parseRecords_lines` — what is handed on are the texts of the lines;
* `outcome_of_acquireFrom` — what a call does is one of four things.
-/

import Wardian.ProviderLog.Acquisition

set_option autoImplicit false

namespace Wardian.ProviderLog

open Utf8
open List
open Lines

/-! ### Windows -/

variable {bytes : List UInt8} {i : Nat}

theorem terminated_take {byte : UInt8} (h : bytes[i]? = some byte)
    (hnl : isNewline byte = true) : Terminated isNewline (bytes.take (i + 1)) := by
  intro last hlast
  rw [take_add_one, h, Option.toList_some, getLast?_concat] at hlast
  exact Option.some.inj hlast ▸ hnl

variable {completeLen : Nat}

theorem lastNewline_eq_some
    (h : lastNewline bytes = some completeLen) : 0 < completeLen ∧ completeLen ≤ bytes.length ∧
      Terminated isNewline (bytes.take completeLen) := by
  obtain ⟨i, hi, rfl⟩ := Option.map_eq_some_iff.1 h
  obtain ⟨hlt, hnl, -⟩ := findIdx?_eq_some_iff_getElem.1 hi
  have hlen := hlt
  rw [length_reverse] at hlen
  rw [getElem_reverse] at hnl
  refine ⟨by omega, by omega, ?_⟩
  have hwthn : bytes.length - 1 - i < bytes.length := by omega
  have hget := getElem?_eq_getElem hwthn
  have htrmd := terminated_take hget hnl
  rwa [show bytes.length - 1 - i + 1 = bytes.length - i by omega] at htrmd

theorem lastNewline_eq_none : lastNewline bytes = none ↔ ∀ byte ∈ bytes, isNewline byte = false := by
  rw [lastNewline, Option.map_eq_none_iff, findIdx?_eq_none_iff]
  simp only [mem_reverse]

variable {available : List UInt8}

theorem getElem?_chunk {start len : Nat} (hi : i < len) :
    ((available.drop start).take len)[i]? = available[start + i]? := by
  rw [getElem?_take_of_lt hi, getElem?_drop]

/-- What is read on ends with a newline, before the place where reading stops. -/
theorem extendRecord_complete {remaining bufferedLen : Nat}
    (h : extendRecord available remaining bufferedLen = .complete bytes completeLen) :
    0 < completeLen ∧ completeLen ≤ remaining ∧ completeLen ≤ available.length ∧
      bytes = available.take completeLen ∧ Terminated isNewline bytes := by
  induction bufferedLen using extendRecord.induct available remaining with
  | case1 bufferedLen hlim =>
    rw [extendRecord, if_pos hlim] at h
    cases h
  | case2 bufferedLen hlim hrmng =>
    rw [extendRecord, if_neg hlim, if_pos hrmng] at h
    cases h
  | case3 bufferedLen hlim hrmng readLen chunk hemp =>
    rw [extendRecord, if_neg hlim, if_neg hrmng, dif_pos hemp] at h
    cases h
  | case4 bufferedLen hlim hrmng readLen chunk hemp index hidx =>
    rw [extendRecord, if_neg hlim, if_neg hrmng, dif_neg hemp, hidx] at h
    obtain ⟨rfl, rfl⟩ := RecordRead.complete.inj h
    obtain ⟨hlt, hnl, -⟩ := findIdx?_eq_some_iff_getElem.1 hidx
    have hlen : chunk.length = min readLen (available.length - bufferedLen) := by
      rw [length_take, length_drop]
    have hread : readLen ≤ remaining - bufferedLen :=
      Nat.le_trans (Nat.min_le_left _ _) (Nat.min_le_left _ _)
    have hget : available[bufferedLen + index]? = some chunk[index] := by
      rw [← getElem?_eq_getElem hlt]
      exact (getElem?_chunk (by omega)).symm
    exact ⟨Nat.succ_pos _, by omega, by omega, rfl, terminated_take hget hnl⟩
  | case5 bufferedLen hlim hrmng readLen chunk hemp hnone ih =>
    rw [extendRecord, if_neg hlim, if_neg hrmng, dif_neg hemp, hnone] at h
    exact ih h

theorem extendRecord_of_newline {remaining bufferedLen : Nat} {byte : UInt8}
    (hbuff : bufferedLen ≤ i) (hrmng : i < remaining) (hlim : i < providerLogMaxRecordBytes)
    (hbyte : available[i]? = some byte) (hnl : isNewline byte = true) :
    ∃ bytes completeLen, extendRecord available remaining bufferedLen = .complete bytes completeLen := by
  have hi : i < available.length := (List.getElem?_eq_some_iff.1 hbyte).1
  induction bufferedLen using extendRecord.induct available remaining with
  | case1 bufferedLen hover | case2 bufferedLen _ hover => omega
  | case3 bufferedLen hover hstop readLen chunk hemp =>
    have hlen := congrArg List.length hemp
    rw [length_take, length_drop, length_nil] at hlen
    have hread : 0 < readLen := by
      refine Nat.lt_min.2 ⟨Nat.lt_min.2 ⟨by omega, by decide⟩, by omega⟩
    omega
  | case4 bufferedLen hover hstop readLen chunk hemp index hidx =>
    rw [extendRecord, if_neg hover, if_neg hstop, dif_neg hemp, hidx]
    exact ⟨_, _, rfl⟩
  | case5 bufferedLen hover hstop readLen chunk hemp hnone ih =>
    rw [extendRecord, if_neg hover, if_neg hstop, dif_neg hemp, hnone]
    refine ih ?_
    -- the newline is not in the piece that was read
    by_contra hins
    have hlen : chunk.length ≤ readLen := length_take_le _ _
    have hget : chunk[i - bufferedLen]? = some byte := by
      rw [getElem?_chunk (by omega), Nat.add_sub_cancel' hbuff, hbyte]
    rw [findIdx?_eq_none_iff.1 hnone byte (mem_of_getElem? hget)] at hnl
    cases hnl

variable {file : List UInt8} {state : ProviderLogCaptureState}

/-- **The complete records of a window are lines** at the cursor, before the next disabled span. -/
theorem readRecords_complete (h : readRecords file state = .complete bytes completeLen) :
    0 < completeLen ∧ state.committedOffset + completeLen ≤ readableEnd state file.length ∧
      state.committedOffset + completeLen ≤ file.length ∧
      bytes.take completeLen =
        slice file state.committedOffset (state.committedOffset + completeLen) ∧
      Terminated isNewline (bytes.take completeLen) := by
  unfold readRecords at h
  dsimp only at h
  rw [slice, Nat.add_sub_cancel_left]
  split at h
  · rename_i len hlen
    obtain ⟨rfl, rfl⟩ := RecordRead.complete.inj h
    obtain ⟨hpos, hle, htrmd⟩ := lastNewline_eq_some hlen
    rw [length_take, length_drop] at hle
    refine ⟨hpos, by omega, by omega, ?_, htrmd⟩
    rw [take_take, Nat.min_eq_left (by omega)]
  · obtain ⟨hpos, hrmng, hle, rfl, htrmd⟩ := extendRecord_complete h
    rw [length_drop] at hle
    refine ⟨hpos, by omega, by omega, ?_, ?_⟩
    · rw [take_take, Nat.min_self]
    · rwa [take_take, Nat.min_self]

/-- **There are some** when there is a newline that is not too far. -/
theorem exists_readRecords {i : Nat} {byte : UInt8}
    (hi : state.committedOffset + i < readableEnd state file.length) (hlim : i < providerLogMaxRecordBytes)
    (hbyte : file[state.committedOffset + i]? = some byte) (hnl : isNewline byte = true) :
    ∃ bytes completeLen, readRecords file state = .complete bytes completeLen := by
  have hdrop : (file.drop state.committedOffset)[i]? = some byte := by
    rw [getElem?_drop, hbyte]
  unfold readRecords
  dsimp only
  split
  · exact ⟨_, _, rfl⟩
  · rename_i hnone
    refine extendRecord_of_newline ?_ (by omega) hlim hdrop hnl
    -- the newline is behind the window
    by_contra hins
    rw [length_take] at hins
    have hget : ((file.drop state.committedOffset).take (min (readableEnd state file.length -
        state.committedOffset) providerLogBatchBytes))[i]? = some byte := by
      rw [getElem?_take_of_lt (by omega), hdrop]
    rw [lastNewline_eq_none.1 hnone byte (mem_of_getElem? hget)] at hnl
    cases hnl

/-! ### Lines -/

/-- The text of a line. -/
def lineText (line : List UInt8) : String :=
  String.ofList (stripLineEnding ((decode? line).getD []))

theorem isNewline_encode_end : ∀ c : Char, (c == '\n') = true →
    ∃ byte, String.utf8EncodeChar c = [byte] ∧ isNewline byte = true := by
  intro c hc
  rw [beq_iff_eq] at hc
  subst hc
  exact ⟨10, encodeChar_ascii (by decide), rfl⟩

theorem isNewline_encode_other : ∀ c : Char, (c == '\n') = false →
    ∀ byte ∈ String.utf8EncodeChar c, isNewline byte = false := by
  intro c hc byte hbyte
  rw [beq_eq_false_iff_ne] at hc
  refine Bool.eq_false_iff.2 fun hnl => hc ?_
  have hten : byte = 10 := by simpa [isNewline] using hnl
  subst hten
  by_cases hascii : c.toNat < 128
  · rw [encodeChar_ascii hascii, mem_singleton] at hbyte
    have hnat := congrArg UInt8.toNat hbyte
    rw [UInt8.toNat_ofNat'] at hnat
    have hvl : c.toNat = 10 := by
      rw [Nat.mod_eq_of_lt (by omega)] at hnat
      exact hnat.symm
    exact Char.ext (UInt32.toNat_inj.1 hvl)
  · have hhigh := le_of_mem_encodeChar (Nat.not_lt.1 hascii) hbyte
    exact absurd hhigh (by decide)

variable {complete : List UInt8}

theorem lines_of_decode {text : List Char}
    (htrmd : Terminated isNewline complete) (htext : decode? complete = some text) :
    (Lines.lines text).map String.ofList = (splitInclusive isNewline complete).map lineText := by
  have henc := encode_of_decode? htext
  have hend : Terminated (· == '\n') text := by
    rw [← henc] at htrmd
    exact htrmd.of_flatMap (fun _ => String.utf8EncodeChar_ne_nil) isNewline_encode_other
  have hspl := splitInclusive_flatMap isNewline_encode_end isNewline_encode_other hend
  rw [← henc, show Utf8.encode text = text.flatMap String.utf8EncodeChar from rfl, hspl,
    Lines.lines, map_map, map_map]
  refine map_congr_left fun line _ => ?_
  rw [Function.comp_apply, Function.comp_apply, lineText,
    show line.flatMap String.utf8EncodeChar = Utf8.encode line from rfl, decode?_encode]
  rfl

variable {env : Env} {lines : List String}

/-- **What is handed on are the texts of the lines.** -/
theorem parseRecords_lines
    (htrmd : Terminated isNewline complete) (h : parseRecords env complete = .ok lines) :
    lines = (splitInclusive isNewline complete).map lineText := by
  unfold parseRecords at h
  split at h
  · cases h
  · rename_i text htext
    dsimp only at h
    split at h
    · cases h
    · rw [← lines_of_decode htrmd htext]
      exact (Except.ok.inj h).symm

/-- A record that is a text, and the text of a JSON object. -/
def ValidRecord (env : Env) (record : List UInt8) : Prop :=
  (∃ text, decode? record = some text) ∧
    ∃ members, env.parseJson (lineText record) = .ok (.object members)

theorem exists_encode {records : List (List UInt8)}
    (h : ∀ record ∈ records, ∃ text, decode? record = some text) :
    ∃ text, Utf8.encode text = records.flatten := by
  induction records with
  | nil => exact ⟨[], rfl⟩
  | cons record records ih =>
    obtain ⟨text, htext⟩ := h record (mem_cons_self ..)
    obtain ⟨later, hltr⟩ := ih fun other hoth => h other (mem_cons_of_mem _ hoth)
    refine ⟨text ++ later, ?_⟩
    rw [encode_append, encode_of_decode? htext, hltr, flatten_cons]

theorem invalidJsonLine_eq_none (h : ∀ line ∈ lines, ∃ value, env.parseJson line = .ok value) :
    invalidJsonLine env lines = none := by
  refine findSome?_eq_none_iff.2 fun line hline => ?_
  obtain ⟨value, hvl⟩ := h line.1 (fst_mem_of_mem_zipIdx (mem_of_mem_filter hline))
  rw [hvl]

theorem parseRecords_of_valid (htrmd : Terminated isNewline complete)
    (h : ∀ record ∈ splitInclusive isNewline complete, ValidRecord env record) :
    parseRecords env complete = .ok ((splitInclusive isNewline complete).map lineText) := by
  obtain ⟨text, henc⟩ := exists_encode fun record hrec => (h record hrec).1
  rw [flatten_splitInclusive] at henc
  have htext : decode? complete = some text := by rw [← henc, decode?_encode]
  have hlns := lines_of_decode htrmd htext
  have hvalues : invalidJsonLine env ((Lines.lines text).map String.ofList) = none := by
    refine invalidJsonLine_eq_none fun line hline => ?_
    rw [hlns] at hline
    obtain ⟨record, hrec, rfl⟩ := mem_map.1 hline
    obtain ⟨members, hmemb⟩ := (h record hrec).2
    exact ⟨_, hmemb⟩
  unfold parseRecords
  rw [htext]
  dsimp only
  rw [hvalues, hlns]

/-! ### Spans -/

/-- Logging was disabled when the byte was written. -/
def ProviderLogCaptureState.Disabled (state : ProviderLogCaptureState) (i : Nat) : Prop :=
  (∃ span ∈ state.disabledSpans, span.start ≤ i ∧ i < span.stop) ∨
    ∃ start ∈ state.openDisabledFrom, start ≤ i

variable {fileLen : Nat}

theorem disabledEndAtCursor_eq_some {disabledEnd : Nat}
    (h : disabledEndAtCursor state fileLen = some disabledEnd) :
    (∃ span ∈ state.disabledSpans, span.start ≤ state.committedOffset ∧
      state.committedOffset < span.stop ∧ disabledEnd = span.stop) ∨
    ((∃ start ∈ state.openDisabledFrom, start ≤ state.committedOffset) ∧ disabledEnd = fileLen) := by
  unfold disabledEndAtCursor at h
  rcases Option.or_eq_some_iff.1 h with hspan | ⟨-, hopen⟩
  · obtain ⟨span, hfind, rfl⟩ := Option.map_eq_some_iff.1 hspan
    have hcurs := find?_some hfind
    rw [Bool.and_eq_true, decide_eq_true_eq, decide_eq_true_eq] at hcurs
    exact .inl ⟨span, mem_of_find?_eq_some hfind, hcurs.1, hcurs.2, rfl⟩
  · obtain ⟨start, hstart, rfl⟩ := Option.map_eq_some_iff.1 hopen
    obtain ⟨hmem, hle⟩ := Option.filter_eq_some_iff.1 hstart
    exact .inr ⟨⟨start, hmem, of_decide_eq_true hle⟩, rfl⟩

theorem disabledEndAtCursor_eq_none (h : disabledEndAtCursor state fileLen = none) :
    ¬state.Disabled state.committedOffset := by
  unfold disabledEndAtCursor at h
  obtain ⟨hspan, hopen⟩ := Option.or_eq_none_iff.1 h
  rintro (⟨span, hmem, hstart, hstop⟩ | ⟨start, hmem, hstart⟩)
  · have hno := find?_eq_none.1 (Option.map_eq_none_iff.1 hspan) span hmem
    rw [Bool.and_eq_true, decide_eq_true_eq, decide_eq_true_eq] at hno
    exact hno ⟨hstart, hstop⟩
  · have hno := Option.filter_eq_none_iff.1 (Option.map_eq_none_iff.1 hopen) start hmem
    exact hno (decide_eq_true hstart)

/-- What the cursor passes was written while logging was disabled. -/
theorem disabled_of_disabledEndAtCursor {disabledEnd : Nat}
    (h : disabledEndAtCursor state fileLen = some disabledEnd) (hstart : state.committedOffset ≤ i)
    (hstop : i < disabledEnd) : state.Disabled i := by
  rcases disabledEndAtCursor_eq_some h with ⟨span, hmem, hle, -, rfl⟩ | ⟨⟨start, hmem, hle⟩, -⟩
  · exact .inl ⟨span, hmem, Nat.le_trans hle hstart, hstop⟩
  · exact .inr ⟨start, hmem, Nat.le_trans hle hstart⟩

theorem mem_nextDisabledStart {start : Nat} :
    start ∈ (((state.disabledSpans.filter (state.committedOffset < ·.stop)).map (·.start)) ++
      state.openDisabledFrom.toList).filter (fun start =>
        state.committedOffset ≤ start && start ≤ fileLen) ↔
    ((∃ span ∈ state.disabledSpans, state.committedOffset < span.stop ∧ span.start = start) ∨
      start ∈ state.openDisabledFrom) ∧ state.committedOffset ≤ start ∧ start ≤ fileLen := by
  simp only [mem_filter, mem_append, mem_map, Option.mem_toList, Option.mem_def,
    Bool.and_eq_true, decide_eq_true_eq, and_assoc]

theorem readableEnd_le_fileLen {fileLen : Nat} : readableEnd state fileLen ≤ fileLen :=
  Nat.min_le_right _ _

/-- Reading stops before every span that is in front of the cursor. -/
theorem readableEnd_le {fileLen start : Nat}
    (h : (∃ span ∈ state.disabledSpans, state.committedOffset < span.stop ∧ span.start = start) ∨
      start ∈ state.openDisabledFrom) (hcurs : state.committedOffset ≤ start) :
    readableEnd state fileLen ≤ start := by
  rcases Nat.lt_or_ge fileLen start with hlt | hle
  · exact Nat.le_trans readableEnd_le_fileLen (Nat.le_of_lt hlt)
  · have hmem := mem_nextDisabledStart.2 ⟨h, hcurs, hle⟩
    refine Nat.le_trans (Nat.min_le_left _ _) ?_
    unfold nextDisabledStart
    cases hmin : ((((state.disabledSpans.filter (state.committedOffset < ·.stop)).map (·.start)) ++
      state.openDisabledFrom.toList).filter fun start =>
        state.committedOffset ≤ start && start ≤ fileLen).min? with
    | none =>
      rw [min?_eq_none_iff.1 hmin] at hmem
      cases hmem
    | some least => exact (min?_eq_some_iff.1 hmin).2 start hmem

/-- Reading stops at the end of the log or where a span begins. -/
theorem readableEnd_cases {fileLen : Nat} : readableEnd state fileLen = fileLen ∨
    ((∃ span ∈ state.disabledSpans, state.committedOffset < span.stop ∧
        span.start = readableEnd state fileLen) ∨
      readableEnd state fileLen ∈ state.openDisabledFrom) ∧
    state.committedOffset ≤ readableEnd state fileLen := by
  unfold readableEnd
  cases hmin : nextDisabledStart state fileLen with
  | none => exact .inl (Nat.min_self _)
  | some least =>
    obtain ⟨hstart, hcurs, hle⟩ :=
      mem_nextDisabledStart.1 (min?_eq_some_iff.1 hmin).1
    rw [Option.getD_some, Nat.min_eq_left hle]
    exact .inr ⟨hstart, hcurs⟩

theorem not_disabled_of_lt_readableEnd (h : disabledEndAtCursor state fileLen = none)
    (hstart : state.committedOffset ≤ i) (hstop : i < readableEnd state fileLen) : ¬state.Disabled i := by
  have hcurs := disabledEndAtCursor_eq_none h
  rintro (⟨span, hmem, hle, hlt⟩ | ⟨start, hmem, hle⟩)
  · rcases Nat.lt_or_ge span.start state.committedOffset with hbef | hbeh
    · exact hcurs (.inl ⟨span, hmem, Nat.le_of_lt hbef, by omega⟩)
    · have hend := @readableEnd_le state fileLen _ (.inl ⟨span, hmem, by omega, rfl⟩) hbeh
      omega
  · rcases Nat.lt_or_ge start state.committedOffset with hbef | hbeh
    · exact hcurs (.inr ⟨start, hmem, Nat.le_of_lt hbef⟩)
    · have hend := @readableEnd_le state fileLen _ (.inr hmem) hbeh
      omega

/-! ### Calls -/

section Calls

variable {env : Env} {sessionId provider : String} {previous : Option ProviderLogCaptureState}
  {batch : ProviderLogBatch}

/-- The lines that a call hands to the normalizer, unless it refuses them. -/
def handedLines (env : Env) (sessionId provider : String) (file : List UInt8)
    (state : ProviderLogCaptureState) : List String :=
  let state := state.resetAtBoundary
  if (disabledEndAtCursor state file.length).isSome || state.committedOffset == file.length then []
  else
    match readRecords file state with
    | .stopped _ _ => []
    | .complete bytes completeLen =>
      match parseRecords env (bytes.take completeLen) with
      | .error _ => []
      | .ok lines =>
        match normalizeChatLinesWithState env sessionId provider lines state.normalizer false
          true with
        | .error _ => []
        | .ok _ => lines

/-- What a call may do with the state that belongs to the log, and the lines it hands on. -/
inductive Outcome (env : Env) (sessionId provider : String) (file : List UInt8)
    (previous : Option ProviderLogCaptureState) (state : ProviderLogCaptureState) :
    ProviderLogBatch → List String → Prop
  | still (status : String) (reason : Option String) :
      Outcome env sessionId provider file previous state
        (stillBatch previous (state.report status reason)) []
  | skipped {disabledEnd : Nat} {anchor : ProviderLogContinuityAnchor} (status : String)
      (hend : disabledEndAtCursor state file.length = some disabledEnd)
      (hanc : readAnchor env file disabledEnd = .ok anchor) (hstat : status ≠ "incomplete") :
      Outcome env sessionId provider file previous state
        { events := [], previous := previous
          next := { state with
            committedOffset := disabledEnd, continuityAnchor := anchor, normalizer := .fresh
            status := status, reason := some "provider_log_disabled_span_skipped" }
          consumedBytes := disabledEnd - state.committedOffset
          continueImmediately := decide (disabledEnd < file.length) } []
  | read {completeLen : Nat} {lines : List String} {events : List AgentChatEvent}
      {normalizer : TranscriptNormalizationState} {anchor : ProviderLogContinuityAnchor}
      (status : String) (reason : Option String) (continueImmediately : Bool)
      (hend : disabledEndAtCursor state file.length = none) (hpos : 0 < completeLen)
      (hstop : state.committedOffset + completeLen ≤ readableEnd state file.length)
      (htrmd : Terminated isNewline
        (slice file state.committedOffset (state.committedOffset + completeLen)))
      (hlns : lines = (splitInclusive isNewline
        (slice file state.committedOffset (state.committedOffset + completeLen))).map lineText)
      (hnrmz : normalizeChatLinesWithState env sessionId provider lines state.normalizer false
        true = .ok (events, normalizer))
      (hanc : readAnchor env file (state.committedOffset + completeLen) = .ok anchor)
      (hstat : status ≠ "incomplete") :
      Outcome env sessionId provider file previous state
        { events := events, previous := previous
          next := { state with
            committedOffset := state.committedOffset + completeLen, continuityAnchor := anchor
            normalizer := normalizer, status := status, reason := reason }
          consumedBytes := completeLen
          continueImmediately := continueImmediately } lines

theorem outcome_of_acquireFrom (h : acquireFrom env sessionId provider file previous state = .ok batch) :
    Outcome env sessionId provider file previous state.resetAtBoundary batch
      (handedLines env sessionId provider file state) := by
  unfold acquireFrom at h
  unfold handedLines
  dsimp only at h ⊢
  generalize state.resetAtBoundary = base at h ⊢
  cases hend : disabledEndAtCursor base file.length with
  | some disabledEnd =>
    simp only [hend] at h
    simp only [Option.isSome_some, Bool.true_or, if_true]
    unfold skipDisabled at h
    cases hanc : readAnchor env file disabledEnd with
    | error e =>
      rw [hanc] at h
      cases h
    | ok anchor =>
      rw [hanc] at h
      obtain rfl := Except.ok.inj h
      refine .skipped _ hend hanc ?_
      split <;> decide
  | none =>
    simp only [hend] at h
    simp only [Option.isSome_none, Bool.false_or, beq_iff_eq]
    by_cases hidle : base.committedOffset = file.length
    · rw [if_pos hidle] at h ⊢
      obtain rfl := Except.ok.inj h
      unfold idleBatch
      split
      · exact .still _ _
      · split <;> exact .still _ _
    · rw [if_neg hidle] at h ⊢
      cases hread : readRecords file base with
      | stopped status reason =>
        simp only [hread] at h ⊢
        obtain rfl := Except.ok.inj h
        exact .still _ _
      | complete bytes completeLen =>
        simp only [hread] at h ⊢
        unfold commitRecords at h
        obtain ⟨hpos, hstop, -, htake, htrmd⟩ := readRecords_complete hread
        cases hpar : parseRecords env (bytes.take completeLen) with
        | error reason =>
          simp only [hpar] at h ⊢
          obtain rfl := Except.ok.inj h
          exact .still _ _
        | ok lines =>
          simp only [hpar] at h ⊢
          cases hnrmz : normalizeChatLinesWithState env sessionId provider lines
              base.normalizer false true with
          | error error =>
            simp only [hnrmz] at h ⊢
            obtain rfl := Except.ok.inj h
            exact .still _ _
          | ok result =>
            obtain ⟨events, normalizer⟩ := result
            simp only [hnrmz] at h ⊢
            cases hanc : readAnchor env file (base.committedOffset + completeLen) with
            | error e =>
              rw [hanc] at h
              cases h
            | ok anchor =>
              rw [hanc] at h
              obtain rfl := Except.ok.inj h
              have hlns := parseRecords_lines htrmd hpar
              rw [htake] at htrmd hlns
              refine .read _ _ _ hend hpos hstop htrmd hlns hnrmz hanc ?_
              split <;> decide

theorem exists_readAnchor (env : Env) {bytes : List UInt8} {offset : Nat} (h : offset ≤ bytes.length) :
    ∃ anchor, readAnchor env bytes offset = .ok anchor := by
  have hlen := @length_slice _ bytes (offset - providerLogAnchorBytes) offset h
  unfold slice at hlen
  unfold readAnchor
  dsimp only
  rw [if_neg (not_not.2 hlen)]
  exact ⟨_, rfl⟩

/-- The state with its cursor elsewhere. -/
def ProviderLogCaptureState.moved (state : ProviderLogCaptureState) (committedOffset : Nat)
    (anchor : ProviderLogContinuityAnchor) (normalizer : TranscriptNormalizationState)
    (status : String) (reason : Option String) : ProviderLogCaptureState :=
  { state with
    committedOffset := committedOffset, continuityAnchor := anchor, normalizer := normalizer
    status := status, reason := reason }

theorem exists_skip {disabledEnd : Nat}
    (hend : disabledEndAtCursor state.resetAtBoundary file.length = some disabledEnd)
    (hbnd : disabledEnd ≤ file.length) :
    handedLines env sessionId provider file state = [] ∧
    ∃ batch anchor status reason,
      acquireFrom env sessionId provider file previous state = .ok batch ∧
      batch.next = state.resetAtBoundary.moved disabledEnd anchor .fresh status reason := by
  obtain ⟨anchor, hanc⟩ := exists_readAnchor env hbnd
  constructor
  · unfold handedLines
    simp only [hend, Option.isSome_some, Bool.true_or, if_true]
  · unfold acquireFrom
    simp only [hend]
    unfold skipDisabled
    rw [hanc]
    exact ⟨_, anchor, _, _, rfl, rfl⟩

/-- **Complete records are read**, when they can be parsed and the normalizer takes them. -/
theorem exists_read {bytes : List UInt8} {completeLen : Nat} {lines : List String}
    {events : List AgentChatEvent} {normalizer : TranscriptNormalizationState}
    (hend : disabledEndAtCursor state.resetAtBoundary file.length = none)
    (hidle : state.resetAtBoundary.committedOffset ≠ file.length)
    (hread : readRecords file state.resetAtBoundary = .complete bytes completeLen)
    (hpar : parseRecords env (bytes.take completeLen) = .ok lines)
    (hnrmz : normalizeChatLinesWithState env sessionId provider lines
      state.resetAtBoundary.normalizer false true = .ok (events, normalizer)) :
    handedLines env sessionId provider file state = lines ∧
    ∃ batch anchor status reason,
      acquireFrom env sessionId provider file previous state = .ok batch ∧
      batch.next = state.resetAtBoundary.moved
        (state.resetAtBoundary.committedOffset + completeLen) anchor normalizer status reason := by
  obtain ⟨-, -, hbnd, -⟩ := readRecords_complete hread
  obtain ⟨anchor, hanc⟩ := exists_readAnchor env hbnd
  constructor
  · unfold handedLines
    simp only [hend, Option.isSome_none, Bool.false_or, beq_iff_eq, if_neg hidle, hread, hpar,
      hnrmz]
  · unfold acquireFrom
    simp only [hend, if_neg hidle, hread]
    unfold commitRecords
    simp only [hpar, hnrmz]
    rw [hanc]
    exact ⟨_, anchor, _, _, rfl, rfl⟩

theorem acquireFrom_stopped {status reason : String}
    (hend : disabledEndAtCursor state.resetAtBoundary file.length = none)
    (hidle : ¬state.resetAtBoundary.committedOffset = file.length)
    (hread : readRecords file state.resetAtBoundary = .stopped status reason) :
    acquireFrom env sessionId provider file previous state =
      .ok (stillBatch previous (state.resetAtBoundary.report status (some reason))) := by
  unfold acquireFrom
  simp only [hend, if_neg hidle, hread]

variable {bytes : List UInt8}

theorem acquireFrom_invalid {completeLen : Nat} {reason : String}
    (hend : disabledEndAtCursor state.resetAtBoundary file.length = none)
    (hidle : ¬state.resetAtBoundary.committedOffset = file.length)
    (hread : readRecords file state.resetAtBoundary = .complete bytes completeLen)
    (hpar : parseRecords env (bytes.take completeLen) = .error reason) :
    acquireFrom env sessionId provider file previous state =
      .ok (incompleteBatch previous state.resetAtBoundary reason) := by
  unfold acquireFrom
  simp only [hend, if_neg hidle, hread]
  unfold commitRecords
  simp only [hpar]

theorem acquireFrom_refused {completeLen : Nat} {lines : List String}
    {error : String} (hend : disabledEndAtCursor state.resetAtBoundary file.length = none)
    (hidle : ¬state.resetAtBoundary.committedOffset = file.length)
    (hread : readRecords file state.resetAtBoundary = .complete bytes completeLen)
    (hpar : parseRecords env (bytes.take completeLen) = .ok lines)
    (hnrmz : normalizeChatLinesWithState env sessionId provider lines
      state.resetAtBoundary.normalizer false true = .error error) :
    acquireFrom env sessionId provider file previous state =
      .ok (incompleteBatch previous state.resetAtBoundary
        s!"provider_log_normalization_state_limit: {error}") := by
  unfold acquireFrom
  simp only [hend, if_neg hidle, hread]
  unfold commitRecords
  simp only [hpar, hnrmz]

/-- **A call returns**, when the spans are inside of the log. -/
theorem exists_acquireFrom (hspans : ∀ span ∈ state.resetAtBoundary.disabledSpans, span.stop ≤ file.length) :
    ∃ batch, acquireFrom env sessionId provider file previous state = .ok batch := by
  cases hend : disabledEndAtCursor state.resetAtBoundary file.length with
  | some disabledEnd =>
    have hbnd : disabledEnd ≤ file.length := by
      rcases disabledEndAtCursor_eq_some hend with ⟨span, hspan, -, -, rfl⟩ | ⟨-, rfl⟩
      · exact hspans span hspan
      · exact Nat.le_refl _
    obtain ⟨-, batch, -, -, -, hcall, -⟩ :=
      @exists_skip file state env sessionId provider previous _ hend hbnd
    exact ⟨batch, hcall⟩
  | none =>
    by_cases hidle : state.resetAtBoundary.committedOffset = file.length
    · unfold acquireFrom
      simp only [hend, if_pos hidle]
      exact ⟨_, rfl⟩
    · cases hread : readRecords file state.resetAtBoundary with
      | stopped status reason => exact ⟨_, acquireFrom_stopped hend hidle hread⟩
      | complete bytes completeLen =>
        cases hpar : parseRecords env (bytes.take completeLen) with
        | error reason => exact ⟨_, acquireFrom_invalid hend hidle hread hpar⟩
        | ok lines =>
          cases hnrmz : normalizeChatLinesWithState env sessionId provider lines
              state.resetAtBoundary.normalizer false true with
          | error error => exact ⟨_, acquireFrom_refused hend hidle hread hpar hnrmz⟩
          | ok result =>
            obtain ⟨-, batch, -, -, -, hcall, -⟩ :=
              @exists_read file state env sessionId provider previous _ _ _ _ _ hend hidle
                hread hpar hnrmz
            exact ⟨batch, hcall⟩

end Calls

end Wardian.ProviderLog
