/-
The output filter, whatever the pieces in which the output arrives.

A filter that drops the erases of the scrollback holds back what may be the beginning of one, and so
publishes the same bytes for every way of cutting the stream.  A filter that resets the parser holds back
nothing where a piece completes an erase: an erase that begins behind it in the same piece, and ends in a
later one, goes unnoticed unless that piece has an erase of its own.

Main results:

* `Terminal.processOutput_sink` — a session publishes and feeds what the sink does;
* `Terminal.faithful_iff` — when the filter is faithful.
-/

import Mathlib.Tactic.IntervalCases
import Wardian.Lib.Needle
import Wardian.Terminal.Effects

set_option autoImplicit false

namespace Wardian.Terminal

open Needle
open Option
open List
open TerminalSessionActor

/-! ### The search -/

def eraseNeedle : Needle UInt8 :=
  { mark := 0x1b, body := [0x5b, 0x33, 0x4a], unmarked := by decide }

theorem text_eraseNeedle : eraseNeedle.text = eraseScrollbackSequence := rfl

theorem afterLastErase_eq (s : List UInt8) : afterLastErase s = eraseNeedle.afterLast s := by
  induction s with
  | nil => rfl
  | cons b s ih =>
    unfold afterLastErase afterLast
    rw [ih, text_eraseNeedle]
    cases eraseNeedle.afterLast s with
    | some rest => rfl
    | none =>
      dsimp only
      by_cases h : eraseScrollbackSequence <+: b :: s
      · rw [if_pos h, if_pos ( isPrefixOf_iff_prefix.2 h)]
      · rw [if_neg h, if_neg (fun h' => h ( isPrefixOf_iff_prefix.1 h'))]

theorem le_of_take_isSuffixOf (s : List UInt8) {n : Nat} (hn : n < 4) :
    (eraseScrollbackSequence.take n).isSuffixOf s = true →
      n ≤ (eraseNeedle.remainder s).length := by
  intro h
  have hpart : eraseNeedle.IsPart (eraseScrollbackSequence.take n) := by
    refine ⟨ take_prefix _ _, ?_⟩
    rw [length_take]
    exact Nat.lt_of_le_of_lt (Nat.min_le_left _ _) hn
  have hle := length_le_remainder hpart (isSuffixOf_iff_suffix.1 h)
  rw [length_take] at hle
  have hfour : eraseScrollbackSequence.length = 4 := rfl
  omega

theorem trailingSequencePrefixLen_eq (s : List UInt8) :
    trailingSequencePrefixLen s eraseScrollbackSequence = (eraseNeedle.remainder s).length := by
  have hpart := eraseNeedle.isPart_remainder s
  have hsuf := eraseNeedle.remainder_suffix s
  have hshort : (eraseNeedle.remainder s).length < 4 := hpart.2
  have htake : eraseScrollbackSequence.take (eraseNeedle.remainder s).length =
      eraseNeedle.remainder s := (prefix_iff_eq_take.1 hpart.1).symm
  have hlast : (eraseScrollbackSequence.take (eraseNeedle.remainder s).length).isSuffixOf s = true := by
    rw [htake]
    exact isSuffixOf_iff_suffix.2 hsuf
  have hrange : (range' 1 (eraseScrollbackSequence.length - 1)).reverse = [3, 2, 1] := rfl
  have hlonger := fun n hn => le_of_take_isSuffixOf s (n := n) hn
  unfold trailingSequencePrefixLen
  rw [hrange]
  generalize (eraseNeedle.remainder s).length = length at hshort hlast hlonger
  have hfls : ∀ n < 4, length < n → (eraseScrollbackSequence.take n).isSuffixOf s = false := by
    intro n hn hlt
    rw [← Bool.not_eq_true]
    intro h
    have := hlonger n hn h
    omega
  interval_cases length
  · rw [find?_cons, hfls 3 (by decide) (by decide), find?_cons,
      hfls 2 (by decide) (by decide), find?_cons, hfls 1 (by decide) (by decide)]
    rfl
  · rw [find?_cons, hfls 3 (by decide) (by decide), find?_cons,
      hfls 2 (by decide) (by decide), find?_cons, hlast]
    rfl
  · rw [find?_cons, hfls 3 (by decide) (by decide), find?_cons, hlast]
    rfl
  · rw [find?_cons, hlast]
    rfl

theorem stripErases_spec (fuel : Nat) : ∀ {s : List UInt8}, s.length ≤ fuel →
    (stripErases fuel s).1 ++ (stripErases fuel s).2 = eraseNeedle.without s ∧
      (stripErases fuel s).2 = eraseNeedle.remainder s := by
  induction fuel with
  | zero =>
    intro s hfuel
    rw [length_eq_zero_iff.1 (Nat.le_zero.1 hfuel)]
    exact ⟨by rw [Needle.without]; rfl, rfl⟩
  | succ fuel ih =>
    intro s hfuel
    cases s with
    | nil => exact ⟨by rw [Needle.without]; rfl, rfl⟩
    | cons b s =>
      rw [length_cons] at hfuel
      unfold stripErases
      by_cases hfnd : eraseNeedle.text <+: b :: s
      · have htrue : eraseScrollbackSequence.isPrefixOf (b :: s) = true :=
          isPrefixOf_iff_prefix.2 hfnd
        rw [if_pos htrue]
        obtain ⟨rest, hrest⟩ := hfnd
        have hlen := congrArg List.length hrest
        rw [length_append, length_cons] at hlen
        have hfour : eraseNeedle.text.length = 4 := rfl
        have hdrop : (b :: s).drop eraseScrollbackSequence.length = rest := by
          rw [← hrest]
          exact drop_left
        rw [hdrop, ← hrest, without_text_append, remainder_text_append]
        exact ih (by omega)
      · have hfls : ¬eraseScrollbackSequence.isPrefixOf (b :: s) = true :=
          fun h => hfnd ( isPrefixOf_iff_prefix.1 h)
        rw [if_neg hfls]
        by_cases hpart : eraseNeedle.IsPart (b :: s)
        · have hheld : (b :: s).length < eraseScrollbackSequence.length ∧
              (b :: s).isPrefixOf eraseScrollbackSequence = true :=
            ⟨hpart.2, isPrefixOf_iff_prefix.2 hpart.1⟩
          rw [if_pos hheld]
          exact ⟨(without_of_part hpart).symm, (remainder_of_part hpart).symm⟩
        · have hgone : ¬((b :: s).length < eraseScrollbackSequence.length ∧
              (b :: s).isPrefixOf eraseScrollbackSequence = true) :=
            fun h => hpart ⟨ isPrefixOf_iff_prefix.1 h.2, h.1⟩
          rw [if_neg hgone]
          obtain ⟨hwith, hrema⟩ := ih (s := s) (by omega)
          refine ⟨?_, ?_⟩
          · rw [without_cons hfnd, ← hwith]
            rfl
          · have hcons : eraseNeedle.remainder (b :: s) = eraseNeedle.remainder s := if_neg hpart
            rw [hcons]
            exact hrema

/-! ### The sink -/

/-- The filter with what it has published, and what the parser has been fed since it was reset. -/
structure Sink where
  outputFilter : TerminalOutputFilter
  published : List UInt8
  fed : List UInt8

namespace Sink

def start (ignoreScrollbackErase resetParserOnScrollbackErase : Bool) : Sink :=
  { outputFilter := TerminalOutputFilter.new ignoreScrollbackErase resetParserOnScrollbackErase
    published := []
    fed := [] }

def write (sink : Sink) (bytes : List UInt8) : Sink :=
  let (output, outputFilter) := sink.outputFilter.filter bytes
  { outputFilter := outputFilter
    published := sink.published ++ output.published
    fed := (if output.resetParser then [] else sink.fed) ++ output.parser }

def run (sink : Sink) (pieces : List (List UInt8)) : Sink := pieces.foldl write sink

end Sink

/-- The bytes that the parser has been fed since it was reset; the latest call comes first. -/
def fedBytes : List ParserCall → List UInt8
  | [] => []
  | .reset _ _ :: _ => []
  | .process bytes :: calls => fedBytes calls ++ bytes
  | .setSize _ _ :: calls => fedBytes calls

/-- The bytes that the events publish. -/
def outputBytes (events : List TerminalBrokerEvent) : List UInt8 :=
  events.flatMap fun event =>
    match event.event with
    | .output bytes => bytes
    | _ => []

/-- A session seen as a sink. -/
def TerminalSessionActor.sink (s : TerminalSessionActor) : Sink :=
  { outputFilter := s.outputFilter, published := outputBytes s.emitted, fed := fedBytes s.parser }

theorem flatten_chunksWith {n : Nat} (hn : 0 < n) (fuel : Nat) : ∀ {bytes : List UInt8},
    bytes.length ≤ fuel → (chunksWith n fuel bytes).flatten = bytes := by
  induction fuel with
  | zero =>
    intro bytes hfuel
    rw [length_eq_zero_iff.1 (Nat.le_zero.1 hfuel)]
    rfl
  | succ fuel ih =>
    intro bytes hfuel
    cases bytes with
    | nil => rfl
    | cons b bytes =>
      have hdrop : ((b :: bytes).drop n).length ≤ fuel := by
        rw [length_drop]
        omega
      unfold chunksWith
      rw [flatten_cons, ih hdrop, take_append_drop]

theorem flatten_chunks (bytes : List UInt8) : (chunks maxBatchBytes bytes).flatten = bytes :=
  flatten_chunksWith (by decide) _ (Nat.le_refl _)

theorem fedBytes_process (pieces : List (List UInt8)) (calls : List ParserCall) :
    fedBytes ((pieces.map ParserCall.process).reverse ++ calls) = fedBytes calls ++ pieces.flatten := by
  induction pieces generalizing calls with
  | nil => simp
  | cons piece pieces ih =>
    rw [map_cons, reverse_cons, append_assoc, ih, flatten_cons,
      ← append_assoc]
    rfl

theorem sink_foldl_emitEvent (pieces : List (List UInt8)) (s : TerminalSessionActor) :
    (pieces.foldl (fun s piece => s.emitEvent (.output piece)) s).sink =
      { s.sink with published := s.sink.published ++ pieces.flatten } := by
  induction pieces generalizing s with
  | nil => simp
  | cons piece pieces ih =>
    rw [foldl_cons, ih, flatten_cons]
    have hemit : (s.emitEvent (.output piece)).sink =
        { s.sink with published := s.sink.published ++ piece } := by
      unfold TerminalSessionActor.sink TerminalSessionActor.emitEvent outputBytes
      dsimp only
      rw [flatMap_append, flatMap_singleton]
    rw [hemit, append_assoc]

variable {bytes : List UInt8}

theorem resetParser_published {outputFilter : TerminalOutputFilter}
    (h : (outputFilter.filter bytes).1.resetParser = true) :
    (outputFilter.filter bytes).1.published = bytes := by
  unfold TerminalOutputFilter.filter at h ⊢
  split at h
  · rename_i hrst
    rw [if_pos hrst]
    dsimp only at h ⊢
    split <;> rfl
  · split at h
    · cases h
    · cases h

/-- The runtime is as it was. -/
def SameRuntime (s s' : TerminalSessionActor) : Prop :=
  s'.runtimeState = s.runtimeState ∧ s'.runtime = s.runtime ∧
    s'.runtimeGeneration = s.runtimeGeneration

theorem sameRuntime_foldl_emitEvent (pieces : List (List UInt8)) (s : TerminalSessionActor) :
    SameRuntime s (pieces.foldl (fun s piece => s.emitEvent (.output piece)) s) := by
  induction pieces generalizing s with
  | nil => exact ⟨rfl, rfl, rfl⟩
  | cons piece pieces ih => exact ih (s.emitEvent (.output piece))

theorem does_processOutput {s : TerminalSessionActor}
    (hlive : s.runtimeState = .live) (hrunt : s.runtime.isSome) (hbts : bytes ≠ []) :
    Does (processOutput s.runtimeGeneration bytes) s fun result s' =>
      result = .ok () ∧ s'.sink = s.sink.write bytes ∧ SameRuntime s s' := by
  have hbusy : ¬(s.runtimeState ≠ .live ∨ s.runtime.isNone = true) := by
    simp [hlive, isNone_eq_false_iff.2 hrunt]
  unfold Does
  simp only [processOutput, Calling.wp_bind, wp_ensureGeneration, Calling.wp_get, Calling.wp_ite,
    Calling.wp_fail, Calling.wp_pure, Calling.wp_modify]
  refine ⟨fun _ => ⟨fun h => absurd h hbusy, fun _ => ⟨fun h => absurd h hbts, fun _ => ⟨?_, ?_⟩⟩⟩,
    fun h => absurd trivial h⟩
  · rintro ⟨hpubd, hprsr⟩
    refine ⟨trivial, ?_, rfl, rfl, rfl⟩
    have hrst : (s.outputFilter.filter bytes).1.resetParser = false := by
      rw [← Bool.not_eq_true]
      intro h
      rw [resetParser_published h] at hpubd
      exact hbts hpubd
    unfold Sink.write TerminalSessionActor.sink
    dsimp only
    rw [hpubd, hprsr, hrst]
    simp
  · intro _
    refine ⟨trivial, ?_, sameRuntime_foldl_emitEvent _ _⟩
    rw [sink_foldl_emitEvent, flatten_chunks]
    unfold Sink.write TerminalSessionActor.sink
    dsimp only
    rw [fedBytes_process, flatten_chunks]
    split <;> rfl

/-- **A live session publishes and feeds what the sink does**, piece after piece. -/
theorem processOutput_sink {s : TerminalSessionActor} {pieces : List (List UInt8)}
    (hlive : s.runtimeState = .live) (hrunt : s.runtime.isSome) (hpieces : ∀ piece ∈ pieces, piece ≠ []) :
    Does (pieces.forM (processOutput s.runtimeGeneration)) s fun result s' =>
      result = .ok () ∧ s'.sink = s.sink.run pieces := by
  induction pieces generalizing s with
  | nil => exact ⟨rfl, rfl⟩
  | cons piece pieces ih =>
    change Calling.Wp anything (processOutput s.runtimeGeneration piece >>= fun _ =>
      pieces.forM (processOutput s.runtimeGeneration)) _ _ s ()
    rw [Calling.wp_bind]
    refine (does_processOutput hlive hrunt (hpieces piece mem_cons_self)).wp ?_ ?_
    · rintro _ s' ⟨-, hsink, hst, hsame, hgen⟩
      have hrest := ih (hst.trans hlive) (hsame ▸ hrunt) fun piece hpiece =>
        hpieces piece (mem_cons_of_mem _ hpiece)
      rw [hgen, hsink] at hrest
      exact hrest
    · rintro e s' ⟨herr, -⟩
      cases herr

/-- Three pieces, with an erase that is cut in two. -/
def cutPieces : List (List UInt8) := [[0x61, 0x1b, 0x5b], [0x33, 0x4a, 0x62], [0x63]]

def resettingActor : TerminalSessionActor :=
  .new "s" 1 0 (some ⟨.legacy, false, true⟩) ⟨24, 80⟩ []

/-- All is published, and what follows the erase is fed. -/
theorem processOutput_sink_sample :
    (Does (cutPieces.forM (processOutput 1)) resettingActor fun result s' =>
      result = .ok () ∧ s'.sink = resettingActor.sink.run cutPieces) ∧
    (resettingActor.sink.run cutPieces).published = cutPieces.flatten ∧
    (resettingActor.sink.run cutPieces).fed = [0x62, 0x63] :=
  ⟨processOutput_sink rfl rfl (by decide), by decide, by decide⟩

/-- The longest beginning of an erase with which the stream ends. -/
def IsRemainder (s pending : List UInt8) : Prop :=
  eraseNeedle.IsPart pending ∧ pending <:+ s ∧
    ∀ part, eraseNeedle.IsPart part → part <:+ s → part.length ≤ pending.length

/-- What follows the last erase of the stream, or the stream if it has none. -/
def IsRest (s rest : List UInt8) : Prop :=
  (rest = s ∨ ∃ before, s = before ++ eraseScrollbackSequence ++ rest) ∧
    ¬eraseScrollbackSequence <:+: rest

/-- Every piece reports a reset if and only if it completes an erase. -/
def ResetsExact : TerminalOutputFilter → List UInt8 → List (List UInt8) → Prop
  | _, _, [] => True
  | outputFilter, s, piece :: pieces =>
    ((outputFilter.filter piece).1.resetParser = true ↔ eraseNeedle.Completes s piece) ∧
      ResetsExact (outputFilter.filter piece).2 (s ++ piece) pieces

/-- Without erases: what is published and held back is the stream without them. -/
def StripExact (sink : Sink) (s : List UInt8) : Prop :=
  sink.published ++ sink.outputFilter.pending = eraseNeedle.without s ∧
    IsRemainder s sink.outputFilter.pending

/-- With resets: the stream is published, and what follows its last erase is fed or held back. -/
def FeedExact (sink : Sink) (s : List UInt8) : Prop :=
  sink.published = s ∧ IsRest s (sink.fed ++ sink.outputFilter.pending)

/-- The output of the filter does not depend on the pieces. -/
def Faithful (ignoreScrollbackErase resetParserOnScrollbackErase : Bool)
    (pieces : List (List UInt8)) : Prop :=
  (resetParserOnScrollbackErase = true →
    FeedExact ((Sink.start ignoreScrollbackErase true).run pieces) pieces.flatten ∧
      ResetsExact (TerminalOutputFilter.new ignoreScrollbackErase true) [] pieces) ∧
  (resetParserOnScrollbackErase = false → ignoreScrollbackErase = true →
    StripExact ((Sink.start true false).run pieces) pieces.flatten)

/-! ### Dropping the erases -/

variable {sink : Sink} {outputFilter : TerminalOutputFilter} {s piece : List UInt8}
  {pieces : List (List UInt8)}

theorem isRemainder_remainder (s : List UInt8) : IsRemainder s (eraseNeedle.remainder s) :=
  ⟨isPart_remainder s, remainder_suffix s,
    fun _ hpart hsuf => length_le_remainder hpart hsuf⟩

theorem filter_strip (hrst : outputFilter.resetParserOnScrollbackErase = false)
    (hignore : outputFilter.ignoreScrollbackErase = true) (piece : List UInt8) :
    outputFilter.filter piece =
      (⟨(stripErases (outputFilter.pending ++ piece).length (outputFilter.pending ++ piece)).1,
        (stripErases (outputFilter.pending ++ piece).length (outputFilter.pending ++ piece)).1, false⟩,
      { outputFilter with pending :=
          (stripErases (outputFilter.pending ++ piece).length (outputFilter.pending ++ piece)).2 }) := by
  unfold TerminalOutputFilter.filter
  rw [hrst, if_neg (by simp), hignore, if_pos rfl]

/-- A sink that drops the erases of a stream. -/
structure Strips (sink : Sink) (s : List UInt8) : Prop where
  strips : sink.outputFilter.resetParserOnScrollbackErase = false ∧
    sink.outputFilter.ignoreScrollbackErase = true
  published : sink.published ++ sink.outputFilter.pending = eraseNeedle.without s
  pending : sink.outputFilter.pending = eraseNeedle.remainder s

theorem strips_write (h : Strips sink s) (piece : List UInt8) : Strips (sink.write piece) (s ++ piece) := by
  obtain ⟨⟨hrst, hignore⟩, hpubd, hpend⟩ := h
  obtain ⟨done, hdone, hltr⟩ := eraseNeedle.without_append s.length (Nat.le_refl s.length)
  have hout : sink.published = done := by
    rw [hdone, hpend] at hpubd
    exact append_cancel_right hpubd
  have hspec := stripErases_spec (sink.outputFilter.pending ++ piece).length
    (Nat.le_refl (sink.outputFilter.pending ++ piece).length)
  unfold Sink.write
  rw [filter_strip hrst hignore]
  refine ⟨⟨hrst, hignore⟩, ?_, ?_⟩
  · dsimp only
    rw [append_assoc, hspec.1, hpend, hltr, hout]
  · dsimp only
    rw [hspec.2, hpend, remainder_remainder_append]

theorem strips_run (h : Strips sink s) (pieces : List (List UInt8)) :
    Strips (sink.run pieces) (s ++ pieces.flatten) := by
  induction pieces generalizing sink s with
  | nil =>
    rw [flatten_nil, append_nil]
    exact h
  | cons piece pieces ih =>
    rw [flatten_cons, ← append_assoc]
    exact ih (strips_write h piece)

/-- **A filter that drops the erases does so whatever the pieces.** -/
theorem stripExact_run (pieces : List (List UInt8)) :
    StripExact ((Sink.start true false).run pieces) pieces.flatten := by
  have hstart : Strips (Sink.start true false) [] :=
    ⟨⟨rfl, rfl⟩, by rw [Needle.without]; rfl, rfl⟩
  have hrun := strips_run hstart pieces
  rw [nil_append] at hrun
  refine ⟨hrun.published, ?_⟩
  rw [hrun.pending]
  exact isRemainder_remainder _

/-! ### Resetting the parser -/

/-- The stream after the part of an erase that nobody holds back: the pieces finish it, in one that has
no erase of its own. -/
def Missed : List UInt8 → List (List UInt8) → Prop
  | _, [] => False
  | part, piece :: pieces =>
    eraseScrollbackSequence <+: part ++ piece ∧ ¬eraseScrollbackSequence <:+: piece ∨
      eraseNeedle.IsPart (part ++ piece) ∧ Missed (part ++ piece) pieces

/-- No erase begins in a piece that completes another, and ends in a later one without an erase of its
own. -/
def Clean : List UInt8 → List (List UInt8) → Prop
  | _, [] => True
  | s, piece :: pieces =>
    (eraseNeedle.Completes s piece → eraseNeedle.remainder (s ++ piece) ≠ [] →
      ¬Missed (eraseNeedle.remainder (s ++ piece)) pieces) ∧ Clean (s ++ piece) pieces

theorem filter_found (hrst : outputFilter.resetParserOnScrollbackErase = true) {rest : List UInt8}
    (hfnd : eraseNeedle.afterLast (outputFilter.pending ++ piece) = some rest) :
    outputFilter.filter piece = (⟨piece, rest, true⟩, { outputFilter with pending := [] }) := by
  unfold TerminalOutputFilter.filter
  rw [if_pos hrst]
  dsimp only
  rw [afterLastErase_eq, hfnd]

theorem filter_none (hrst : outputFilter.resetParserOnScrollbackErase = true)
    (hnone : eraseNeedle.afterLast (outputFilter.pending ++ piece) = none) :
    ∃ parser, parser ++ eraseNeedle.remainder (outputFilter.pending ++ piece) =
        outputFilter.pending ++ piece ∧
      outputFilter.filter piece = (⟨piece, parser, false⟩,
        { outputFilter with pending := eraseNeedle.remainder (outputFilter.pending ++ piece) }) := by
  obtain ⟨parser, hprsr⟩ := eraseNeedle.remainder_suffix (outputFilter.pending ++ piece)
  refine ⟨parser, hprsr, ?_⟩
  have hkept : (outputFilter.pending ++ piece).length -
      (eraseNeedle.remainder (outputFilter.pending ++ piece)).length = parser.length := by
    have hlen := congrArg List.length hprsr
    rw [length_append] at hlen
    omega
  have htake : (outputFilter.pending ++ piece).take parser.length = parser := by
    conv_lhs => rw [← hprsr]
    exact take_left
  have hdrop : (outputFilter.pending ++ piece).drop parser.length =
      eraseNeedle.remainder (outputFilter.pending ++ piece) := by
    conv_lhs => rw [← hprsr]
    exact drop_left
  unfold TerminalOutputFilter.filter
  rw [if_pos hrst]
  dsimp only
  rw [afterLastErase_eq, hnone]
  dsimp only
  rw [trailingSequencePrefixLen_eq, hkept, htake, hdrop]

/-- What follows the last erase of a stream. -/
def restOf (s : List UInt8) : List UInt8 := (eraseNeedle.afterLast s).getD s

theorem isRest_restOf (s : List UInt8) : IsRest s (restOf s) := by
  unfold restOf
  cases haft : eraseNeedle.afterLast s with
  | none => exact ⟨.inl rfl, afterLast_eq_none_iff.1 haft⟩
  | some rest =>
    obtain ⟨hbef, hnot⟩ := afterLast_spec haft
    exact ⟨.inr hbef, hnot⟩

theorem restOf_append (s piece : List UInt8) :
    restOf (s ++ piece) =
      (eraseNeedle.afterLast (eraseNeedle.remainder s ++ piece)).getD (restOf s ++ piece) := by
  unfold restOf
  rw [afterLast_append, afterLast_append,
    remainder_of_part (isPart_remainder s),
    afterLast_of_part (isPart_remainder s)]
  cases eraseNeedle.afterLast piece with
  | some rest => rfl
  | none =>
    rw [none_or, none_or]
    split
    · rfl
    · cases eraseNeedle.afterLast s with
      | some rest => rfl
      | none => rfl

/-- The filter holds back what the stream may still need, or nothing while the pieces to come do not
finish an erase that has begun. -/
structure Holds (outputFilter : TerminalOutputFilter) (s : List UInt8) (pieces : List (List UInt8)) :
    Prop where
  resets : outputFilter.resetParserOnScrollbackErase = true
  pending : outputFilter.pending = eraseNeedle.remainder s ∨
    outputFilter.pending = [] ∧ eraseNeedle.remainder s ≠ [] ∧
      ¬Missed (eraseNeedle.remainder s) pieces

theorem completes_iff_afterLast (s piece : List UInt8) : eraseNeedle.Completes s piece ↔
    eraseNeedle.afterLast (eraseNeedle.remainder s ++ piece) ≠ none := by
  have happ := eraseNeedle.afterLast_append (eraseNeedle.remainder s) piece
  rw [remainder_of_part (isPart_remainder s),
    afterLast_of_part (isPart_remainder s)] at happ
  rw [completes_iff, happ, Ne, or_eq_none_iff, afterLast_eq_none_iff]
  by_cases hbegs : eraseNeedle.text <+: eraseNeedle.remainder s ++ piece
  · rw [if_pos hbegs]
    simp [hbegs]
  · rw [if_neg hbegs]
    simp [hbegs]

/-- What remains of a stream whose remainder was not held back. -/
theorem remainder_unheld (piece : List UInt8) (hne : eraseNeedle.remainder s ≠ []) :
    ¬eraseNeedle.IsPart (eraseNeedle.remainder s ++ piece) ∧
        eraseNeedle.remainder piece = eraseNeedle.remainder (s ++ piece) ∨
      eraseNeedle.remainder piece = [] ∧ eraseNeedle.IsPart (eraseNeedle.remainder s ++ piece) ∧
        eraseNeedle.remainder (s ++ piece) = eraseNeedle.remainder s ++ piece := by
  rw [remainder_append]
  split
  · rename_i hpart
    right
    refine ⟨remainder_of_unmarked ?_, hpart, rfl⟩
    obtain ⟨b, rest, hrest⟩ := exists_cons_of_ne_nil hne
    rw [hrest] at hpart
    exact fun hmem => hpart.unmarked.2 (mem_append_right _ hmem)
  · rename_i hpart
    exact .inl ⟨hpart, rfl⟩

/-- A part of an erase that goes on as a part is not missed before its end. -/
theorem not_missed_cons {part : List UInt8} (hnot : ¬eraseScrollbackSequence <+: part ++ piece)
    (hrest : eraseNeedle.IsPart (part ++ piece) → ¬Missed (part ++ piece) pieces) :
    ¬Missed part (piece :: pieces) := by
  rintro (⟨hbegs, -⟩ | ⟨hpart, hmissed⟩)
  · exact hnot hbegs
  · exact hrest hpart hmissed

/-- What a piece does to the filter: whether it reports a reset, what it feeds, what it holds back. -/
theorem filter_reset (hrst : outputFilter.resetParserOnScrollbackErase = true) (piece : List UInt8) :
    (outputFilter.filter piece).1.published = piece ∧
      (outputFilter.filter piece).2.resetParserOnScrollbackErase = true ∧
      ((outputFilter.filter piece).1.resetParser = true ↔
        eraseNeedle.afterLast (outputFilter.pending ++ piece) ≠ none) ∧
      (outputFilter.filter piece).2.pending =
        (if eraseNeedle.afterLast (outputFilter.pending ++ piece) = none then
          eraseNeedle.remainder (outputFilter.pending ++ piece) else []) ∧
      (outputFilter.filter piece).1.parser ++ (outputFilter.filter piece).2.pending =
        (eraseNeedle.afterLast (outputFilter.pending ++ piece)).getD
          (outputFilter.pending ++ piece) := by
  cases haft : eraseNeedle.afterLast (outputFilter.pending ++ piece) with
  | some rest =>
    rw [filter_found hrst haft]
    simp [hrst]
  | none =>
    obtain ⟨parser, hprsr, hfilt⟩ := filter_none hrst haft
    rw [hfilt]
    simp [hrst, hprsr]

/-- **A piece that is filtered while nothing is missed.** -/
theorem Holds.filter (h : Holds outputFilter s (piece :: pieces)) (hcln : Clean s (piece :: pieces)) :
    ((outputFilter.filter piece).1.resetParser = true ↔ eraseNeedle.Completes s piece) ∧
      Holds (outputFilter.filter piece).2 (s ++ piece) pieces ∧
      ∀ fed, fed ++ outputFilter.pending = restOf s →
        (if (outputFilter.filter piece).1.resetParser then [] else fed) ++
            (outputFilter.filter piece).1.parser ++ (outputFilter.filter piece).2.pending =
          restOf (s ++ piece) := by
  obtain ⟨-, hrsts, hrpt, hpend, hfeed⟩ := filter_reset h.resets piece
  -- A piece that ends with an erase that is found holds nothing back.
  have hfnd : eraseNeedle.afterLast (outputFilter.pending ++ piece) ≠ none →
      eraseNeedle.Completes s piece → Holds (outputFilter.filter piece).2 (s ++ piece) pieces := by
    intro hne hcomps
    rw [if_neg hne] at hpend
    refine ⟨hrsts, ?_⟩
    by_cases hnil : eraseNeedle.remainder (s ++ piece) = []
    · exact .inl (hpend.trans hnil.symm)
    · exact .inr ⟨hpend, hnil, hcln.1 hcomps hnil⟩
  rcases h.pending with hheld | ⟨hnil, hne, hmissed⟩
  · rw [hheld] at hrpt hpend hfeed hfnd
    have hcomps := completes_iff_afterLast s piece
    refine ⟨hrpt.trans hcomps.symm, ?_, ?_⟩
    · by_cases hnone : eraseNeedle.afterLast (eraseNeedle.remainder s ++ piece) = none
      · rw [if_pos hnone, remainder_remainder_append] at hpend
        exact ⟨hrsts, .inl hpend⟩
      · exact hfnd hnone (hcomps.2 hnone)
    · intro fed hfed
      rw [hheld] at hfed
      rw [restOf_append, ← hfed, append_assoc, hfeed]
      by_cases hnone : eraseNeedle.afterLast (eraseNeedle.remainder s ++ piece) = none
      · rw [if_neg fun h => hrpt.1 h hnone, hnone]
        simp
      · rw [if_pos (hrpt.2 hnone)]
        obtain ⟨rest, hrest⟩ := ne_none_iff_exists'.1 hnone
        rw [hrest]
        rfl
  · rw [hnil, nil_append] at hrpt hpend hfeed hfnd
    have hnot : eraseNeedle.afterLast piece = none →
        ¬eraseNeedle.text <+: eraseNeedle.remainder s ++ piece :=
      fun hnone hbegs => hmissed (.inl ⟨hbegs, afterLast_eq_none_iff.1 hnone⟩)
    have hcomps : eraseNeedle.Completes s piece ↔ eraseNeedle.afterLast piece ≠ none := by
      rw [completes_iff, Ne, afterLast_eq_none_iff, not_not]
      refine ⟨?_, .inl⟩
      rintro (hoccurs | hbegs)
      · exact hoccurs
      · by_contra hoccurs
        exact hnot (afterLast_eq_none_iff.2 hoccurs) hbegs
    refine ⟨hrpt.trans hcomps.symm, ?_, ?_⟩
    · by_cases hnone : eraseNeedle.afterLast piece = none
      · rw [if_pos hnone] at hpend
        refine ⟨hrsts, ?_⟩
        rcases remainder_unheld piece hne with ⟨-, hsame⟩ | ⟨hemp, hpart, hgr⟩
        · exact .inl (hpend.trans hsame)
        · refine .inr ⟨hpend.trans hemp, ?_, ?_⟩
          · rw [hgr]
            exact fun h => hne (append_eq_nil_iff.1 h).1
          · rw [hgr]
            exact fun hltr => hmissed (.inr ⟨hpart, hltr⟩)
      · exact hfnd hnone (hcomps.2 hnone)
    · intro fed hfed
      rw [hnil, append_nil] at hfed
      rw [restOf_append, ← hfed, append_assoc, hfeed, afterLast_append,
        remainder_of_part (isPart_remainder s),
        afterLast_of_part (isPart_remainder s)]
      by_cases hnone : eraseNeedle.afterLast piece = none
      · rw [if_neg fun h => hrpt.1 h hnone, hnone, none_or, if_neg (hnot hnone)]
        simp
      · rw [if_pos (hrpt.2 hnone)]
        obtain ⟨rest, hrest⟩ := ne_none_iff_exists'.1 hnone
        rw [hrest, some_or]
        rfl

theorem feed_run (sink : Sink) (hheld : Holds sink.outputFilter s pieces) (hcln : Clean s pieces)
    (hpubd : sink.published = s) (hfed : sink.fed ++ sink.outputFilter.pending = restOf s) :
    FeedExact (sink.run pieces) (s ++ pieces.flatten) ∧ ResetsExact sink.outputFilter s pieces := by
  induction pieces generalizing sink s with
  | nil =>
    rw [flatten_nil, append_nil]
    refine ⟨⟨hpubd, ?_⟩, trivial⟩
    change IsRest s (sink.fed ++ sink.outputFilter.pending)
    rw [hfed]
    exact isRest_restOf s
  | cons piece pieces ih =>
    obtain ⟨hrpt, hnext, hfeed⟩ := hheld.filter hcln
    have hpub := (filter_reset hheld.resets piece).1
    rw [flatten_cons, ← append_assoc]
    have hwrt : (sink.write piece).published = s ++ piece := by
      change sink.published ++ (sink.outputFilter.filter piece).1.published = s ++ piece
      rw [hpub, hpubd]
    obtain ⟨hexact, hrsts⟩ := ih (sink.write piece) hnext hcln.2 hwrt
      (hfeed sink.fed hfed)
    exact ⟨hexact, hrpt, hrsts⟩

theorem clean_of_resetsExact (hrst : outputFilter.resetParserOnScrollbackErase = true)
    (hpend : outputFilter.pending = eraseNeedle.remainder s ∨
      outputFilter.pending = [] ∧ eraseNeedle.remainder s ≠ []) (hexact : ResetsExact outputFilter s pieces) :
    Clean s pieces ∧ (outputFilter.pending = eraseNeedle.remainder s ∨
      ¬Missed (eraseNeedle.remainder s) pieces) := by
  induction pieces generalizing outputFilter s with
  | nil => exact ⟨trivial, .inr id⟩
  | cons piece pieces ih =>
    obtain ⟨-, hrsts, hrpt, hnext, -⟩ := filter_reset hrst piece
    obtain ⟨hhead, htail⟩ := hexact
    by_cases hnone : eraseNeedle.afterLast (outputFilter.pending ++ piece) = none
    · rw [if_pos hnone] at hnext
      have hnot : ¬eraseNeedle.Completes s piece := fun h => hrpt.1 (hhead.2 h) hnone
      have hbegs : ¬eraseScrollbackSequence <+: eraseNeedle.remainder s ++ piece :=
        fun h => hnot (completes_iff.2 (.inr h))
      rcases hpend with hheld | ⟨hnil, hne⟩
      · rw [hheld, remainder_remainder_append] at hnext
        obtain ⟨hcln, -⟩ := ih hrsts (.inl hnext) htail
        exact ⟨⟨fun h => absurd h hnot, hcln⟩, .inl hheld⟩
      · rw [hnil, nil_append] at hnext
        rcases remainder_unheld piece hne with ⟨hcut, hsame⟩ | ⟨hemp, hpart, hgr⟩
        · obtain ⟨hcln, -⟩ := ih hrsts (.inl (hnext.trans hsame)) htail
          exact ⟨⟨fun h => absurd h hnot, hcln⟩,
            .inr (not_missed_cons hbegs fun hpart => absurd hpart hcut)⟩
        · have hgrew : eraseNeedle.remainder (s ++ piece) ≠ [] := by
            rw [hgr]
            exact fun h => hne (append_eq_nil_iff.1 h).1
          obtain ⟨hcln, hltr⟩ := ih hrsts (.inr ⟨hnext.trans hemp, hgrew⟩) htail
          refine ⟨⟨fun h => absurd h hnot, hcln⟩, .inr (not_missed_cons hbegs fun _ => ?_)⟩
          rcases hltr with hsame | hltr
          · exact absurd (hsame.symm.trans (hnext.trans hemp)) hgrew
          · rw [← hgr]
            exact hltr
    · rw [if_neg hnone] at hnext
      have hstart : (outputFilter.filter piece).2.pending = eraseNeedle.remainder (s ++ piece) ∨
          (outputFilter.filter piece).2.pending = [] ∧
            eraseNeedle.remainder (s ++ piece) ≠ [] := by
        by_cases hnil : eraseNeedle.remainder (s ++ piece) = []
        · exact .inl (hnext.trans hnil.symm)
        · exact .inr ⟨hnext, hnil⟩
      obtain ⟨hcln, hltr⟩ := ih hrsts hstart htail
      refine ⟨⟨fun _ hne => ?_, hcln⟩, ?_⟩
      · rcases hltr with hsame | hltr
        · exact absurd (hsame.symm.trans hnext) hne
        · exact hltr
      · rcases hpend with hheld | ⟨hnil, -⟩
        · exact .inl hheld
        · right
          rw [hnil, nil_append, afterLast_eq_none_iff, not_not] at hnone
          rintro (⟨-, hno⟩ | ⟨hpart, -⟩)
          · exact hno hnone
          · exact afterLast_eq_none_iff.1 (afterLast_of_part hpart)
              (hnone.trans (suffix_append _ _).isInfix)

/-- **The output of the filter does not depend on the pieces if and only if, where it resets the parser,
no erase is missed.** -/
theorem faithful_iff (ignoreScrollbackErase resetParserOnScrollbackErase : Bool)
    (pieces : List (List UInt8)) :
    Faithful ignoreScrollbackErase resetParserOnScrollbackErase pieces ↔
      (resetParserOnScrollbackErase = true → Clean [] pieces) := by
  constructor
  · intro h hrst
    exact (clean_of_resetsExact rfl (.inl rfl) (h.1 hrst).2).1
  · intro hcln
    refine ⟨fun hrst => ?_, fun _ _ => stripExact_run pieces⟩
    have hheld : Holds (TerminalOutputFilter.new ignoreScrollbackErase true) [] pieces :=
      ⟨rfl, .inl rfl⟩
    have hrun := feed_run (Sink.start ignoreScrollbackErase true) hheld (hcln hrst) rfl rfl
    rw [nil_append] at hrun
    exact hrun

/-- An erase that begins behind another and ends in the next piece is not reported. -/
theorem not_faithful :
    ¬∀ ignoreScrollbackErase resetParserOnScrollbackErase pieces,
      Faithful ignoreScrollbackErase resetParserOnScrollbackErase pieces := by
  intro h
  have hmissed : ¬Clean [] [eraseScrollbackSequence ++ [0x1b, 0x5b], [0x33, 0x4a]] := by
    intro hcln
    have hcomps : eraseNeedle.Completes [] (eraseScrollbackSequence ++ [0x1b, 0x5b]) :=
      completes_iff.2 (.inl (prefix_append _ _).isInfix)
    refine hcln.1 hcomps (by decide) (.inl ⟨by decide, by decide⟩)
  exact hmissed (clean_of_resetsExact rfl (.inl rfl) ((h false true _).1 rfl).2).1

end Wardian.Terminal
