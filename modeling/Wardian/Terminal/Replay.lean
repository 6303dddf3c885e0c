/-
The replay ring: the latest events of a terminal session, and what reaches its parser.

The ring keeps a bounded number of events with a bounded number of raw output bytes and forgets the
oldest first.  Readers take batches that are bounded in both ways as well.  The output filter stands
before both: it holds back what may be the beginning of the sequence that erases the scrollback.

Main results:

* `evict_suffix`, `ReplayRing.push_suffix` — the ring holds an end of what was pushed;
* `selectBatch_front`, `selectBatch_ne_nil` — a batch is the front of what is asked for, and it is
  not empty when the first event fits;
* `length_le_of_mem_chunks` — every piece fits.
-/

import Wardian.Terminal.Session

set_option autoImplicit false

namespace Wardian.Terminal

open List

/-! ### The ring -/

def maxReplayEvents : Nat := 4096

def maxReplayRawBytes : Nat := 1048576

def maxBatchEvents : Nat := 256

def maxBatchBytes : Nat := 262144

def rawBytes (event : TerminalBrokerEvent) : Nat :=
  match event.event with
  | .output bytes => bytes.length
  | _ => 0

structure ReplayRing where
  events : List TerminalBrokerEvent
  rawBytes : Nat

/-- Drop the oldest events until the ring keeps to both of its limits. -/
def evict : List TerminalBrokerEvent → Nat → ReplayRing
  | [], raw => ⟨[], raw⟩
  | discarded :: rest, raw =>
    if maxReplayEvents < (discarded :: rest).length ∨ maxReplayRawBytes < raw then
      evict rest (raw - rawBytes discarded)
    else ⟨discarded :: rest, raw⟩

namespace ReplayRing

def new : ReplayRing := ⟨[], 0⟩

def push (ring : ReplayRing) (event : TerminalBrokerEvent) : ReplayRing :=
  if maxReplayRawBytes < Terminal.rawBytes event then ⟨[], 0⟩
  else evict (ring.events ++ [event]) (ring.rawBytes + Terminal.rawBytes event)

def availableFromSequence (ring : ReplayRing) (latestSequence : Nat) : Nat :=
  match ring.events.head? with
  | some event => event.sequence
  | none => saturatingSucc latestSequence

end ReplayRing

/-- Take events from the front while there is room for one more event and for its bytes. -/
def selectBatch : (maxEvents maxBytes : Nat) → List TerminalBrokerEvent → List TerminalBrokerEvent
  | _, _, [] => []
  | 0, _, _ :: _ => []
  | maxEvents + 1, maxBytes, event :: rest =>
    if maxBytes < rawBytes event then []
    else event :: selectBatch maxEvents (maxBytes - rawBytes event) rest

namespace ReplayRing

/-- The events after a sequence number. -/
def eventsAfter (ring : ReplayRing) (afterSequence : Nat) : List TerminalBrokerEvent :=
  ring.events.filter fun event => afterSequence < event.sequence

def readAfter (ring : ReplayRing) (afterSequence requestedEvents requestedBytes : Nat) :
    List TerminalBrokerEvent :=
  selectBatch (max 1 (min requestedEvents maxBatchEvents))
    (max 1 (min requestedBytes maxBatchBytes)) (ring.eventsAfter afterSequence)

/-- The output bytes of an event. -/
def outputOf (event : TerminalBrokerEvent) : List UInt8 :=
  match event.event with
  | .output bytes => bytes
  | _ => []

def rawOutputAfter (ring : ReplayRing) (afterSequence : Nat) : List UInt8 × Nat :=
  ((ring.eventsAfter afterSequence).flatMap outputOf,
    (ring.eventsAfter afterSequence).getLast?.elim afterSequence (·.sequence))

end ReplayRing

/-! ### What the ring holds -/

theorem evict_suffix (events : List TerminalBrokerEvent) (raw : Nat) :
    (evict events raw).events <:+ events := by
  induction events generalizing raw with
  | nil => exact suffix_refl _
  | cons discarded rest ih =>
    unfold evict
    split
    · exact (ih _).trans (suffix_cons _ _)
    · exact suffix_refl _

variable {events : List TerminalBrokerEvent}

/-- An event that fits stays when older ones are dropped: only the front is taken away, and the
last event alone keeps to both limits. -/
theorem evict_ne_nil {raw : Nat} (hraw : raw = (events.map rawBytes).sum) (hne : events ≠ [])
    (hlast : ∀ event ∈ events.getLast?, rawBytes event ≤ maxReplayRawBytes) :
    (evict events raw).events ≠ [] := by
  induction events generalizing raw with
  | nil => exact absurd rfl hne
  | cons discarded rest ih =>
    unfold evict
    split
    · rename_i hover
      by_cases hrest : rest = []
      · -- the last event alone is within both limits, so nothing is evicted here
        subst hrest
        have hfits := hlast discarded (by simp)
        simp only [length_singleton, map_cons, map_nil, sum_cons,
          sum_nil] at hover hraw
        simp only [maxReplayEvents] at hover
        omega
      · refine ih ?_ hrest ?_
        · simp only [map_cons, sum_cons] at hraw
          omega
        · intro event hevent
          refine hlast event ?_
          rw [getLast?_cons_of_ne_nil hrest]
          exact hevent
    · simp

theorem evict_rawBytes {raw : Nat} (hraw : raw = (events.map rawBytes).sum) :
    (evict events raw).rawBytes = ((evict events raw).events.map rawBytes).sum := by
  induction events generalizing raw with
  | nil => exact hraw
  | cons discarded rest ih =>
    unfold evict
    split
    · refine ih ?_
      simp only [map_cons, sum_cons] at hraw
      omega
    · exact hraw

theorem evict_length_le (events : List TerminalBrokerEvent) (raw : Nat) :
    (evict events raw).events.length ≤ maxReplayEvents := by
  induction events generalizing raw with
  | nil => exact Nat.zero_le _
  | cons discarded rest ih =>
    unfold evict
    split
    · exact ih _
    · rename_i hwthn
      exact Nat.le_of_not_lt fun hlong => hwthn (.inl hlong)

/-- What remains keeps to the limit on raw bytes. -/
theorem evict_rawBytes_le {raw : Nat}
    (hraw : raw = (events.map rawBytes).sum) : (evict events raw).rawBytes ≤ maxReplayRawBytes := by
  induction events generalizing raw with
  | nil => exact hraw ▸ Nat.zero_le _
  | cons discarded rest ih =>
    unfold evict
    split
    · refine ih ?_
      simp only [map_cons, sum_cons] at hraw
      omega
    · rename_i hwthn
      exact Nat.le_of_not_lt fun hlarge => hwthn (.inr hlarge)

/-- The recorded size of a ring is the size of what it holds. -/
def ReplayRing.Measured (ring : ReplayRing) : Prop :=
  ring.rawBytes = (ring.events.map Terminal.rawBytes).sum

variable {ring : ReplayRing}

theorem ReplayRing.measured_push (h : ring.Measured)
    (event : TerminalBrokerEvent) : (ring.push event).Measured := by
  unfold push
  split
  · rfl
  · refine evict_rawBytes ?_
    rw [map_append, sum_append, h]
    simp

theorem ReplayRing.push_suffix (ring : ReplayRing) (event : TerminalBrokerEvent) :
    (ring.push event).events <:+ ring.events ++ [event] := by
  unfold push
  split
  · exact nil_suffix
  · exact evict_suffix _ _

theorem ReplayRing.push_length_le (ring : ReplayRing) (event : TerminalBrokerEvent) :
    (ring.push event).events.length ≤ maxReplayEvents := by
  unfold push
  split
  · exact Nat.zero_le _
  · exact evict_length_le _ _

theorem ReplayRing.push_rawBytes_le (h : ring.Measured)
    (event : TerminalBrokerEvent) : (ring.push event).rawBytes ≤ maxReplayRawBytes := by
  unfold push
  split
  · exact Nat.zero_le _
  · refine evict_rawBytes_le ?_
    rw [map_append, sum_append, h]
    simp

variable {event : TerminalBrokerEvent}

theorem ReplayRing.push_ne_nil (h : ring.Measured) (hfits : Terminal.rawBytes event ≤ maxReplayRawBytes) :
    (ring.push event).events ≠ [] := by
  unfold push
  rw [if_neg (by omega)]
  refine evict_ne_nil ?_ (by simp) ?_
  · rw [map_append, sum_append, h]
    simp
  · intro last hlast
    rw [getLast?_concat, Option.mem_some_iff] at hlast
    exact hlast ▸ hfits

/-! ### What a batch holds -/

theorem selectBatch_front (maxEvents maxBytes : Nat) (events : List TerminalBrokerEvent) :
    selectBatch maxEvents maxBytes events <+: events := by
  induction events generalizing maxEvents maxBytes with
  | nil => cases maxEvents <;> exact prefix_refl _
  | cons event rest ih =>
    cases maxEvents with
    | zero => exact nil_prefix
    | succ maxEvents =>
      unfold selectBatch
      split
      · exact nil_prefix
      · exact (prefix_cons_inj event).2 (ih _ _)

/-- A batch is empty only when nothing is asked for or the first event is too large. -/
theorem selectBatch_ne_nil {maxEvents maxBytes : Nat}
    {rest : List TerminalBrokerEvent} (hevs : 0 < maxEvents)
    (hbts : rawBytes event ≤ maxBytes) : selectBatch maxEvents maxBytes (event :: rest) ≠ [] := by
  obtain ⟨maxEvents, rfl⟩ := Nat.exists_eq_succ_of_ne_zero (by omega : maxEvents ≠ 0)
  unfold selectBatch
  rw [if_neg (by omega)]
  simp

/-! ### The output filter -/

/-- Cut into pieces of at most `n` bytes; `fuel` is at least the number of bytes. -/
def chunksWith (n : Nat) : (fuel : Nat) → List UInt8 → List (List UInt8)
  | _, [] => []
  | 0, _ :: _ => []
  | fuel + 1, bytes => bytes.take n :: chunksWith n fuel (bytes.drop n)

def chunks (n : Nat) (bytes : List UInt8) : List (List UInt8) := chunksWith n bytes.length bytes

theorem length_le_of_mem_chunks {n : Nat} {bytes chunk : List UInt8} (h : chunk ∈ chunks n bytes) :
    chunk.length ≤ n := by
  have hfuel : ∀ (fuel : Nat) (bytes : List UInt8), chunk ∈ chunksWith n fuel bytes →
      chunk.length ≤ n := by
    intro fuel
    induction fuel with
    | zero =>
      intro bytes hmem
      cases bytes <;> simp [chunksWith] at hmem
    | succ fuel ih =>
      intro bytes hmem
      cases bytes with
      | nil => simp [chunksWith] at hmem
      | cons b bs =>
        rw [chunksWith, mem_cons] at hmem
        · rcases hmem with rfl | hmem
          · exact length_take_le _ _
          · exact ih _ hmem
        · simp
  exact hfuel _ _ h

/-- `ESC [ 3 J`, which erases the scrollback. -/
def eraseScrollbackSequence : List UInt8 := [0x1b, 0x5b, 0x33, 0x4a]

structure TerminalOutputFilter where
  ignoreScrollbackErase : Bool
  resetParserOnScrollbackErase : Bool
  pending : List UInt8
deriving DecidableEq

structure FilteredTerminalOutput where
  published : List UInt8
  parser : List UInt8
  resetParser : Bool
deriving DecidableEq

/-- What follows the last erase sequence. -/
def afterLastErase : List UInt8 → Option (List UInt8)
  | [] => none
  | b :: bs =>
    match afterLastErase bs with
    | some rest => some rest
    | none =>
      if eraseScrollbackSequence.isPrefixOf (b :: bs) then
        some ((b :: bs).drop eraseScrollbackSequence.length)
      else none

def trailingSequencePrefixLen (input sequence : List UInt8) : Nat :=
  ((range' 1 (sequence.length - 1)).reverse.find? fun length =>
    (sequence.take length).isSuffixOf input).getD 0

/-- The input without erase sequences, and the beginning of one that the input may end with. -/
def stripErases : (fuel : Nat) → List UInt8 → List UInt8 × List UInt8
  | _, [] => ([], [])
  | 0, _ :: _ => ([], [])
  | fuel + 1, b :: bs =>
    if eraseScrollbackSequence.isPrefixOf (b :: bs) then
      stripErases fuel ((b :: bs).drop eraseScrollbackSequence.length)
    else if (b :: bs).length < eraseScrollbackSequence.length ∧
        (b :: bs).isPrefixOf eraseScrollbackSequence then ([], b :: bs)
    else
      let (output, pending) := stripErases fuel bs
      (b :: output, pending)

namespace TerminalOutputFilter

def new (ignoreScrollbackErase resetParserOnScrollbackErase : Bool) : TerminalOutputFilter :=
  ⟨ignoreScrollbackErase, resetParserOnScrollbackErase, []⟩

def filter (outputFilter : TerminalOutputFilter) (bytes : List UInt8) :
    FilteredTerminalOutput × TerminalOutputFilter :=
  if outputFilter.resetParserOnScrollbackErase then
    let parserInput := outputFilter.pending ++ bytes
    match afterLastErase parserInput with
    | some rest => (⟨bytes, rest, true⟩, { outputFilter with pending := [] })
    | none =>
      let kept := parserInput.length -
        trailingSequencePrefixLen parserInput eraseScrollbackSequence
      (⟨bytes, parserInput.take kept, false⟩,
        { outputFilter with pending := parserInput.drop kept })
  else if outputFilter.ignoreScrollbackErase then
    let input := outputFilter.pending ++ bytes
    let (output, pending) := stripErases input.length input
    (⟨output, output, false⟩, { outputFilter with pending := pending })
  else (⟨bytes, bytes, false⟩, outputFilter)

end TerminalOutputFilter

/-- An erase that arrives in two writes is held back and dropped. -/
example :
    ((TerminalOutputFilter.new true false).filter [0x61, 0x1b, 0x5b]).2.filter [0x33, 0x4a, 0x62] =
      (⟨[0x62], [0x62], false⟩, TerminalOutputFilter.new true false) := by
  decide

end Wardian.Terminal
