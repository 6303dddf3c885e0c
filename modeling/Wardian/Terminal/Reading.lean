/-
Reading the event stream.

A consumer takes the snapshot of its subscription and then reads on from where its last batch ended.
A batch holds exactly the events after the cursor, up to both limits.  A cursor that the ring has
left behind, or that stands before an event too large for the batch, is sent to a snapshot.  That
helps only when the snapshot is not older than the ring: output and sizes renew the remembered
snapshot, and changes of the lease do not, so thousands of them leave it behind as well.

Main results:

* `Run.streamInv` — the ring is the end of the stream, numbered from one;
* `Run.retains` — it keeps to its limits;
* `Reading.gap_free` — the reads of a consumer are sound and reach the end of the stream;
* `reading_stalls` — a run in which reads after the same cursor are turned down again and again.
-/

import Wardian.Lib.Numbered
import Wardian.Terminal.Lease

set_option autoImplicit false

namespace Wardian.Terminal

open Option
open List
open TerminalSessionActor
open Calling (Wp wp_bind wp_fail wp_get wp_ite wp_modify wp_pure)

/-! ### What a turn does to the stream -/

/-- Events are added at the end, and the remembered snapshot is kept, renewed or forgotten.  An
event with output finds it forgotten. -/
inductive Streams : TerminalSessionActor → TerminalSessionActor → Prop where
  | same {s s' : TerminalSessionActor} (hemtd : s'.emitted = s.emitted)
      (hseq : s'.streamSequence = s.streamSequence) (hrpl : s'.replay = s.replay)
      (hcchd : s'.cachedSnapshot = s.cachedSnapshot ∨ s'.cachedSnapshot = none ∨
        s'.cachedSnapshot = some s.snapshot) : Streams s s'
  | emit {s : TerminalSessionActor} (event : TerminalBrokerEventKind)
      (houtp : ∀ bytes, event = .output bytes →
        bytes.length ≤ maxBatchBytes ∧ s.cachedSnapshot = none) : Streams s (s.emitEvent event)
  | trans {s t u : TerminalSessionActor} (hst : Streams s t) (htu : Streams t u) : Streams s u

theorem Streams.refl (s : TerminalSessionActor) : Streams s s := .same rfl rfl rfl (.inl rfl)

variable {s s' : TerminalSessionActor}

theorem Streams.of_core {t : TerminalSessionActor} (h : Streams s t)
    (hcore : s'.core = t.core) : Streams s s' :=
  h.trans (.same (congrArg Core.emitted hcore) (congrArg Core.streamSequence hcore)
    (congrArg Core.replay hcore) (.inl (congrArg Core.cachedSnapshot hcore)))

theorem streams_withSnapshot (s : TerminalSessionActor) : Streams s s.withSnapshot :=
  .same rfl rfl rfl (.inr (.inr rfl))

theorem Streams.of_snaps {s t s' : TerminalSessionActor} (h : Streams s t) (hsnaps : Snaps t s') :
    Streams s s' := by
  rcases hsnaps with hcore | hcore
  · exact h.of_core hcore
  · exact (h.trans (streams_withSnapshot t)).of_core hcore

/-- An event without output, after which a snapshot may be handed out. -/
theorem streams_emit (event : TerminalBrokerEventKind) (hevent : ∀ bytes, event ≠ .output bytes)
    (hemtd : s'.emitted = (s.emitEvent event).emitted)
    (hseq : s'.streamSequence = (s.emitEvent event).streamSequence)
    (hrpl : s'.replay = (s.emitEvent event).replay)
    (hcchd : s'.cachedSnapshot = s.cachedSnapshot ∨ s'.cachedSnapshot = some (s.emitEvent event).snapshot) :
    Streams s s' := by
  have hemit : Streams s (s.emitEvent event) := .emit event fun bytes h => absurd h (hevent bytes)
  refine hemit.trans (.same hemtd hseq hrpl ?_)
  rcases hcchd with hkept | hrene
  · exact .inl hkept
  · exact .inr (.inr hrene)

theorem streams_emitOwnership (s : TerminalSessionActor) (activationId : Option String) :
    Streams s (s.emitOwnership activationId) :=
  .emit _ fun _ h => by cases h

namespace TerminalSessionActor

variable {s s' : TerminalSessionActor}

theorem Sized.streams (h : Sized s s') : Streams s s' := by
  cases h with
  | same => exact .refl s
  | resized geometry geometrySequence =>
    have hclrd : Streams s { s with
        parser := .setSize geometry.rows geometry.cols :: s.parser
        geometry := geometry
        cachedSnapshot := none } := .same rfl rfl rfl (.inr (.inl rfl))
    exact hclrd.trans (.emit _ fun _ h => by cases h)

theorem streams_owner {t : TerminalSessionActor} (h : Streams s t) (owner : Option String)
    (activationId : Option String) :
    Streams s ({ t with ownerPresentationId := owner }.emitOwnership activationId) := by
  have hown : Streams t { t with ownerPresentationId := owner } := .same rfl rfl rfl (.inl rfl)
  exact (h.trans hown).trans (streams_emitOwnership _ _)

variable {r : Except TerminalBrokerError Unit}

theorem RolledBack.streams {pending : PendingActivation} (h : RolledBack s pending r s') : Streams s s' := by
  have hreld : Streams s s.released := .same rfl rfl rfl (.inl rfl)
  cases h with
  | settled hszd hown => exact streams_owner (hreld.trans hszd.streams) _ _
  | stopped herr => exact hreld

theorem Promoted.streams (h : Promoted s r s') : Streams s s' := by
  cases h with
  | settled hszd hown => exact streams_owner hszd.streams _ _
  | stopped herr => exact .refl s

theorem Unregistered.streams {presentationId : String} (h : Unregistered s presentationId r s') :
    Streams s s' := by
  cases h with
  | rolledBack hpend hself h => exact h.streams
  | kept hown => exact .same rfl rfl rfl (.inl rfl)
  | dropped hown h =>
    refine Streams.trans ?_ h.streams
    exact .same rfl rfl rfl (.inl rfl)

/-- Pieces of output that fit, after the remembered snapshot has been forgotten. -/
theorem streams_foldl_emitEvent {pieces : List (List UInt8)}
    (hfits : ∀ piece ∈ pieces, piece.length ≤ maxBatchBytes) (hnone : s.cachedSnapshot = none) :
    Streams s (pieces.foldl (fun (t : TerminalSessionActor) piece => t.emitEvent (.output piece)) s) := by
  induction pieces generalizing s with
  | nil => exact .refl s
  | cons piece pieces ih =>
    have hpiece : Streams s (s.emitEvent (.output piece)) := by
      refine .emit _ fun bytes hbts => ?_
      cases hbts
      exact ⟨hfits piece (mem_cons_self ..), hnone⟩
    refine hpiece.trans (ih ?_ hnone)
    exact fun p hp => hfits p (mem_cons_of_mem _ hp)

theorem Effect.streams {turn : Turn}
    {answer : Except TerminalBrokerError Answer} (h : Effect s turn answer s') : Streams s s' := by
  cases h with
  | quiet hcore => exact (Streams.refl s).of_snaps hcore
  | output hfits hcore =>
    refine Streams.of_core ?_ hcore
    have hclrd : Streams s { s with cachedSnapshot := none } :=
      .same rfl rfl rfl (.inr (.inl rfl))
    exact hclrd.trans (streams_foldl_emitEvent hfits rfl)
  | paused hcore =>
    refine Streams.of_core ?_ hcore
    exact .emit _ fun _ h => by cases h
  | @recorded _ _ t _ presentations hszd hrecs hcore =>
    have hnow : Streams t { t with presentations := presentations } :=
      .same rfl rfl rfl (.inl rfl)
    exact (hszd.streams.trans hnow).of_snaps hcore
  | @begun _ _ _ request hcore =>
    refine Streams.of_core ?_ hcore
    -- the event is emitted before the snapshot is handed out
    have hopnd := openActivation_cachedSnapshot { s with pendingActivation := none } request
      s.pendingActivation
    exact streams_emit _ (by simp) (openActivation_emitted _ _ _)
      (openActivation_streamSequence _ _ _) (openActivation_replay _ _ _) (.inr hopnd)
  | @acknowledged _ _ t _ request _ hpend hkey hszd hcore =>
    refine Streams.of_core ?_ hcore
    have hown : Streams t ((t.withRenderer request.presentationId).withOwner request) :=
      streams_emit (.ownership (some request.presentationId) t.leaseEpoch
        (some request.activationId)) (by simp) rfl rfl rfl (.inl rfl)
    exact (hszd.streams.trans hown).trans (streams_withSnapshot _)
  | @rolledBack _ _ _ _ presentations _ _ hpend hrecs hack h hans hcore =>
    refine Streams.of_core ?_ hcore
    have hnow : Streams s { s with presentations := presentations } :=
      .same rfl rfl rfl (.inl rfl)
    exact hnow.trans h.streams
  | unregistered hturn hrem h hans hcore =>
    refine Streams.of_core ?_ hcore
    refine Streams.trans (Streams.of_core ?_ hrem) h.streams
    exact .same rfl rfl rfl (.inl rfl)
  | shutdown hcore =>
    refine Streams.of_core ?_ hcore
    exact .same rfl rfl rfl (.inl rfl)

end TerminalSessionActor

/-! ### The invariant of the stream -/

/-- Events are numbered from one, the ring is the end of the stream, and everything after the
remembered snapshot is without output. -/
structure StreamInv (s : TerminalSessionActor) : Prop where
  numbered : Numbered TerminalBrokerEvent.sequence 1 s.emitted
  sequence : s.streamSequence = s.emitted.length
  suffix : s.replay.events <:+ s.emitted
  measured : s.replay.Measured
  kept : s.emitted ≠ [] → s.replay.events ≠ []
  bounded : s.replay.events.length ≤ maxReplayEvents
  fits : ∀ event ∈ s.emitted, rawBytes event ≤ maxBatchBytes
  barrier : ∀ snapshot, s.cachedSnapshot = some snapshot →
    snapshot.sequenceBarrier ≤ s.streamSequence ∧
      ∀ event ∈ s.emitted, snapshot.sequenceBarrier < event.sequence → rawBytes event = 0

theorem streamInv_new (sessionId : String) (runtimeGeneration initialLeaseEpoch : Nat)
    (runtime : Option TerminalRuntimeHandles) (geometry : TerminalGeometry)
    (initialOutput : List UInt8) : StreamInv
      (.new sessionId runtimeGeneration initialLeaseEpoch runtime geometry initialOutput) where
  numbered := .nil _ _
  sequence := rfl
  suffix := suffix_refl _
  measured := rfl
  kept := fun h => absurd rfl h
  bounded := Nat.zero_le _
  fits := fun _ h => by cases h
  barrier := fun _ h => by cases h

/-- A snapshot that is handed out is not ahead of the stream, and everything after it is without
output. -/
theorem StreamInv.snapshot {s : TerminalSessionActor} (h : StreamInv s) :
    s.snapshot.sequenceBarrier ≤ s.streamSequence ∧
      ∀ event ∈ s.emitted, s.snapshot.sequenceBarrier < event.sequence → rawBytes event = 0 := by
  unfold TerminalSessionActor.snapshot
  cases hcchd : s.cachedSnapshot with
  | some snapshot => exact h.barrier snapshot hcchd
  | none =>
    refine ⟨Nat.le_refl _, fun event hmem haft => ?_⟩
    -- a new snapshot stands at the end of the stream
    have hnum := (h.numbered.mem_bounds hmem).2
    have hend : s.streamSequence < event.sequence := haft
    have hseq := h.sequence
    omega

theorem StreamInv.emit {s : TerminalSessionActor} (h : StreamInv s) {event : TerminalBrokerEventKind}
    (houtp : ∀ bytes, event = .output bytes →
      bytes.length ≤ maxBatchBytes ∧ s.cachedSnapshot = none)
    (hcnt : s.emitted.length < u64Max) : StreamInv (s.emitEvent event) := by
  have hsucc : saturatingSucc s.streamSequence = s.streamSequence + 1 :=
    saturatingSucc_of_lt (h.sequence ▸ hcnt)
  let emitted : TerminalBrokerEvent :=
    ⟨saturatingSucc s.streamSequence, s.runtimeGeneration, event⟩
  have hfits : rawBytes emitted ≤ maxBatchBytes := by
    cases event with
    | output bytes => exact (houtp bytes rfl).1
    | geometry geometry n | ownership owner leaseEpoch activationId | lifecycle lifecycle =>
      exact Nat.zero_le _
  have hlim : maxBatchBytes ≤ maxReplayRawBytes := by decide
  have hne : (s.replay.push emitted).events ≠ [] :=
    ReplayRing.push_ne_nil h.measured (Nat.le_trans hfits hlim)
  have hseq := h.sequence
  constructor
  · refine h.numbered.concat ?_
    simp only [hsucc]
    omega
  · change saturatingSucc s.streamSequence = (s.emitted ++ [emitted]).length
    rw [hsucc, length_append, length_singleton, hseq]
  · refine (ReplayRing.push_suffix s.replay emitted).trans ?_
    obtain ⟨front, hfrt⟩ := h.suffix
    refine ⟨front, ?_⟩
    change front ++ (s.replay.events ++ [emitted]) = s.emitted ++ [emitted]
    rw [← hfrt, append_assoc]
  · exact ReplayRing.measured_push h.measured emitted
  · exact fun _ => hne
  · exact ReplayRing.push_length_le _ _
  · intro e he
    rcases mem_append.1 he with he | he
    · exact h.fits e he
    · exact mem_singleton.1 he ▸ hfits
  · intro snapshot hsnap
    obtain ⟨hbarr, hqui⟩ := h.barrier snapshot hsnap
    refine ⟨Nat.le_trans hbarr (le_saturatingSucc _), fun e he haft => ?_⟩
    rcases mem_append.1 he with he | he
    · exact hqui e he haft
    · rw [mem_singleton.1 he]
      cases event with
      | output bytes =>
        -- output finds the remembered snapshot forgotten
        cases (houtp bytes rfl).2.symm.trans hsnap
      | geometry geometry n => rfl
      | ownership owner leaseEpoch activationId => rfl
      | lifecycle lifecycle => rfl

theorem Streams.emitted_front (h : Streams s s') : s.emitted <+: s'.emitted := by
  induction h with
  | same hemtd hseq hrpl hcchd => rw [hemtd]
  | emit event houtp => exact prefix_append _ _
  | trans hst htu hs ht => exact hs.trans ht

theorem Streams.inv (h : Streams s s')
    (hcnt : s'.emitted.length ≤ u64Max) (hs : StreamInv s) : StreamInv s' := by
  induction h with
  | @same s s' hemtd hseq hrpl hcchd =>
    have hbarr : ∀ snapshot, s'.cachedSnapshot = some snapshot →
        snapshot.sequenceBarrier ≤ s.streamSequence ∧
          ∀ event ∈ s.emitted, snapshot.sequenceBarrier < event.sequence →
            rawBytes event = 0 := by
      intro snapshot hsnap
      rcases hcchd with hkept | hclrd | hrene
      · exact hs.barrier snapshot (hkept ▸ hsnap)
      · rw [hclrd] at hsnap
        cases hsnap
      · rw [hrene] at hsnap
        exact Option.some.inj hsnap ▸ hs.snapshot
    constructor
    · rw [hemtd]; exact hs.numbered
    · rw [hemtd, hseq]; exact hs.sequence
    · rw [hemtd, hrpl]; exact hs.suffix
    · rw [hrpl]; exact hs.measured
    · rw [hemtd, hrpl]; exact hs.kept
    · rw [hrpl]; exact hs.bounded
    · rw [hemtd]; exact hs.fits
    · rw [hemtd, hseq]; exact hbarr
  | @emit s event houtp =>
    refine hs.emit houtp ?_
    change (s.emitted ++ [_]).length ≤ u64Max at hcnt
    rw [length_append, length_singleton] at hcnt
    exact hcnt
  | trans hst htu ihst ihtu =>
    exact ihtu hcnt (ihst (Nat.le_trans htu.emitted_front.length_le hcnt) hs)

variable {calls : List (TerminalCall × TerminalSessionActor)}
  {answer : Except TerminalBrokerError Answer}

theorem streams_of_ends {t : Turn} (h : (turn t s).Ends calls answer s') :
    Streams s s' := (effect_of_ends h).streams

variable {start : TerminalSessionActor}

/-- **The ring is the end of the stream**, in every run with fewer events than there are numbers. -/
theorem Run.streamInv {past : List Handled} (h : Run start s past) (hstart : StreamInv start)
    (hcnt : s.emitted.length ≤ u64Max) : StreamInv s := by
  induction h with
  | start => exact hstart
  | step h hends ih =>
    have hstrms := streams_of_ends hends
    exact hstrms.inv hcnt (ih (Nat.le_trans hstrms.emitted_front.length_le hcnt))

/-- The ring is the end of the stream, within both limits. -/
structure Retains (s : TerminalSessionActor) : Prop where
  suffix : s.replay.events <:+ s.emitted
  measured : s.replay.Measured
  events : s.replay.events.length ≤ maxReplayEvents
  bytes : s.replay.rawBytes ≤ maxReplayRawBytes

theorem Retains.streams {s s' : TerminalSessionActor} (h : Streams s s') (hs : Retains s) :
    Retains s' := by
  induction h with
  | same hemtd hseq hrpl hcchd =>
    constructor <;> rw [hrpl]
    · exact hemtd ▸ hs.suffix
    · exact hs.measured
    · exact hs.events
    · exact hs.bytes
  | @emit s event houtp =>
    refine ⟨?_, ReplayRing.measured_push hs.measured _, ReplayRing.push_length_le _ _,
      ReplayRing.push_rawBytes_le hs.measured _⟩
    obtain ⟨front, hfrt⟩ := hs.suffix
    refine (ReplayRing.push_suffix s.replay _).trans ⟨front, ?_⟩
    change front ++ (s.replay.events ++ [_]) = s.emitted ++ [_]
    rw [← hfrt, append_assoc]
  | trans hst htu ihst ihtu => exact ihtu (ihst hs)

/-- **The replay ring stays bounded**, in every run of a new actor, however long: it is the end of
what was emitted, it counts its raw bytes right, and it keeps to both of its limits. -/
theorem Run.retains {sessionId : String} {runtimeGeneration initialLeaseEpoch : Nat}
    {runtime : Option TerminalRuntimeHandles} {geometry : TerminalGeometry} {initialOutput : List UInt8}
    {s : TerminalSessionActor} {past : List Handled}
    (h : Run (.new sessionId runtimeGeneration initialLeaseEpoch runtime geometry initialOutput) s past) :
    Retains s := by
  induction h with
  | start => exact ⟨suffix_refl _, rfl, Nat.zero_le _, Nat.zero_le _⟩
  | step _ hends ih => exact ih.streams (streams_of_ends hends)

theorem retains_upgradeTurns : Retains (playState acceptAll upgradeTurns (sampleActor 0)) :=
  (run_play acceptAll upgradeTurns (sampleActor 0)).retains

/-! ### One read -/

/-- A read that was answered with a batch. -/
structure Read where
  before : TerminalSessionActor
  request : TerminalEventReadRequest
  batch : TerminalEventBatch

/-- When the ring has left the cursor behind, the remembered snapshot is not older than the ring. -/
def Read.Refreshed (read : Read) : Prop :=
  read.request.afterSequence + 1 < read.before.availableFromSequence →
    ∀ snapshot, read.before.cachedSnapshot = some snapshot →
      read.before.availableFromSequence ≤ snapshot.sequenceBarrier + 1

/-- A ring that holds the first event has left no cursor behind. -/
theorem Read.refreshed_of_complete {read : Read} (h : read.before.availableFromSequence ≤ 1) :
    read.Refreshed := by
  intro hleft
  omega

/-- What a read promises: the events after the cursor, or a snapshot to go on from; and in both
cases a cursor that is nearer to the end of the stream. -/
structure Read.Sound (read : Read) : Prop where
  status : read.batch.status = .events ∨ read.batch.status = .gap
  exact : read.batch.status = .events → read.batch.events = read.before.emitted.filter fun event =>
    read.request.afterSequence < event.sequence ∧ event.sequence ≤ read.batch.nextSequence
  recovered : read.batch.status = .gap → ∃ snapshot, read.batch.recoverySnapshot = some snapshot ∧
    read.batch.nextSequence = snapshot.sequenceBarrier ∧
      read.request.afterSequence < snapshot.sequenceBarrier
  forward : read.request.afterSequence ≤ read.batch.nextSequence
  progress : read.request.afterSequence < read.before.streamSequence →
    read.request.afterSequence < read.batch.nextSequence
  latest : read.batch.nextSequence ≤ read.batch.latestSequence ∧
    read.batch.latestSequence = read.before.streamSequence

theorem StreamInv.available (h : StreamInv s) :
    s.availableFromSequence = s.streamSequence - s.replay.events.length + 1 ∨
      s.replay.events = [] ∧ s.availableFromSequence ≤ s.streamSequence + 1 := by
  have hring := h.numbered.of_suffix h.suffix
  have hseq := h.sequence
  unfold TerminalSessionActor.availableFromSequence ReplayRing.availableFromSequence
  cases hevs : s.replay.events with
  | nil => exact .inr ⟨rfl, saturatingSucc_le _⟩
  | cons event rest =>
    rw [hevs, Numbered.cons_iff] at hring
    refine .inl ?_
    rw [head?_cons]
    simp only
    omega

theorem StreamInv.available_le (h : StreamInv s) : s.availableFromSequence ≤ s.streamSequence + 1 := by
  rcases h.available with heq | ⟨-, hle⟩
  · omega
  · exact hle

variable {n : Nat}

/-- The events in the ring after a cursor that the ring has not left behind. -/
theorem StreamInv.eventsAfter (h : StreamInv s)
    (hgap : s.cursorHasGap n = false) : s.replay.eventsAfter n = s.emitted.drop n := by
  have hring := h.numbered.of_suffix h.suffix
  have hseq := h.sequence
  obtain ⟨front, hfrt⟩ := h.suffix
  have hlen : s.emitted.length = front.length + s.replay.events.length := by
    rw [← hfrt, length_append]
  simp only [cursorHasGap, Bool.or_eq_false_iff, decide_eq_false_iff_not] at hgap
  have hfst : front.length ≤ n := by
    rcases h.available with heq | ⟨hnil, -⟩
    · omega
    · -- an empty ring belongs to an empty stream
      have hemp : s.emitted = [] := by
        by_contra hne
        exact h.kept hne hnil
      rw [hemp, length_nil] at hlen
      omega
  unfold ReplayRing.eventsAfter
  rw [hring.filter_after (by omega), ← hfrt, drop_append,
    drop_eq_nil_of_le hfst, nil_append]
  congr 1
  rw [length_append]
  omega

theorem StreamInv.drop_numbered (h : StreamInv s) (hn : n ≤ s.emitted.length) :
    Numbered TerminalBrokerEvent.sequence (n + 1) (s.emitted.drop n) := by
  have hdrop := h.numbered.of_suffix (drop_suffix n s.emitted)
  rw [length_drop] at hdrop
  have hfst : 1 + (s.emitted.length - (s.emitted.length - n)) = n + 1 := by omega
  rw [hfst] at hdrop
  exact hdrop

/-- A snapshot handed out for a cursor behind the ring is ahead of the cursor, when it is not older
than the ring. -/
theorem StreamInv.lt_snapshot_of_left (h : StreamInv s) (hleft : n + 1 < s.availableFromSequence)
    (hrfrd : ∀ snapshot, s.cachedSnapshot = some snapshot →
      s.availableFromSequence ≤ snapshot.sequenceBarrier + 1) : n < s.snapshot.sequenceBarrier := by
  have havai := h.available_le
  unfold TerminalSessionActor.snapshot
  cases hcchd : s.cachedSnapshot with
  | some snapshot =>
    have hnew := hrfrd snapshot hcchd
    rw [getD_some]
    omega
  | none =>
    change n < s.streamSequence
    omega

/-- A snapshot handed out for a cursor before an event that is too large for the batch is ahead of
the cursor: the event is output. -/
theorem StreamInv.lt_snapshot_of_large (h : StreamInv s)
    (hn : n < s.streamSequence) {maxEvents maxBytes : Nat}
    (hnone : selectBatch (max 1 maxEvents) (max 1 maxBytes) (s.emitted.drop n) = []) :
    n < s.snapshot.sequenceBarrier := by
  have hseq := h.sequence
  have hdrop := h.drop_numbered (n := n) (by omega)
  cases hnext : s.emitted.drop n with
  | nil =>
    have hend := drop_eq_nil_iff.1 hnext
    omega
  | cons event rest =>
    rw [hnext] at hnone hdrop
    have hlarge : 0 < rawBytes event := by
      by_contra hsml
      exact selectBatch_ne_nil (by omega) (by omega) hnone
    have hnum := (Numbered.cons_iff.1 hdrop).1
    by_contra hbeh
    have hmem : event ∈ s.emitted :=
      mem_of_mem_drop (hnext ▸ mem_cons_self ..)
    have hqui := h.snapshot.2 event hmem (by omega)
    omega

variable {request : TerminalEventReadRequest}

/-- A read that is sent to a snapshot ahead of its cursor is sound. -/
theorem StreamInv.sound_recovery (h : StreamInv s)
    (hah : request.afterSequence < s.snapshot.sequenceBarrier) :
    Read.Sound ⟨s, request, s.recoveryBatch .gap⟩ where
  status := .inr rfl
  exact := fun hevs => by cases hevs
  recovered := fun _ => ⟨s.snapshot, rfl, rfl, hah⟩
  forward := Nat.le_of_lt hah
  progress := fun _ => hah
  latest := ⟨h.snapshot.1, rfl⟩

variable {events : List TerminalBrokerEvent}

theorem nextSequence_of_numbered (h : Numbered TerminalBrokerEvent.sequence (n + 1) events) :
    events.getLast?.elim n (·.sequence) = n + events.length := by
  cases hlast : events.getLast? with
  | none =>
    rw [getLast?_eq_none_iff.1 hlast]
    rfl
  | some event =>
    have hne : events ≠ [] := by
      rintro rfl
      cases hlast
    have hnum := h.getLast hne
    rw [hlast, map_some] at hnum
    rw [elim_some, Option.some.inj hnum]
    omega

variable {batch : TerminalEventBatch}

/-- A batch with the next events is sound; it is empty only at the end of the stream. -/
theorem StreamInv.sound_events (h : StreamInv s) (hcurs : request.afterSequence ≤ s.streamSequence)
    (hfrt : events <+: s.emitted.drop request.afterSequence)
    (hmore : request.afterSequence < s.streamSequence → events ≠ []) (hstat : batch.status = .events)
    (hevs : batch.events = events)
    (hnext : batch.nextSequence = events.getLast?.elim request.afterSequence (·.sequence))
    (hlat : batch.latestSequence = s.streamSequence) : Read.Sound ⟨s, request, batch⟩ := by
  have hseq := h.sequence
  have hdrop := h.drop_numbered (hseq ▸ hcurs)
  have hnumd : Numbered TerminalBrokerEvent.sequence (request.afterSequence + 1) events := by
    obtain ⟨later, hltr⟩ := hfrt
    exact (Numbered.append_iff.1 (hltr ▸ hdrop)).1
  rw [nextSequence_of_numbered hnumd] at hnext
  have hlen := hfrt.length_le
  rw [length_drop] at hlen
  constructor
  · exact .inl hstat
  · intro _
    simp only [hnext, hevs]
    rw [h.numbered.filter_window (by omega), Nat.add_sub_cancel]
    exact prefix_iff_eq_take.1 hfrt
  · intro hgap
    rw [hstat] at hgap
    cases hgap
  · simp only [hnext]
    omega
  · intro hbeh
    have hpos := length_pos_of_ne_nil (hmore hbeh)
    simp only [hnext]
    omega
  · refine ⟨?_, hlat⟩
    simp only [hnext, hlat]
    omega

/-- **A read is sound**, when the snapshot is not older than a ring that has left the cursor
behind. -/
theorem StreamInv.sound_readBatch (h : StreamInv s) (hcurs : request.afterSequence ≤ s.streamSequence)
    (hrfrd : Read.Refreshed ⟨s, request, s.readBatch request⟩) :
    Read.Sound ⟨s, request, s.readBatch request⟩ := by
  have hseq := h.sequence
  unfold readBatch at hrfrd ⊢
  by_cases hgap : s.cursorHasGap request.afterSequence = true
  · rw [if_pos hgap]
    refine h.sound_recovery ?_
    simp only [cursorHasGap, Bool.or_eq_true, decide_eq_true_eq] at hgap
    have hleft : request.afterSequence + 1 < s.availableFromSequence := by omega
    exact h.lt_snapshot_of_left hleft (hrfrd hleft)
  · rw [if_neg hgap]
    have haft := h.eventsAfter (Bool.eq_false_of_not_eq_true hgap)
    have hread : s.replay.readAfter request.afterSequence request.maxEvents request.maxBytes =
        selectBatch (max 1 (min request.maxEvents maxBatchEvents))
          (max 1 (min request.maxBytes maxBatchBytes)) (s.emitted.drop request.afterSequence) := by
      unfold ReplayRing.readAfter
      rw [haft]
    simp only [hread]
    split
    · rename_i hnone
      exact h.sound_recovery (h.lt_snapshot_of_large hnone.2 hnone.1)
    · rename_i hsome
      refine h.sound_events hcurs (selectBatch_front _ _ _) ?_ rfl rfl rfl rfl
      exact fun hbeh hnil => hsome ⟨hnil, hbeh⟩

/-! ### A consumer that reads on -/

/-- A run in which the consumer `consumerId` has subscribed and reads on, each time from where its
last batch ended; its cursor now, and its reads, the latest last.  Anything else may happen in
between. -/
inductive Reading (start : TerminalSessionActor) (consumerId : String) :
    TerminalSessionActor → Nat → List Read → Prop where
  | subscribed {s s' : TerminalSessionActor} {past : List Handled}
      {request : TerminalEventSubscriptionRequest}
      {calls : List (TerminalCall × TerminalSessionActor)} {result : TerminalEventSubscriptionResult}
      (h : Run start s past) (hcons : request.consumerId = consumerId)
      (hends : (turn (.message (.subscribe request)) s).Ends calls (.ok (.subscribed result)) s') :
      Reading start consumerId s' result.initialSnapshot.sequenceBarrier []
  | other {s s' : TerminalSessionActor} {cursor : Nat} {reads : List Read} {turn : Turn}
      {calls : List (TerminalCall × TerminalSessionActor)}
      {answer : Except TerminalBrokerError Answer} (h : Reading start consumerId s cursor reads)
      (hends : (TerminalSessionActor.turn turn s).Ends calls answer s') :
      Reading start consumerId s' cursor reads
  | read {s s' : TerminalSessionActor} {reads : List Read} {request : TerminalEventReadRequest}
      {calls : List (TerminalCall × TerminalSessionActor)} {batch : TerminalEventBatch}
      (h : Reading start consumerId s request.afterSequence reads)
      (hcons : request.consumerId = consumerId)
      (hgen : request.runtimeGeneration = s.runtimeGeneration)
      (hends : (turn (.message (.readEvents request)) s).Ends calls (.ok (.batch batch)) s') :
      Reading start consumerId s' batch.nextSequence (reads ++ [⟨s, request, batch⟩])

theorem initialSnapshot_of_ends {request : TerminalEventSubscriptionRequest}
    {result : TerminalEventSubscriptionResult}
    (h : (turn (.message (.subscribe request)) s).Ends calls (.ok (.subscribed result)) s') :
    result.initialSnapshot = s.snapshot := by
  have hwp : Wp anything (turn (.message (.subscribe request)))
      (fun answer _ _ => ∀ result, answer = .subscribed result → result.initialSnapshot = s.snapshot)
      (fun _ _ _ => True) s () := by
    simp only [turn, handleMessage, subscribe, wp_bind, wp_ensureSession,
      wp_ensureGeneration, Calling.wp_ofExcept, wp_get, wp_ite, wp_fail,
      wp_modify, wp_takeSnapshot, wp_pure]
    refine ⟨fun _ => ⟨fun _ => ⟨fun _ _ => ⟨fun _ => trivial, fun _ => ?_⟩, fun _ _ => trivial⟩,
      fun _ => trivial⟩, fun _ => trivial⟩
    rintro result ⟨⟩
    rfl
  exact (hwp.ends h).1 result rfl

theorem batch_of_ends (h : (turn (.message (.readEvents request)) s).Ends calls (.ok (.batch batch)) s')
    (hgen : request.runtimeGeneration = s.runtimeGeneration) : batch = s.readBatch request := by
  have hwp : Wp anything (turn (.message (.readEvents request)))
      (fun answer _ _ => answer = .batch (s.readBatch request)) (fun _ _ _ => True) s () := by
    simp only [turn, handleMessage, readEvents, wp_bind, wp_ensureSession, wp_get,
      wp_ite, wp_fail, wp_modify, wp_pure]
    exact ⟨fun _ => ⟨fun hne => absurd hgen hne, fun _ => ⟨fun _ => trivial,
      fun _ => trivial⟩⟩, fun _ => trivial⟩
  have hpost : Answer.batch batch = .batch (s.readBatch request) := (hwp.ends h).1
  exact Answer.batch.inj hpost

variable {consumerId : String} {cursor : Nat} {reads : List Read}

theorem Reading.run (h : Reading start consumerId s cursor reads) : ∃ past, Run start s past := by
  induction h with
  | subscribed h hcons hends => exact ⟨_, h.step hends⟩
  | other h hends ih | read h hcons hgen hends ih =>
    obtain ⟨past, hrun⟩ := ih
    exact ⟨_, hrun.step hends⟩

/-- The invariant of a consumer: its cursor is not ahead of the stream, its reads are sound, they
were made before now, and reads during which nothing was emitted have brought it forward. -/
structure ReadingInv (s : TerminalSessionActor) (cursor : Nat) (reads : List Read) : Prop where
  behind : cursor ≤ s.emitted.length
  sound : ∀ read ∈ reads, read.Sound
  earlier : ∀ read ∈ reads, read.before.emitted.length ≤ s.emitted.length
  advanced : ∀ before first later, reads = before ++ first :: later →
    (∀ read ∈ first :: later, read.before.emitted.length = s.emitted.length) →
      first.request.afterSequence + (later.length + 1) ≤ cursor ∨ cursor = s.emitted.length

theorem ReadingInv.other {s s' : TerminalSessionActor} {cursor : Nat} {reads : List Read}
    (h : ReadingInv s cursor reads) (hgr : s.emitted.length ≤ s'.emitted.length) :
    ReadingInv s' cursor reads := by
  refine ⟨Nat.le_trans h.behind hgr, h.sound,
    fun read hread => Nat.le_trans (h.earlier read hread) hgr, ?_⟩
  intro before first later hspl hstl
  -- if nothing was emitted since the first read, nothing was emitted by this turn
  have hfst := h.earlier first (hspl ▸ mem_append_right _ (mem_cons_self ..))
  have hnow := hstl first (mem_cons_self ..)
  have hsame : s.emitted.length = s'.emitted.length := by omega
  rw [← hsame]
  exact h.advanced before first later hspl fun read hread => hsame ▸ hstl read hread

/-- A sound read brings the cursor forward, unless it is at the end. -/
theorem ReadingInv.read {s s' : TerminalSessionActor} {reads : List Read} {read : Read}
    (h : ReadingInv s read.request.afterSequence reads) (hbef : read.before = s)
    (hinv : StreamInv s) (hsnd : read.Sound) (hsame : s'.emitted = s.emitted) :
    ReadingInv s' read.batch.nextSequence (reads ++ [read]) := by
  have hseq := hinv.sequence
  have hprog := hsnd.progress
  obtain ⟨hlat, hcur⟩ := hsnd.latest
  have hfwd := hsnd.forward
  rw [hbef] at hprog hcur
  have hbeh := h.behind
  constructor
  · rw [hsame]
    omega
  · intro r hr
    rcases mem_append.1 hr with hr | hr
    · exact h.sound r hr
    · exact mem_singleton.1 hr ▸ hsnd
  · intro r hr
    rw [hsame]
    rcases mem_append.1 hr with hr | hr
    · exact h.earlier r hr
    · rw [mem_singleton.1 hr, hbef]
  · intro before first later hspl hstl
    rw [hsame] at hstl ⊢
    rcases eq_nil_or_concat' later with rfl | ⟨later', last, rfl⟩
    · -- the first of these reads is this one
      obtain ⟨-, hfst⟩ := append_inj' hspl rfl
      cases hfst
      simp only [length_nil]
      omega
    · rw [← cons_append, ← append_assoc] at hspl
      obtain ⟨hrds, hlast⟩ := append_inj' hspl rfl
      have hearl := h.advanced before first later' hrds fun r hr =>
        hstl r (cons_append ▸ mem_append_left _ hr)
      rw [length_append, length_singleton]
      omega

theorem emitted_of_read (h : (turn (.message (.readEvents request)) s).Ends calls answer s') :
    s'.emitted = s.emitted := by
  have hsnaps : ∀ t, Snaps s t → t.emitted = s.emitted := by
    rintro t (hcore | hcore)
    · exact congrArg Core.emitted hcore
    · exact congrArg Core.emitted hcore
  have hdoes : Does (turn (.message (.readEvents request))) s fun _ t => t.emitted = s.emitted :=
    ((does_readEvents request s).mono fun _ t h => hsnaps t h).answered
  have hpost := (hdoes.ends h).1
  cases answer with
  | ok answer | error e => exact hpost

theorem Reading.inv (h : Reading start consumerId s cursor reads) (hstart : StreamInv start)
    (hcnt : s.emitted.length ≤ u64Max) (hrfrd : ∀ read ∈ reads, read.Refreshed) :
    ReadingInv s cursor reads := by
  induction h with
  | @subscribed s s' past request calls result h hcons hends =>
    have hgr := (streams_of_ends hends).emitted_front.length_le
    have hinv := h.streamInv hstart (Nat.le_trans hgr hcnt)
    have hbarr := hinv.snapshot.1
    rw [hinv.sequence] at hbarr
    refine ⟨?_, by simp, by simp, ?_⟩
    · rw [initialSnapshot_of_ends hends]
      exact Nat.le_trans hbarr hgr
    · intro before first later hspl
      simp at hspl
  | other h hends ih =>
    have hgr := (streams_of_ends hends).emitted_front.length_le
    exact (ih (Nat.le_trans hgr hcnt) hrfrd).other hgr
  | @read s s' reads request calls batch h hcons hgen hends ih =>
    have hsame := emitted_of_read hends
    rw [hsame] at hcnt
    have hinv : StreamInv s := by
      obtain ⟨past, hrun⟩ := h.run
      exact hrun.streamInv hstart hcnt
    have hearl := ih hcnt fun read hread => hrfrd read (mem_append_left _ hread)
    have hbatch := batch_of_ends hends hgen
    subst hbatch
    have hnow := hrfrd _ (mem_append_right _ (mem_singleton_self _))
    have hsnd : Read.Sound ⟨s, request, s.readBatch request⟩ :=
      hinv.sound_readBatch (hinv.sequence ▸ hearl.behind) hnow
    exact @ReadingInv.read s s' reads ⟨s, request, s.readBatch request⟩ hearl rfl hinv hsnd
      hsame

/-- **Reading is free of gaps and comes to an end.**  In every run with at most as many events as
there are numbers, in which no consumer is sent to a snapshot older than the ring: a batch holds
exactly the emitted events between the cursor before and the cursor after; the cursor never goes
back; a gap hands out a snapshot ahead of the cursor; and while nothing is emitted, as many reads as
there are events after the cursor reach the end of the stream. -/
theorem Reading.gap_free {sessionId consumerId : String}
    {runtimeGeneration initialLeaseEpoch cursor : Nat} {runtime : Option TerminalRuntimeHandles}
    {geometry : TerminalGeometry} {initialOutput : List UInt8} {s : TerminalSessionActor}
    {reads : List Read} (h : Reading (.new sessionId runtimeGeneration initialLeaseEpoch runtime
      geometry initialOutput) consumerId s cursor reads)
    (hcnt : s.emitted.length ≤ u64Max) (hrfrd : ∀ read ∈ reads, read.Refreshed) :
    (∀ read ∈ reads, read.Sound) ∧
    ∀ before first later, reads = before ++ first :: later →
      (∀ read ∈ first :: later, read.before.emitted = s.emitted) →
      s.streamSequence - first.request.afterSequence ≤ (first :: later).length →
        cursor = s.streamSequence := by
  have hinv := h.inv (streamInv_new _ _ _ _ _ _) hcnt hrfrd
  have hstrm : s.streamSequence = s.emitted.length := by
    obtain ⟨past, hrun⟩ := h.run
    exact (hrun.streamInv (streamInv_new _ _ _ _ _ _) hcnt).sequence
  refine ⟨hinv.sound, fun before first later hspl hstl hmany => ?_⟩
  have hadvd := hinv.advanced before first later hspl fun read hread => by
    rw [hstl read hread]
  have hbeh := hinv.behind
  rw [hstrm] at hmany ⊢
  rw [length_cons] at hmany
  omega

/-! ### A consumer that is left behind -/

/-- The two presentations that begin activations in turn. -/
def rival (n : Nat) : String := if n % 2 = 0 then "p" else "q"

/-- The rivals have begun `n` activations, and the snapshot remembered is still the one that the
consumer `c` was given at the start. -/
structure Contested (n : Nat) (s : TerminalSessionActor) : Prop where
  session : s.sessionId = "s"
  generation : s.runtimeGeneration = 1
  live : s.runtimeState = .live
  epoch : s.leaseEpoch = min n u64Max
  sequence : s.activationSequence = min n u64Max
  eligible : ∀ k, s.presentationIsEligible (rival k) = true
  pending : ∀ pending, s.pendingActivation = some pending → pending.state.presentationId ≠ rival n
  consumer : s.consumers["c"]?.isSome
  printing : s.runtime.isSome ∧ s.outputFilter = .new false false
  cached : ∃ snapshot, s.cachedSnapshot = some snapshot ∧ snapshot.sequenceBarrier = 0
  emitted : s.emitted.length = n

theorem saturatingSucc_min (n : Nat) : saturatingSucc (min n u64Max) = min (n + 1) u64Max := by
  unfold saturatingSucc
  split
  · omega
  · omega

theorem rival_ne_succ (n : Nat) : rival n ≠ rival (n + 1) := by
  unfold rival
  rcases Nat.mod_two_eq_zero_or_one n with h | h
  · rw [if_pos h, if_neg (by omega)]
    decide
  · rw [if_neg (by omega), if_pos (by omega)]
    decide

namespace TerminalSessionActor

variable {s : TerminalSessionActor}

theorem presentationIsEligible_modifyRecord {s' : TerminalSessionActor} {presentationId : String}
    {f : PresentationRecord → PresentationRecord} (hstate : s'.runtimeState = s.runtimeState)
    (hpres : s'.presentations = modifyRecord s.presentations presentationId f)
    (hf : ∀ record, (f record).state.visibility = record.state.visibility ∧
      (f record).state.renderState = record.state.renderState ∧
        (f record).state.interactionCapability = record.state.interactionCapability)
    (id : String) : s'.presentationIsEligible id = s.presentationIsEligible id := by
  unfold presentationIsEligible
  rw [hstate, hpres]
  unfold modifyRecord
  cases hrec : s.presentations[presentationId]? with
  | none => rfl
  | some record =>
    obtain ⟨hvisi, hrender, hcapb⟩ := hf record
    simp only [Table.lookup_insert]
    split
    · rename_i heq
      rw [← heq, hrec]
      simp [hvisi, hrender, hcapb]
    · rfl

theorem isSome_of_eligible {presentationId : String} (h : s.presentationIsEligible presentationId = true) :
    s.presentations[presentationId]?.isNone = false := by
  unfold presentationIsEligible at h
  cases hrec : s.presentations[presentationId]? with
  | none => simp [hrec] at h
  | some record => rfl

end TerminalSessionActor

/-- The request of the next rival. -/
def rivalRequest (n : Nat) : TerminalActivationBeginRequest := ⟨"s", rival n, 1, min n u64Max⟩

theorem Contested.opened {n : Nat} {s : TerminalSessionActor} (h : Contested n s) :
    Contested (n + 1) ({ s with pendingActivation := none }.openActivation (rivalRequest n)
      s.pendingActivation).2 := by
  obtain ⟨snapshot, hcchd, hbarr⟩ := h.cached
  constructor
  · rw [openActivation_sessionId]
    exact h.session
  · rw [openActivation_runtimeGeneration]
    exact h.generation
  · rw [openActivation_runtimeState]
    exact h.live
  · rw [openActivation_leaseEpoch, h.epoch, saturatingSucc_min]
  · rw [openActivation_activationSequence, h.sequence, saturatingSucc_min]
  · intro k
    have hsame := presentationIsEligible_modifyRecord (s := s) (openActivation_runtimeState _ _ _)
      (openActivation_presentations { s with pendingActivation := none } (rivalRequest n)
        s.pendingActivation) (fun record => ⟨rfl, rfl, rfl⟩) (rival k)
    exact hsame.trans (h.eligible k)
  · rintro pending hpend
    rw [openActivation_pendingActivation] at hpend
    cases hpend
    rw [openActivation_presentationId]
    exact rival_ne_succ n
  · rw [openActivation_consumers]
    exact h.consumer
  · obtain ⟨hrun, hfltr⟩ := openActivation_runtime { s with pendingActivation := none }
      (rivalRequest n) s.pendingActivation
    rw [hrun, hfltr]
    exact h.printing
  · refine ⟨snapshot, ?_, hbarr⟩
    rw [openActivation_cachedSnapshot]
    change some (s.cachedSnapshot.getD _) = some snapshot
    rw [hcchd, getD_some]
  · rw [openActivation_emitted]
    change (s.emitted ++ [_]).length = n + 1
    rw [length_append, length_singleton, h.emitted]

theorem Contested.wp_turn (h : Contested n s) {γ : Type}
    {o : Outside terminalInterface TerminalSessionActor γ} {c : γ}
    {Q : Answer → TerminalSessionActor → γ → Prop} {R : TerminalBrokerError → TerminalSessionActor → γ → Prop}
    (hstart : Wp o (startActivation (rivalRequest n)) (fun result => Q (.begun result)) R s c) :
    Wp o (turn (.message (.beginActivation (rivalRequest n)))) Q R s c := by
  have hfst : s.repeatedBegin (rivalRequest n) = none := by
    unfold repeatedBegin
    cases hpend : s.pendingActivation with
    | none => rfl
    | some pending => simp [rivalRequest, h.pending pending hpend]
  have hsome := isSome_of_eligible (h.eligible n)
  simp only [turn, handleMessage, beginActivation, wp_bind, wp_ensureSession,
    wp_get, wp_ite, wp_pure, hfst]
  simp only [rivalRequest, h.session, h.generation, h.live, hsome, h.eligible n, h.epoch, ne_eq,
    not_true_eq_false, false_implies, not_false_eq_true, true_implies, Bool.false_eq_true,
    Bool.not_true, and_true, true_and]
  exact hstart

theorem Contested.wp_begin (h : Contested n s) :
    Wp anything (turn (.message (.beginActivation (rivalRequest n))))
      (fun _ s' _ => Contested (n + 1) s') (fun _ _ _ => False) s () := by
  have hopnd := h.opened
  refine h.wp_turn ?_
  simp only [startActivation, wp_bind, wp_get, wp_modify]
  cases hpend : s.pendingActivation with
  | none =>
    rw [hpend] at hopnd
    simp only [wp_bind, wp_get, wp_modify, wp_pure,
      wp_scheduleActivationTimeout]
    exact hopnd
  | some previous =>
    rw [hpend] at hopnd
    simp only [wp_bind, wp_get, wp_modify, wp_pure,
      wp_cancelActivationTimeout, wp_scheduleActivationTimeout]
    exact hopnd

/-- Output forgets the snapshot. -/
theorem Contested.wp_output (h : Contested n s) :
    Wp anything (turn (.message (.output 1 [97])))
      (fun _ s' _ => s'.cachedSnapshot = none ∧ s'.emitted.length = n + 1 ∧ s'.sessionId = "s" ∧
        s'.runtimeGeneration = 1 ∧ s'.consumers["c"]?.isSome) (fun _ _ _ => False) s () := by
  obtain ⟨hrun, hfltr⟩ := h.printing
  have hsome : s.runtime.isNone = false := by
    rw [← not_isSome, hrun]
    rfl
  have hpiece : chunks maxBatchBytes [97] = [[(97 : UInt8)]] := by decide
  simp only [turn, handleMessage, processOutput, wp_bind, wp_ensureGeneration, wp_get, wp_ite,
    wp_fail, wp_pure, wp_modify]
  refine ⟨fun _ => ⟨fun hdead => ?_, fun _ => ⟨fun hemp => (by cases hemp), fun _ => ?_⟩⟩,
    fun hgen => absurd h.generation.symm hgen⟩
  · simp [h.live, hsome] at hdead
  · rw [hfltr]
    simp [TerminalOutputFilter.new, TerminalOutputFilter.filter, hpiece, emitEvent, h.emitted,
      h.session, h.generation, h.consumer]

theorem Reading.step_read (request : TerminalEventReadRequest)
    (h : Reading start consumerId s request.afterSequence reads) (hcons : request.consumerId = consumerId)
    (hses : request.sessionId = s.sessionId)
    (hgen : request.runtimeGeneration = s.runtimeGeneration)
    (hsubs : s.consumers[request.consumerId]?.isSome) :
    Reading start consumerId (s.afterBatch (s.readBatch request)) (s.readBatch request).nextSequence
      (reads ++ [⟨s, request, s.readBatch request⟩]) := by
  have hwp : Wp anything (turn (.message (.readEvents request)))
      (fun answer s' _ => answer = .batch (s.readBatch request) ∧
        s' = s.afterBatch (s.readBatch request)) (fun _ _ _ => False) s () := by
    have hnone : s.consumers[request.consumerId]?.isNone = false := by
      rw [← not_isSome, hsubs]
      rfl
    simp only [turn, handleMessage, readEvents, wp_bind, wp_ensureSession, wp_get,
      wp_ite, wp_fail, wp_modify, wp_pure, hnone]
    exact ⟨fun _ => ⟨fun hne => absurd hgen hne, fun _ =>
      ⟨fun hfls => (by cases hfls), fun _ => ⟨trivial, trivial⟩⟩⟩, fun hne => absurd hses hne⟩
  have hends := Thread.ends_run (I := terminalInterface) acceptAll
    (turn (.message (.readEvents request)) s)
  have hpost := (hwp.ends hends).1
  cases hans : ((turn (.message (.readEvents request)) s).run acceptAll).1 with
  | error e =>
    rw [hans] at hpost
    exact hpost.elim
  | ok answer =>
    rw [hans] at hpost hends
    obtain ⟨rfl, hstate⟩ := hpost
    rw [hstate] at hends
    exact .read h hcons hgen hends

/-- The consumer `c` subscribes to an actor that has not emitted anything. -/
def subscribeTurn : Turn := .message (.subscribe ⟨"s", "c", .desktop, 1⟩)

/-- Then the rivals register. -/
def rivalTurns : List Turn := [registerTurn "p" .interactive, registerTurn "q" .interactive]

/-- The request of `c` for one event after a cursor. -/
def sampleRead (afterSequence : Nat) : TerminalEventReadRequest :=
  ⟨"s", "c", 1, afterSequence, 1, maxBatchBytes⟩

theorem Reading.play (h : Reading start consumerId s cursor reads) (answers : (op : TerminalCall) → op.Reply)
    (turns : List Turn) : Reading start consumerId (playState answers turns s) cursor reads := by
  induction turns generalizing s with
  | nil => exact h
  | cons turn turns ih =>
    exact ih (.other h (Thread.ends_run (I := terminalInterface) answers
      (TerminalSessionActor.turn turn s)))

/-- The state when the contest begins. -/
def contestStart : TerminalSessionActor :=
  playState acceptAll (subscribeTurn :: rivalTurns) (sampleActor 0)

/-- The barrier that a subscription starts from. -/
def initialBarrier : Except TerminalBrokerError Answer → Option Nat
  | .ok (.subscribed result) => some result.initialSnapshot.sequenceBarrier
  | _ => none

theorem reading_contestStart : Reading (sampleActor 0) "c" contestStart 0 [] := by
  have hans : initialBarrier ((turn subscribeTurn (sampleActor 0)).run acceptAll).1 = some 0 := by
    decide
  have hends := Thread.ends_run (I := terminalInterface) acceptAll (turn subscribeTurn (sampleActor 0))
  refine Reading.play ?_ acceptAll rivalTurns
  unfold initialBarrier at hans
  split at hans
  · rename_i result hres
    rw [hres] at hends
    have hrdg := @Reading.subscribed (sampleActor 0) "c" _ _ _ _ _ _ .start rfl hends
    rw [Option.some.inj hans] at hrdg
    exact hrdg
  · cases hans

theorem contested_start : Contested 0 contestStart where
  session := by decide
  generation := by decide
  live := by decide
  epoch := by decide
  sequence := by decide
  eligible := by
    have hboth : contestStart.presentationIsEligible "p" = true ∧
        contestStart.presentationIsEligible "q" = true := by
      decide
    intro k
    unfold rival
    split
    · exact hboth.1
    · exact hboth.2
  pending := by
    have hnone : contestStart.pendingActivation = none := by decide
    intro pending hpend
    rw [hnone] at hpend
    cases hpend
  consumer := by decide
  printing := by decide
  cached := by
    have hcchd : contestStart.cachedSnapshot.map (·.sequenceBarrier) = some 0 := by
      decide
    exact map_eq_some_iff.1 hcchd
  emitted := by decide

theorem exists_contested (n : Nat) : ∃ s, Reading (sampleActor 0) "c" s 0 [] ∧ Contested n s := by
  induction n with
  | zero => exact ⟨contestStart, reading_contestStart, contested_start⟩
  | succ n ih =>
    obtain ⟨s, hrdg, hcont⟩ := ih
    have hends := Thread.ends_run (I := terminalInterface) acceptAll
      (turn (.message (.beginActivation (rivalRequest n))) s)
    have hpost := (hcont.wp_begin.ends hends).1
    cases hans : ((turn (.message (.beginActivation (rivalRequest n))) s).run acceptAll).1 with
    | error e =>
      rw [hans] at hpost
      exact hpost.elim
    | ok answer =>
      rw [hans] at hpost
      exact ⟨_, .other hrdg hends, hpost⟩

/-- A ring that has dropped an event has left the cursor of `c` behind, and a read from there is
turned down. -/
theorem StreamInv.left_behind (hinv : StreamInv s) (hmany : maxReplayEvents < s.emitted.length) :
    1 < s.availableFromSequence := by
  have hboun := hinv.bounded
  have hseq := hinv.sequence
  rcases hinv.available with heq | ⟨hnil, -⟩
  · omega
  · refine absurd hnil (hinv.kept ?_)
    rintro hemp
    rw [hemp, length_nil] at hmany
    omega

theorem StreamInv.readBatch_gap (hinv : StreamInv s) (hmany : maxReplayEvents < s.emitted.length) :
    s.readBatch (sampleRead 0) = s.recoveryBatch .gap := by
  have hleft := hinv.left_behind hmany
  have hgap : s.cursorHasGap 0 = true := by
    have hahead : 0 < s.availableFromSequence - 1 := by omega
    simp [cursorHasGap, hahead]
  unfold TerminalSessionActor.readBatch sampleRead
  rw [if_pos hgap]

/-- With the snapshot of the subscription such a read ends where it began. -/
theorem Contested.readBatch (h : Contested n s) (hinv : StreamInv s) (hmany : maxReplayEvents < n) :
    (s.readBatch (sampleRead 0)).status = .gap ∧ (s.readBatch (sampleRead 0)).nextSequence = 0 := by
  obtain ⟨snapshot, hcchd, hbarr⟩ := h.cached
  rw [hinv.readBatch_gap (by rw [h.emitted]; exact hmany)]
  refine ⟨rfl, ?_⟩
  change s.snapshot.sequenceBarrier = 0
  unfold TerminalSessionActor.snapshot
  rw [hcchd, getD_some, hbarr]

/-- A batch that is handed out leaves the stream alone. -/
theorem TerminalSessionActor.afterBatch_stream (s : TerminalSessionActor) (batch : TerminalEventBatch) :
    (s.afterBatch batch).emitted = s.emitted ∧ (s.afterBatch batch).streamSequence = s.streamSequence := by
  unfold TerminalSessionActor.afterBatch
  split
  · exact ⟨rfl, rfl⟩
  · exact ⟨rfl, rfl⟩

theorem Contested.afterBatch (h : Contested n s)
    (batch : TerminalEventBatch) : Contested n (s.afterBatch batch) := by
  unfold TerminalSessionActor.afterBatch
  split
  · obtain ⟨snapshot, hcchd, hbarr⟩ := h.cached
    refine ⟨h.session, h.generation, h.live, h.epoch, h.sequence, h.eligible, h.pending, h.consumer,
      h.printing, ?_, h.emitted⟩
    refine ⟨snapshot, ?_, hbarr⟩
    change some (s.cachedSnapshot.getD _) = some snapshot
    rw [hcchd, getD_some]
  · exact h

/-- **Reads that never come forward.**  A consumer subscribes, the lease changes hands more often
than the ring has places, and from then on every read after the consumer's cursor is answered with
the snapshot of its subscription, although nothing is emitted any more. -/
theorem reading_stalls : ∃ latest, 0 < latest ∧ latest ≤ u64Max ∧ ∀ k, ∃ s reads,
    Reading (sampleActor 0) "c" s 0 reads ∧ reads.length = k ∧ s.streamSequence = latest ∧
      ∀ read ∈ reads, read.before.emitted = s.emitted ∧ read.request.afterSequence = 0 ∧
        read.batch.status = .gap ∧ read.batch.nextSequence = 0 := by
  refine ⟨maxReplayEvents + 1, Nat.succ_pos _, by decide, fun k => ?_⟩
  have hstart : StreamInv (sampleActor 0) := streamInv_new _ _ _ _ _ _
  have hrun : ∃ s reads, Reading (sampleActor 0) "c" s 0 reads ∧ Contested (maxReplayEvents + 1) s ∧
      reads.length = k ∧ ∀ read ∈ reads, read.before.emitted = s.emitted ∧
        read.request.afterSequence = 0 ∧ read.batch.status = .gap ∧
          read.batch.nextSequence = 0 := by
    induction k with
    | zero =>
      obtain ⟨s, hrdg, hcont⟩ := exists_contested (maxReplayEvents + 1)
      exact ⟨s, [], hrdg, hcont, rfl, by simp⟩
    | succ k ih =>
      obtain ⟨s, reads, hrdg, hcont, hlen, hrds⟩ := ih
      have hinv : StreamInv s := by
        obtain ⟨past, hrun⟩ := hrdg.run
        refine hrun.streamInv hstart ?_
        rw [hcont.emitted]
        decide
      obtain ⟨hstat, hnext⟩ := hcont.readBatch hinv (Nat.lt_succ_self _)
      have hread := Reading.step_read (sampleRead 0) hrdg rfl
        hcont.session.symm hcont.generation.symm hcont.consumer
      rw [hnext] at hread
      refine ⟨_, _, hread, hcont.afterBatch _, by simp [hlen], ?_⟩
      intro read hmem
      rw [(s.afterBatch_stream _).1]
      rcases mem_append.1 hmem with hmem | hmem
      · exact hrds read hmem
      · rw [mem_singleton.1 hmem]
        exact ⟨rfl, rfl, hstat, hnext⟩
  obtain ⟨s, reads, hrdg, hcont, hlen, hrds⟩ := hrun
  refine ⟨s, reads, hrdg, hlen, ?_, hrds⟩
  obtain ⟨past, hrun⟩ := hrdg.run
  rw [(hrun.streamInv hstart (by rw [hcont.emitted]; decide)).sequence, hcont.emitted]

/-- Two events, read one by one; and a read that the ring has left behind, which a snapshot taken
after the output brings to the end. -/
theorem gap_free_sampleRead :
    (∃ s reads, Reading (sampleActor 0) "c" s 2 reads ∧ reads.length = 2 ∧
      (∀ read ∈ reads, read.Sound) ∧ 2 = s.streamSequence) ∧
    ∃ s read, Reading (sampleActor 0) "c" s (maxReplayEvents + 2) [read] ∧
      read.batch.status = .gap ∧ read.request.afterSequence + 1 < read.before.availableFromSequence ∧
      read.Sound ∧ maxReplayEvents + 2 = s.streamSequence := by
  refine ⟨?_, ?_⟩
  · let s := playState acceptAll [beginTurn "p" 0, beginTurn "q" 1] contestStart
    let t := s.afterBatch (s.readBatch (sampleRead 0))
    have hs : Reading (sampleActor 0) "c" s 0 [] := reading_contestStart.play acceptAll _
    have ht : Reading (sampleActor 0) "c" t 1 [⟨s, sampleRead 0, s.readBatch (sampleRead 0)⟩] := by
      have hnext : (s.readBatch (sampleRead 0)).nextSequence = 1 := by decide
      have hread := Reading.step_read (sampleRead 0) hs rfl (by decide) (by decide)
        (by decide)
      rw [hnext] at hread
      exact hread
    have hend : Reading (sampleActor 0) "c" (t.afterBatch (t.readBatch (sampleRead 1))) 2
        [⟨s, sampleRead 0, s.readBatch (sampleRead 0)⟩,
          ⟨t, sampleRead 1, t.readBatch (sampleRead 1)⟩] := by
      have hnext : (t.readBatch (sampleRead 1)).nextSequence = 2 := by decide
      have hread := Reading.step_read (sampleRead 1) ht rfl (by decide) (by decide)
        (by decide)
      rw [hnext] at hread
      exact hread
    have hfrs : ∀ read ∈ [(⟨s, sampleRead 0, s.readBatch (sampleRead 0)⟩ : Read),
        ⟨t, sampleRead 1, t.readBatch (sampleRead 1)⟩], read.Refreshed := by
      intro read hmem
      rcases mem_pair.1 hmem with rfl | rfl
      · exact Read.refreshed_of_complete (by decide)
      · exact Read.refreshed_of_complete (by decide)
    obtain ⟨hsnd, hrchd⟩ := Reading.gap_free hend (by decide) hfrs
    refine ⟨_, _, hend, rfl, hsnd, hrchd [] _ _ rfl ?_ (by decide)⟩
    intro read hmem
    rcases mem_pair.1 hmem with rfl | rfl
    · decide
    · decide
  · obtain ⟨s, hrdg, hcont⟩ := exists_contested (maxReplayEvents + 1)
    have hends := Thread.ends_run (I := terminalInterface) acceptAll
      (turn (.message (.output 1 [97])) s)
    obtain ⟨t, hplay, hnone, hemtd, hses, hgen, hcons⟩ : ∃ t, Reading (sampleActor 0) "c" t 0 [] ∧
        t.cachedSnapshot = none ∧ t.emitted.length = maxReplayEvents + 2 ∧ t.sessionId = "s" ∧
          t.runtimeGeneration = 1 ∧ t.consumers["c"]?.isSome := by
      have hpost := (hcont.wp_output.ends hends).1
      cases hans : ((turn (.message (.output 1 [97])) s).run acceptAll).1 with
      | error e =>
        rw [hans] at hpost
        exact hpost.elim
      | ok answer =>
        rw [hans] at hpost
        exact ⟨_, .other hrdg hends, hpost⟩
    have hinv : StreamInv t := by
      obtain ⟨past, hrun⟩ := hplay.run
      exact hrun.streamInv (streamInv_new _ _ _ _ _ _) (by rw [hemtd]; decide)
    have hmany : maxReplayEvents < t.emitted.length := by
      rw [hemtd]
      decide
    have hbatch := hinv.readBatch_gap hmany
    have hnext : (t.readBatch (sampleRead 0)).nextSequence = maxReplayEvents + 2 := by
      rw [hbatch, ← hemtd, ← hinv.sequence]
      change t.snapshot.sequenceBarrier = t.streamSequence
      unfold TerminalSessionActor.snapshot
      rw [hnone]
      rfl
    have hread := Reading.step_read (sampleRead 0) hplay rfl hses.symm hgen.symm hcons
    rw [hnext] at hread
    have hsame := t.afterBatch_stream (t.readBatch (sampleRead 0))
    obtain ⟨hsnd, -⟩ := Reading.gap_free hread (by rw [hsame.1, hemtd]; decide) (by
      intro read hmem _ snapshot hcchd
      rw [mem_singleton.1 hmem, hnone] at hcchd
      cases hcchd)
    refine ⟨_, _, hread, congrArg (·.status) hbatch, hinv.left_behind hmany,
      hsnd _ (mem_singleton_self _), ?_⟩
    rw [hsame.2, hinv.sequence, hemtd]

end Wardian.Terminal
