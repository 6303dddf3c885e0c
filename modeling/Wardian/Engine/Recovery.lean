/-
The startup sweep and the durable decisions.

At startup the host fails the runs whose checkpoint is still running.  It looks at the checkpoint and
at the replay of the log; the two may disagree after a crash between an event and its checkpoint.

Main results:

* `Engine.History.recovers_iff` — a reachable directory is recovered as its log asks for unless its
  checkpoint is running while its log has parked at a gate.
-/

import Wardian.Engine.Finality

set_option autoImplicit false

namespace Wardian.Engine

open Option
open Automation (Blueprint validate)
open Prog (Wp wp_bind wp_get wp_ite wp_mono wp_ofExcept_of wp_ofExcept_ok wp_pure)

variable {ω : Type} {host : Host ω} {bp : Blueprint} {dir : RunDir} {s t : RunState}
  {w w' : World ω}

/-! ### The property -/

/-- The sweep appends an event only to a run whose log replays as running, and a run whose log
replays otherwise keeps that outcome, in its log and in a checkpoint that the sweep writes. -/
structure KeepsDecision (host : Host ω) (library : Library) (bp : Blueprint) (w w' : World ω) :
    Prop where
  appends : w'.dir.events ≠ w.dir.events →
    ∃ s, (replay host bp w).1 = .ok s ∧ s.status = .running
  keeps : ∀ s, (replay host bp w).1 = .ok s → s.status ≠ .running →
    (replay host bp w').1 = .ok s ∧
      ∀ c, w'.dir.checkpoint = some c → w.dir.checkpoint = some c ∨ c.status = s.status

/-- Whatever process sweeps the directory, it keeps the decisions of the log. -/
def Recovers (hash : Blueprint → String) (library : Library) (bp : Blueprint) (dir : RunDir) :
    Prop :=
  ∀ (ω : Type) (host : Host ω) (w : World ω), host.blueprintHash = hash → w.dir = dir →
    KeepsDecision host library bp w (failInterruptedRun host library w).2

/-! ### The snapshot of the blueprint -/

/-- The directory holds the blueprint of its run, and its checkpoint is a normal state. -/
def Snapshot (bp : Blueprint) (dir : RunDir) : Prop :=
  dir.blueprint = some bp ∧ ∀ c, dir.checkpoint = some c → c.Normal

theorem foldTail_normal : ∀ {events : List Event} {k expected : Nat} {s t : RunState},
    s.Normal → foldTail bp k expected s events = .ok t → t.Normal := by
  intro events
  induction events with
  | nil =>
    intro k expected s t hs h
    cases h
    exact hs
  | cons ev events ih =>
    intro k expected s t hs h
    rw [foldTail] at h
    split at h
    · cases h
    · split at h
      · split at h
        · cases h
        · cases happ : apply bp s ev with
          | error e =>
            rw [happ] at h
            cases h
          | ok s' =>
            rw [happ] at h
            exact ih (normal_apply hs happ) h
      · exact ih hs h

theorem Snapshot.normal (h : Snapshot bp dir) (hload : loadedState bp dir = .ok t) : t.Normal := by
  have hfold : ∀ c : RunState, c.Normal → foldEventLog bp c dir.events = .ok t → t.Normal := by
    intro c hc hfold
    unfold foldEventLog at hfold
    split at hfold
    · cases hfold
    · cases hseq : validateEventSequence dir.events with
      | error e => rw [hseq] at hfold; cases hfold
      | ok n =>
        cases hid : validateEventIdentity bp c dir.events with
        | error e => rw [hseq, hid] at hfold; cases hfold
        | ok u =>
          cases htail : foldTail bp c.nextSeq 0 c dir.events with
          | error e => rw [hseq, hid, htail] at hfold; cases hfold
          | ok t' =>
            rw [hseq, hid, htail] at hfold
            change (if n < c.nextSeq then _ else _) = _ at hfold
            split at hfold
            · cases hfold
            · obtain rfl := Except.ok.inj hfold
              exact foldTail_normal hc htail
  unfold loadedState at hload
  cases hc : dir.checkpoint with
  | none =>
    rw [hc] at hload
    exact hfold _ (RunState.normal_new _ _) hload
  | some c =>
    have hnorm := h.2 c hc
    rw [hc, map_some, getD_some, RunState.normalizeLegacy_of_normal hnorm] at hload
    exact hfold c hnorm hload

theorem lasting_snapshot (read : ReadFloat) : Lasting (ω := ω) read bp
    (fun t w => t.Normal ∧ Snapshot bp w.dir) fun w => Snapshot bp w.dir where
  normal h := RunState.normalizeLegacy_of_normal h.1
  stops h := h.2
  aside h _ hcp hblue := ⟨h.1, hblue.trans h.2.1, hcp ▸ h.2.2⟩
  saves h := ⟨h.1, h.2.1, fun _ hc => Option.some.inj hc ▸ RunState.normal_reread.2 h.1⟩
  emits h _ _ happ := ⟨h.2, normal_apply h.1 happ, h.2.1, fun _ hc =>
    Option.some.inj hc ▸ RunState.normal_reread.2 (normal_apply h.1 happ)⟩

/-- A directory has no checkpoint yet, or the blueprint of its run beside it. -/
def Swept (bp : Blueprint) (dir : RunDir) : Prop :=
  (dir.events = [] ∧ dir.checkpoint = none) ∨ Snapshot bp dir

theorem lax_swept : Lax (ω := ω) fun w => Swept bp w.dir := fun _ _ _ h => h

theorem wp_startWithId_swept {fuel : Nat} {runId : String} {trigger : Value}
    (h : Unstarted w) : Wp (startWithId host bp fuel runId trigger)
      (fun _ w' => Swept bp w'.dir) (fun _ w' => Swept bp w'.dir) w := by
  unfold startWithId
  rw [wp_bind]
  refine wp_initializeWithId h (fun e w' h => .inl ⟨h.events, h.checkpoint⟩) ?_ ?_
  · intro s' w' hbegan hcp
    exact .inr ⟨hbegan.snapshot, fun c hc => by rw [hcp] at hc; cases hc⟩
  · intro s' w' hbegan hcp
    have hnorm := hbegan.journal.normal
    have hsnap : Snapshot bp w'.dir := ⟨hbegan.snapshot, fun c hc =>
      Option.some.inj (hcp.symm.trans hc) ▸ hnorm⟩
    unfold driveFromState
    rw [wp_bind]
    refine wp_ofExcept_of (fun _ _ => ?_) fun _ _ => .inr hsnap
    rw [wp_bind]
    refine wp_ofExcept_of (fun _ _ => ?_) fun _ _ => .inr hsnap
    exact wp_mono ((lasting_snapshot host.readFloat).wp_drive hbegan.valid fuel
      ⟨RunState.normal_reread.1 hnorm, hsnap⟩)
      (fun _ _ h => .inr h) fun _ _ h => .inr h

theorem wp_perform_swept (h : Swept bp w.dir) (op : Op) :
    Wp (perform host bp op) (fun _ w' => Swept bp w'.dir) (fun _ w' => Swept bp w'.dir) w := by
  rcases h with ⟨hevs, hcp⟩ | h
  · exact wp_perform_empty hevs hcp lax_swept (.inl ⟨hevs, hcp⟩) op
  have hdrive : ∀ fuel (t : RunState), (validate bp).isValid = true → t.Normal →
      Wp (drive host bp fuel t) (fun _ w' => Swept bp w'.dir) (fun _ w' => Swept bp w'.dir) w :=
    fun fuel t hval ht => wp_mono ((lasting_snapshot host.readFloat).wp_drive hval fuel ⟨ht, h⟩)
      (fun _ _ h => .inr h) fun _ _ h => .inr h
  have hemit : ∀ (t : RunState) kind host', t.Normal →
      Wp (emit host bp t kind) (fun _ w' => Swept bp w'.dir) (fun _ w' => Swept bp w'.dir)
        { w with host := host' } := by
    intro t kind host' ht
    refine wp_emit (fun _ _ => .inr h) fun t' ts _ happ => ?_
    exact ⟨.inr h, .inr ⟨h.1, fun _ hc =>
      Option.some.inj hc ▸ RunState.normal_reread.2 (normal_apply ht happ)⟩⟩
  have hdec : ∀ node kind, Wp (recordDecision host bp node kind)
      (fun _ w' => Swept bp w'.dir) (fun _ w' => Swept bp w'.dir) w :=
    fun node kind => wp_recordDecision (fun _ _ => .inr h)
      fun t host' hload _ _ _ => hemit t kind host' (h.normal hload)
  have hflr : ∀ c n message host', w.dir.checkpoint = some c →
      Wp (recordFailure host c.normalizeLegacy w.dir.events n message)
        (fun _ w' => Swept bp w'.dir) (fun _ w' => Swept bp w'.dir) { w with host := host' } := by
    intro c n message host' hc
    have hnorm := h.2 c hc
    rw [RunState.normalizeLegacy_of_normal hnorm]
    have hfld : ∀ n c', some ((c.failedWith n message).reread host.readFloat) = some c' → c'.Normal :=
      fun n c' hc' => Option.some.inj hc' ▸ RunState.normal_reread.2 (hnorm.congr rfl rfl)
    exact wp_recordFailure (fun _ => .inr h) (fun _ _ => .inr ⟨h.1, hfld n⟩)
      fun _ ts _ => ⟨.inr h, .inr ⟨h.1, hfld (n + 1)⟩⟩
  cases op with
  | drive fuel =>
    exact wp_performDrive (.inr h) fun t hval hload => hdrive fuel t hval (h.normal hload)
  | resume fuel =>
    exact wp_performResume (.inr h) fun t hval hload _ => hdrive fuel _ hval
      ((agree_remarkInterrupted bp t).normal (h.normal hload))
  | grant node actor note | reject node actor note => exact hdec node _
  | cancel =>
    exact wp_performCancel lax_swept (.inr h) fun t host' hload _ =>
      hemit t _ host' (h.normal hload)
  | cancelAwaiting =>
    exact wp_performCancelAwaiting lax_swept (.inr h) fun c n host' hc _ _ =>
      hflr c n _ host' hc
  | markRunFailed message =>
    exact wp_performMarkRunFailed (.inr h) fun c n hc _ _ => hflr c n message w.host hc

theorem History.swept {allowed : Op → RunDir → Prop} (h : History host bp allowed w) : Swept bp w.dir := by
  refine h.inv (P := fun w => Swept bp w.dir) ?_ ?_ ?_
  · exact fun w fuel runId trigger hemp => wp_startWithId_swept hemp
  · intro w w₁ hswp hbtw
    rcases hswp with ⟨hevs, hcp⟩ | ⟨hblue, hnorm⟩
    · exact .inl ⟨hbtw.events.trans hevs, hbtw.checkpoint.trans hcp⟩
    · exact .inr ⟨hbtw.blueprint.trans hblue, hbtw.checkpoint ▸ hnorm⟩
  · exact fun w op hswp _ => wp_perform_swept hswp op

/-! ### The sweep -/

variable {hash : Blueprint → String} {library : Library}

/-- With the snapshot, the sweep takes the state that the log replays to. -/
theorem recoverInterruptedState_snapshot (c : RunState) (h : dir.blueprint = some bp) :
    recoverInterruptedState hash library c dir = (replayedState hash bp dir).toOption := by
  unfold recoverInterruptedState replayedState
  rw [h]
  dsimp only
  cases foldEventLog bp (RunState.new "replay" bp.id) dir.events with
  | error e => rfl
  | ok s =>
    change ((ensureBlueprintMatches hash bp s >>= fun _ => pure s :
      Except EngineError RunState)).toOption = _
    cases hmat : ensureBlueprintMatches hash bp s <;> simp only [Except.bind, hmat] <;> rfl

/-- What the sweep does to a directory with its snapshot: nothing, or it writes the state of an ended
run, or it records the failure of any other run. -/
theorem wp_failInterruptedRun {P : World ω → Prop} (hsnap : Snapshot bp w.dir) (hw : P w)
    (hends : ∀ c s, w.dir.checkpoint = some c → c.status = .running →
      replayedState host.blueprintHash bp w.dir = .ok s → s.status.isTerminal = true →
      Wp (writeCheckpoint host s) (fun _ => P) (fun _ => P) w)
    (hfails : ∀ c s n, w.dir.checkpoint = some c → c.status = .running →
      replayedState host.blueprintHash bp w.dir = .ok s → s.status.isTerminal = false →
      Wp (recordFailure host s w.dir.events n interruptedMessage) (fun _ => P) (fun _ => P) w) :
    Wp (failInterruptedRun host library) (fun _ => P) (fun _ => P) w := by
  unfold failInterruptedRun
  simp only [readCheckpoint, wp_bind, wp_get, wp_pure]
  cases hc : w.dir.checkpoint with
  | none => exact hw
  | some c =>
    rw [map_some, RunState.normalizeLegacy_of_normal (hsnap.2 c hc)]
    refine wp_ite (fun _ => hw) fun hrunn => ?_
    have hrunn := Decidable.not_not.1 hrunn
    simp only [wp_bind, wp_get, recoverInterruptedState_snapshot c hsnap.1]
    cases hrpl : replayedState host.blueprintHash bp w.dir with
    | error e => exact hw
    | ok s =>
      simp only [Except.toOption]
      refine wp_ite (fun hend => ?_) fun hopen => ?_
      · have hterm : s.status.isTerminal = true := by
          rcases hend with h | h <;> rw [h] <;> rfl
        simp only [wp_bind, wp_pure]
        exact hends c s hc hrunn hrpl hterm
      · have hterm : s.status.isTerminal = false := by
          cases hstat : s.status with
          | completed => exact absurd (.inl hstat) hopen
          | failed => exact absurd (.inr hstat) hopen
          | running => rfl
          | awaitingApproval => rfl
        rw [wp_bind]
        refine wp_ofExcept_of (fun n _ => ?_) fun _ _ => hw
        simp only [wp_bind, wp_pure]
        exact hfails c s n hc hrunn hrpl hterm

/-- The checkpoint says that the run is running while its log has parked at a gate. -/
def StaleAtGate (hash : Blueprint → String) (bp : Blueprint) (dir : RunDir) : Prop :=
  ∃ c s, dir.checkpoint = some c ∧ c.status = .running ∧
    replayedState hash bp dir = .ok s ∧ s.status = .awaitingApproval

/-- Unless the checkpoint is stale at a gate, the sweep keeps the decisions of the log. -/
theorem keepsDecision_of_fresh (hswp : Swept bp w.dir) (hfrs : ¬StaleAtGate host.blueprintHash bp w.dir) :
    KeepsDecision host library bp w (failInterruptedRun host library w).2 := by
  have hsame : ∀ w' : World ω, w'.dir.events = w.dir.events →
      (∀ s, replayedState host.blueprintHash bp w.dir = .ok s → s.status ≠ .running →
        ∀ c, w'.dir.checkpoint = some c → w.dir.checkpoint = some c ∨ c.status = s.status) →
      KeepsDecision host library bp w w' := by
    intro w' hevs hcp
    refine ⟨fun hne => absurd hevs hne, fun s hs hstat => ?_⟩
    rw [replay_eq] at hs
    refine ⟨?_, hcp s hs hstat⟩
    rw [replay_eq]
    unfold replayedState at hs ⊢
    rw [hevs]
    exact hs
  have hkeep : ∀ host', KeepsDecision host library bp w { w with host := host' } :=
    fun _ => hsame _ rfl fun _ _ _ _ hc => .inl hc
  rcases hswp with ⟨-, hcp⟩ | hsnap
  · have hwp : Wp (failInterruptedRun host library) (fun _ => KeepsDecision host library bp w)
        (fun _ => KeepsDecision host library bp w) w := by
      unfold failInterruptedRun
      simp only [readCheckpoint, wp_bind, wp_get, wp_pure, hcp,
        map_none]
      exact hkeep w.host
    exact hwp.final
  · refine Wp.final (wp_failInterruptedRun (P := KeepsDecision host library bp w) hsnap
      (hkeep w.host) ?_ ?_)
    · -- an ended run: its state becomes the checkpoint
      intro c s _ _ hrpl _
      refine wp_persist (fun host' => hkeep host') fun host' => hsame _ rfl ?_
      intro s' hs' _ c' hc'
      obtain rfl : s = s' := Except.ok.inj (hrpl.symm.trans hs')
      exact .inr (Option.some.inj hc' ▸ rfl)
    · -- any other run is running, and its failure is recorded
      intro c s n hc hrunn hrpl hopen
      have hstat : s.status = .running := by
        cases hs : s.status with
        | running => rfl
        | awaitingApproval => exact absurd ⟨c, s, hc, hrunn, hrpl, hs⟩ hfrs
        | completed | failed => rw [hs] at hopen; exact absurd hopen (by decide)
      have hrpl' : (replay host bp w).1 = .ok s := by
        rw [replay_eq]
        exact hrpl
      have hruns : ∀ w' : World ω, KeepsDecision host library bp w w' := by
        intro w'
        refine ⟨fun _ => ⟨s, hrpl', hstat⟩, fun s' hs' hne => ?_⟩
        obtain rfl : s = s' := Except.ok.inj (hrpl'.symm.trans hs')
        exact absurd hstat hne
      exact wp_recordFailure (fun _ => hruns _) (fun _ _ => hruns _) fun _ _ _ => ⟨hruns _, hruns _⟩

/-- A process without side effects whose writes succeed. -/
def calmHost (hash : Blueprint → String) : Host (List Bool) :=
  { quietHost with blueprintHash := hash }

/-- A checkpoint that is stale at a gate is failed by the sweep. -/
theorem not_keepsDecision_of_stale (hswp : Swept bp dir) (hstale : StaleAtGate hash bp dir) :
    ¬KeepsDecision (calmHost hash) library bp ⟨dir, [], []⟩
      (failInterruptedRun (calmHost hash) library ⟨dir, [], []⟩).2 := by
  obtain ⟨c, s, hc, hrunn, hrpl, hwait⟩ := hstale
  have hsnap : Snapshot bp dir := by
    rcases hswp with ⟨-, hnone⟩ | h
    · rw [hnone] at hc
      cases hc
    · exact h
  have hrpl' : (replay (calmHost hash) bp ⟨dir, [], []⟩).1 = .ok s := by
    rw [replay_eq]
    exact hrpl
  obtain ⟨n, hn⟩ : ∃ n, validateEventSequence dir.events = .ok n := by
    unfold replayedState foldEventLog at hrpl
    split at hrpl
    · cases hrpl
    · cases hseq : validateEventSequence dir.events with
      | ok n => exact ⟨n, rfl⟩
      | error e => rw [hseq] at hrpl; cases hrpl
  intro hkeeps
  obtain ⟨-, hcp⟩ := hkeeps.keeps s hrpl' (by rw [hwait]; decide)
  have hfin : ∃ m, (failInterruptedRun (calmHost hash) library
      ⟨dir, [], []⟩).2.dir.checkpoint =
        some ((s.failedWith m interruptedMessage).reread (calmHost hash).readFloat) := by
    have hopen : ¬(s.status = .completed ∨ s.status = .failed) := by
      rw [hwait]
      decide
    refine Wp.final (P := fun w : World (List Bool) => ∃ m, w.dir.checkpoint =
      some ((s.failedWith m interruptedMessage).reread (calmHost hash).readFloat)) ?_
    unfold failInterruptedRun
    simp only [readCheckpoint, wp_bind, wp_get, wp_pure, hc, map_some,
      RunState.normalizeLegacy_of_normal (hsnap.2 c hc)]
    rw [if_neg (by rw [hrunn]; decide)]
    have hreco : recoverInterruptedState (calmHost hash).blueprintHash library c dir = some s := by
      rw [recoverInterruptedState_snapshot c hsnap.1]
      change (replayedState hash bp dir).toOption = some s
      rw [hrpl]
      rfl
    simp only [wp_bind, wp_get, hreco]
    rw [if_neg hopen]
    simp only [wp_bind, hn, wp_ofExcept_ok, wp_pure]
    unfold recordFailure
    cases dir.events.any (isRunFailure interruptedMessage) with
    | true => exact ⟨n, rfl⟩
    | false => exact ⟨n + 1, rfl⟩
  obtain ⟨m, hm⟩ := hfin
  rcases hcp _ hm with hsame | hstat
  · rw [hc] at hsame
    rw [Option.some.inj hsame] at hrunn
    cases hrunn
  · rw [hwait] at hstat
    cases hstat

/-- A reachable directory is recovered as its log asks for exactly when its checkpoint is not running
while its log has parked at a gate. -/
theorem History.recovers_iff {allowed : Op → RunDir → Prop} (library : Library)
    (h : History host bp allowed w) :
    Recovers host.blueprintHash library bp w.dir ↔
      ¬StaleAtGate host.blueprintHash bp w.dir := by
  constructor
  · intro hrcvs hstale
    exact not_keepsDecision_of_stale h.swept hstale (hrcvs _ (calmHost host.blueprintHash)
      ⟨w.dir, [], []⟩ rfl rfl)
  · intro hfrs ω' host' w' hhash hdir
    refine keepsDecision_of_fresh (hdir ▸ h.swept) ?_
    rw [hhash, hdir]
    exact hfrs

/-! ### Histories of a gate -/

/-- Driving has crashed between the event that parks the run and its checkpoint. -/
@[irreducible] def crashedPark : World (List Bool) :=
  (startWithId quietHost gateAfterTrigger 9 "run" .null
    ⟨{}, [false, false, false, false, false, false, false, false, true], []⟩).2

theorem history_crashedPark (allowed : Op → RunDir → Prop) :
    History quietHost gateAfterTrigger allowed crashedPark := by
  unfold crashedPark
  exact .start 9 "run" .null ⟨rfl, rfl, rfl⟩

/-- A run that has parked with its checkpoint is recovered. -/
theorem recovers_parkedWorld :
    Recovers quietHost.blueprintHash (fun _ => none) gateAfterTrigger parkedWorld.dir := by
  have hstat : parkedWorld.dir.checkpoint.map RunState.status = some .awaitingApproval := by
    decide +kernel
  refine (History.recovers_iff (fun _ => none) (history_parkedWorld fun _ _ => True)).2 ?_
  rintro ⟨c, s, hc, hrunn, -⟩
  rw [hc] at hstat
  exact absurd (hrunn.symm.trans (Option.some.inj hstat)) (by decide)

/-- A crash between the event that parks a run and its checkpoint makes the sweep fail the run. -/
theorem not_recovers_crashedPark : (validate gateAfterTrigger).isValid = true ∧
    History quietHost gateAfterTrigger (fun op _ => op.isEngine = true) crashedPark ∧
    ¬Recovers quietHost.blueprintHash (fun _ => none) gateAfterTrigger crashedPark.dir := by
  refine ⟨by decide, history_crashedPark _, fun hrcvs => ?_⟩
  have hevs : (failInterruptedRun quietHost (fun _ => none)
      (crashedPark.restarted [])).2.dir.events ≠ crashedPark.dir.events := by decide +kernel
  obtain ⟨s, hrpl, hrunn⟩ :=
    (hrcvs _ quietHost (crashedPark.restarted []) rfl rfl).appends hevs
  have hstat : (replay quietHost gateAfterTrigger
      (crashedPark.restarted [])).1.toOption.map RunState.status = some .awaitingApproval := by
    decide +kernel
  rw [hrpl] at hstat
  exact absurd (hrunn.symm.trans (Option.some.inj hstat)) (by decide)

end Wardian.Engine
