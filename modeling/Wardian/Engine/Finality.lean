/-
Terminal runs are final.

Once the log of a run replays to a run that has completed or failed, no operation appends an event
or changes the status of a node, when each operation on the ended run is one that its entry point
makes harmless: a drive or a resume finds the cancellation marker, or a failed run with no loop to be
advanced and, for a resume, nothing in flight; a cancellation from the checkpoint finds the
cancellation in the log and a tail that changes no status.

Main results:

* `Engine.History.remains_ended` — an ended run stays as it is.
-/

import Wardian.Engine.Agreement

set_option autoImplicit false

namespace Wardian.Engine

open Automation (Blueprint validate)
open Prog (Wp wp_bind wp_ite wp_modify wp_mono wp_pure)

variable {ω : Type} {host : Host ω} {bp : Blueprint} {hash : String} {dir : RunDir}
  {c s t : RunState} {w w' : World ω}

/-! ### Operations on ended runs -/

/-- The driver has nothing to do on an ended run: no loop is to be advanced, and it has failed. -/
def Idles (bp : Blueprint) (t : RunState) : Prop :=
  t.status = .failed ∧ advanceLoops bp t = .ok []

/-- The operations of the engine that are harmless when the run has ended. -/
def Finishing (bp : Blueprint) : Op → RunDir → Prop
  | .drive _, dir => ∀ t, loadedState bp dir = .ok t → t.status.isTerminal = true →
      dir.cancelMarker = true ∨ Idles bp t
  | .resume _, dir => ∀ t, loadedState bp dir = .ok t → t.status.isTerminal = true →
      dir.cancelMarker = true ∨ (Idles bp t ∧ interruptedNodes bp t = [])
  | .cancelAwaiting, dir => ∀ t, loadedState bp dir = .ok t → t.status.isTerminal = true →
      ∀ c, dir.checkpoint = some c → c.status = .awaitingApproval →
        dir.events.any (isRunFailure cancelledMessage) = true ∧
          ∀ n, c.statusOrPending n = t.statusOrPending n
  | .markRunFailed _, _ => False
  | _, _ => True

/-- The operations of the engine; the host's own failures are none. -/
def Op.isEngine : Op → Bool
  | .markRunFailed _ => false
  | _ => true

/-- The log replays to a run that has completed or failed. -/
def Ended (host : Host ω) (bp : Blueprint) (w : World ω) : Prop :=
  ∃ s, (replay host bp w).1 = .ok s ∧ s.status.isTerminal = true

/-- No event was appended, and no node of the run has another status. -/
def Untouched (bp : Blueprint) (w w' : World ω) : Prop :=
  w'.dir.events = w.dir.events ∧ ∃ t t', (loadState bp w).1 = .ok t ∧
    (loadState bp w').1 = .ok t' ∧ ∀ n, t'.statusOrPending n = t.statusOrPending n

/-! ### Directories of ended runs -/

/-- The directory of an ended run: `s` is the state of the log, and `t` the state that loads. -/
structure Over (hash : String) (bp : Blueprint) (dir : RunDir) (s t : RunState) : Prop where
  journal : Journal bp dir.events s
  hash : s.blueprintHash = some hash
  terminal : s.status.isTerminal = true
  loaded : loadedState bp dir = .ok t
  ended : t.status.isTerminal = true
  normal : t.Normal
  nextSeq : t.nextSeq = dir.events.length
  same : SameRun t s
  checkpoint : ∀ c, dir.checkpoint = some c → c.Normal ∧ c.nextSeq ≤ dir.events.length ∧
    SameRun c s

theorem over_of_checkpoint (hjrn : Journal bp dir.events s) (hhash : s.blueprintHash = some hash)
    (hterm : s.status.isTerminal = true) (hcp : dir.checkpoint = some c)
    (hend : c.status.isTerminal = true) (hnorm : c.Normal)
    (hnext : c.nextSeq = dir.events.length) (hsame : SameRun c s) : Over hash bp dir s c where
  journal := hjrn
  hash := hhash
  terminal := hterm
  loaded := hjrn.loadedState_end hcp hnorm hnext hsame
  ended := hend
  normal := hnorm
  nextSeq := hnext
  same := hsame
  checkpoint c' hc' := by
    obtain rfl : c = c' := Option.some.inj (hcp.symm.trans hc')
    exact ⟨hnorm, hnext.le, hsame⟩

theorem Recorded.over (h : Recorded hash bp Agree dir s) (hterm : s.status.isTerminal = true) :
    ∃ t, Over hash bp dir s t := by
  obtain ⟨t, hload, hagr⟩ := h.loadedState (faithful_agree bp)
  refine ⟨t, h.journal, h.hash, hterm, hload, hagr.status ▸ hterm,
    hagr.normal h.journal.normal, hagr.nextSeq.trans h.journal.nextSeq, hagr.symm.sameRun,
    fun c hc => ?_⟩
  obtain ⟨hnorm, hle, hsame, -⟩ := h.foldEvents_checkpoint (faithful_agree bp) hc
  exact ⟨hnorm, hle, hsame⟩

theorem Over.marker (h : Over hash bp dir s t) (marker : Bool) :
    Over hash bp { dir with cancelMarker := marker } s t :=
  ⟨h.journal, h.hash, h.terminal, h.loaded, h.ended, h.normal, h.nextSeq, h.same, h.checkpoint⟩

theorem Over.save {dir' : RunDir} (h : Over hash bp dir s t) (hevs : dir'.events = dir.events)
    {read : ReadFloat} (hcp : dir'.checkpoint = some (t.reread read)) :
    Over hash bp dir' s (t.reread read) := by
  obtain ⟨hrun, hbp, hhash⟩ := h.same
  exact over_of_checkpoint (hevs ▸ h.journal) h.hash h.terminal hcp h.ended
    (RunState.normal_reread.2 h.normal) (h.nextSeq.trans (congrArg List.length hevs.symm))
    ⟨hrun, hbp, hhash⟩

theorem Over.status_ne (h : Over hash bp dir s t) : t.status ≠ .running ∧ t.status ≠ .awaitingApproval := by
  have hend := h.ended
  constructor <;> intro hstat <;> rw [hstat] at hend <;> exact absurd hend (by decide)

/-! ### Steps -/

/-- The run is over, with the log and the statuses of `dir`. -/
def StaysOver (hash : String) (bp : Blueprint) (dir : RunDir) (t : RunState) (w : World ω) : Prop :=
  w.dir.events = dir.events ∧ ∃ s t', Over hash bp w.dir s t' ∧
    ∀ n, t'.statusOrPending n = t.statusOrPending n

theorem Over.staysOver (h : Over hash bp w.dir s t) : StaysOver hash bp w.dir t w :=
  ⟨rfl, s, t, h, fun _ => rfl⟩

variable {u : RunState}

/-- Driving an ended run clears the marker or writes a checkpoint. -/
theorem wp_drive_over {P : RunDir → Prop} (fuel : Nat) (hnorm : u.normalizeLegacy = u)
    (hend : u.status.isTerminal = true) (hidle : w.dir.cancelMarker = true ∨ Idles bp u)
    (hmarker : ∀ dir marker, P dir → P { dir with cancelMarker := marker })
    (hsave : w.dir.cancelMarker = false → ∀ dir, P dir →
      P { dir with checkpoint := some (u.reread host.readFloat) }) (hw : P w.dir) :
    Wp (drive host bp fuel u) (fun _ w' => P w'.dir) (fun _ w' => P w'.dir) w := by
  have hrunn : u.status ≠ .running := by
    intro h
    rw [h] at hend
    exact absurd hend (by decide)
  unfold drive
  dsimp only
  rw [hnorm, if_neg hrunn]
  cases fuel with
  | zero => exact hw
  | succ fuel =>
    rw [drivePasses, wp_bind]
    refine wp_cancellationRequested fun host₁ marker hmark => ?_
    have hw₁ := hmarker w.dir marker hw
    refine wp_ite (fun _ => ?_) fun hnot => ?_
    · -- the marker is consumed: an ended run keeps its outcome
      have hclear : Wp (do clearCancellationRequest host; return u) (fun _ w' => P w'.dir)
          (fun _ w' => P w'.dir)
          { w with host := host₁, dir := { w.dir with cancelMarker := marker } } := by
        rw [wp_bind]
        exact wp_persist (fun _ => hw₁) fun _ => hmarker _ false hw₁
      unfold consumeCancellation
      split
      · exact absurd ‹u.status = .running› hrunn
      · exact hclear
      · exact hclear
      · exact hw₁
    · have hunmk : w.dir.cancelMarker = false := by
        cases hm : w.dir.cancelMarker with
        | false => rfl
        | true => exact absurd (hmark hm) hnot
      obtain ⟨hfld, hadv⟩ := hidle.resolve_left (by rw [hunmk]; decide)
      rw [hadv]
      have hfin : finalizeIfDone bp u = u := finalizeIfDone_of_ne hrunn
      simp only [emitAll, finalizePass, hfin, newlySkipped_self, List.map_nil, wp_bind,
        wp_pure, observe, wp_modify]
      refine wp_persist (fun _ => hw₁) fun _ => ?_
      have hw₂ := hsave hunmk _ hw₁
      rw [if_pos hrunn, if_neg (by rw [hfld]; decide)]
      exact hw₂

theorem lax_staysOver : Lax (ω := ω) (StaysOver hash bp dir t) := by
  rintro w host' marker ⟨hevs, s', t', hover, hstat⟩
  exact ⟨hevs, s', t', hover.marker marker, hstat⟩

/-- Driving an ended run, with the state that loads unless the marker is there, leaves it over. -/
theorem Over.wp_drive (h : Over hash bp w.dir s t) (fuel : Nat) (hnorm : u.normalizeLegacy = u)
    (hend : u.status.isTerminal = true) (hidle : w.dir.cancelMarker = true ∨ (Idles bp u ∧ u = t)) :
    Wp (drive host bp fuel u) (fun _ => StaysOver hash bp w.dir t)
      (fun _ => StaysOver hash bp w.dir t) w := by
  refine wp_drive_over (P := fun dir => dir.events = w.dir.events ∧ ∃ s t', Over hash bp dir s t' ∧
      ∀ n, t'.statusOrPending n = t.statusOrPending n)
    fuel hnorm hend (hidle.imp_right And.left) (fun dir marker hP => ?_) (fun hunmk dir hP => ?_)
    ⟨rfl, s, t, h, fun _ => rfl⟩
  · obtain ⟨hevs, s', t', hover, hstat⟩ := hP
    exact ⟨hevs, s', t', hover.marker marker, hstat⟩
  · obtain ⟨-, rfl⟩ := hidle.resolve_left (by rw [hunmk]; decide)
    exact ⟨hP.1, s, _, h.save (by exact hP.1) rfl, fun _ => rfl⟩

/-- Cancelling from the checkpoint writes the failure that the log has. -/
theorem Over.wp_recordFailure (h : Over hash bp w.dir s t) {n : Nat}
    (hc : w.dir.checkpoint = some c) (hn : checkedNextSeq c.normalizeLegacy w.dir.events = .ok n)
    (hrecd : w.dir.events.any (isRunFailure cancelledMessage) = true)
    (hstat : ∀ n, c.statusOrPending n = t.statusOrPending n) (host' : ω) :
    Wp (recordFailure host c.normalizeLegacy w.dir.events n cancelledMessage)
      (fun _ => StaysOver hash bp w.dir t) (fun _ => StaysOver hash bp w.dir t)
      { w with host := host' } := by
  obtain ⟨hnorm, -, hsame⟩ := h.checkpoint c hc
  rw [RunState.normalizeLegacy_of_normal hnorm] at hn ⊢
  obtain rfl := checkedNextSeq_ok h.journal.seqs hn
  refine Engine.wp_recordFailure (fun _ => h.staysOver)
    (fun _ _ => ⟨rfl, s, (c.failedWith w.dir.events.length cancelledMessage).reread host.readFloat,
      ?_, hstat⟩)
    fun hnot => absurd (hnot.symm.trans hrecd) (by decide)
  exact over_of_checkpoint h.journal h.hash h.terminal rfl rfl
    (RunState.normal_reread.2 (hnorm.congr rfl rfl)) rfl
    ⟨hsame.runId, hsame.blueprintId, hsame.blueprintHash⟩

/-- A harmless operation leaves an ended run over, with its log and its statuses. -/
theorem wp_perform_over (h : Over hash bp w.dir s t) {op : Op} (hfini : Finishing bp op w.dir) :
    Wp (perform host bp op) (fun _ => StaysOver hash bp w.dir t)
      (fun _ => StaysOver hash bp w.dir t) w := by
  have hload : ∀ {u}, loadedState bp w.dir = .ok u → u = t :=
    fun hu => Except.ok.inj (hu.symm.trans h.loaded)
  have hdec : ∀ node kind, Wp (recordDecision host bp node kind)
      (fun _ => StaysOver hash bp w.dir t) (fun _ => StaysOver hash bp w.dir t) w := by
    intro node kind
    refine wp_recordDecision (fun _ host' => lax_staysOver.ofHost h.staysOver host') ?_
    intro u host' hu hwait _ _
    exact absurd (hload hu ▸ hwait) h.status_ne.2
  cases op with
  | drive fuel =>
    refine wp_performDrive h.staysOver fun u _ hu => ?_
    obtain rfl := hload hu
    exact h.wp_drive fuel (RunState.normalizeLegacy_of_normal h.normal) h.ended
      ((hfini u h.loaded h.ended).imp_right fun hidle => ⟨hidle, rfl⟩)
  | resume fuel =>
    refine wp_performResume h.staysOver fun u _ hu _ => ?_
    obtain rfl := hload hu
    have hagr := agree_remarkInterrupted bp u
    refine h.wp_drive fuel (RunState.normalizeLegacy_of_normal (hagr.normal h.normal))
      (hagr.status ▸ h.ended) ?_
    rcases hfini u h.loaded h.ended with hmarker | ⟨hidle, hnoth⟩
    · exact .inl hmarker
    · rw [remarkInterrupted_eq hnoth]
      exact .inr ⟨hidle, rfl⟩
  | grant node actor note | reject node actor note => exact hdec node _
  | cancel =>
    refine wp_performCancel lax_staysOver h.staysOver fun u _ hu hwait => ?_
    exact absurd (hload hu ▸ hwait) h.status_ne.2
  | cancelAwaiting =>
    refine wp_performCancelAwaiting lax_staysOver h.staysOver fun c n host' hc hwait hn => ?_
    rw [RunState.normalizeLegacy_of_normal (h.checkpoint c hc).1] at hwait
    obtain ⟨hrecd, hstat⟩ := hfini t h.loaded h.ended c hc hwait
    exact h.wp_recordFailure hc hn hrecd hstat host'
  | markRunFailed message => exact absurd hfini id

/-! ### Runs -/

/-- The directory has no run, records a run, or is the directory of an ended run. -/
def Lives (hash : String) (bp : Blueprint) (w : World ω) : Prop :=
  Kept hash bp Agree w.dir ∨ ∃ s t, Over hash bp w.dir s t

theorem lax_lives : Lax (ω := ω) (Lives hash bp) := by
  rintro w host' marker (h | ⟨s, t, h⟩)
  · exact .inl (lax_kept w host' marker h)
  · exact .inr ⟨s, t, h.marker marker⟩

/-- Cancelling from the checkpoint ends a run that had not ended. -/
theorem wp_cancelAwaiting_lives (h : Recorded hash bp Agree w.dir s) (hopen : s.status.isTerminal = false) :
    Wp (perform host bp .cancelAwaiting) (fun _ => Lives hash bp) (fun _ => Lives hash bp) w := by
  have C := faithful_agree bp
  refine wp_performCancelAwaiting lax_lives (.inl (.inr ⟨s, h⟩)) fun c n host' hc _ hn => ?_
  obtain ⟨hnrmz, rfl⟩ := h.checkedNextSeq C hc hn
  obtain ⟨hnorm, -, hsame, -⟩ := h.foldEvents_checkpoint C hc
  rw [hnrmz]
  refine wp_recordFailure (fun _ => .inl (.inr ⟨s, h⟩)) (fun hany => ?_) fun _ ts _ => ?_
  · -- the log of a run that has not ended holds no failure
    obtain ⟨ev, hev, hkind⟩ := List.any_eq_true.1 hany
    have hends := h.failures ev hev cancelledMessage (by simpa [isRunFailure] using hkind)
    exact absurd (hopen.symm.trans hends) (by decide)
  · have happ := h.appendFailure ts cancelledMessage
    refine ⟨.inl (.inr ⟨_, happ⟩), .inr
      ⟨s.failedWith (w.dir.events.length + 1) cancelledMessage,
        (c.failedWith (w.dir.events.length + 1) cancelledMessage).reread host.readFloat, ?_⟩⟩
    refine over_of_checkpoint happ.journal happ.hash rfl rfl rfl
      (RunState.normal_reread.2 (hnorm.congr rfl rfl)) ?_
      ⟨hsame.runId, hsame.blueprintId, hsame.blueprintHash⟩
    simp [RunState.failedWith, RunState.reread]

/-- A harmless operation keeps a directory one of a run that lives or is over. -/
theorem wp_perform_lives {op : Op} (h : Lives (host.blueprintHash bp) bp w)
    (hfini : Finishing bp op w.dir) :
    Wp (perform host bp op) (fun _ => Lives (host.blueprintHash bp) bp)
      (fun _ => Lives (host.blueprintHash bp) bp) w := by
  have C := faithful_agree bp
  have hover : ∀ s t, Over (host.blueprintHash bp) bp w.dir s t →
      Wp (perform host bp op) (fun _ => Lives (host.blueprintHash bp) bp)
        (fun _ => Lives (host.blueprintHash bp) bp) w := by
    intro s t hover
    have hlives : ∀ w' : World ω, StaysOver (host.blueprintHash bp) bp w.dir t w' →
        Lives (host.blueprintHash bp) bp w' := by
      rintro w' ⟨-, s', t', hover', -⟩
      exact .inr ⟨s', t', hover'⟩
    exact wp_mono (wp_perform_over hover hfini) (fun _ => hlives) fun _ => hlives
  rcases h with (⟨hevs, hcp⟩ | ⟨s, h⟩) | ⟨s, t, h⟩
  · exact wp_perform_empty hevs hcp lax_lives (.inl (.inl ⟨hevs, hcp⟩)) op
  · cases hopen : s.status.isTerminal with
    | true =>
      obtain ⟨t, ht⟩ := h.over hopen
      exact hover s t ht
    | false =>
      have hrecs : ∀ w', Records (host.blueprintHash bp) bp Agree w' →
          Lives (ω := ω) (host.blueprintHash bp) bp w' := fun _ h => .inl (.inr h)
      have hread : ∀ t, loadedState bp w.dir = .ok t → Agree s (t.reread host.readFloat) :=
        fun t hload => agree_reread.2 (h.of_loadedState C hload)
      cases op with
      | drive fuel =>
        exact wp_mono (wp_drive_op C h fuel hread) (fun _ => hrecs) fun _ => hrecs
      | resume fuel =>
        refine wp_mono (wp_resume_op C h fuel fun t hload _ => ?_) (fun _ => hrecs)
          fun _ => hrecs
        exact agree_reread.2 ((h.of_loadedState C hload).trans (agree_remarkInterrupted bp t))
      | grant node actor note | reject node actor note =>
        exact wp_mono (wp_decision_op C h rfl fun t hload _ => hread t hload)
          (fun _ => hrecs) fun _ => hrecs
      | cancel =>
        exact wp_mono (wp_cancel_op C h fun t hload _ => hread t hload) (fun _ => hrecs)
          fun _ => hrecs
      | cancelAwaiting => exact wp_cancelAwaiting_lives h hopen
      | markRunFailed message => exact absurd hfini id
  · exact hover s t h

theorem Lives.between {w₁ : World ω} (h : Lives hash bp w) (hbtw : Between w w₁) : Lives hash bp w₁ := by
  rcases h with h | ⟨s, t, h⟩
  · exact .inl (h.between hbtw)
  · refine .inr ⟨s, t, ⟨hbtw.events ▸ h.journal, h.hash, h.terminal, ?_, h.ended, h.normal,
      hbtw.events ▸ h.nextSeq, h.same, ?_⟩⟩
    · unfold loadedState
      rw [hbtw.events, hbtw.checkpoint]
      exact h.loaded
    · rw [hbtw.events, hbtw.checkpoint]
      exact h.checkpoint

theorem History.lives (h : History host bp (Finishing bp) w) : Lives (host.blueprintHash bp) bp w := by
  refine h.inv ?_ (fun w w₁ hlives hbtw => hlives.between hbtw)
    fun w op hlives hfini => wp_perform_lives hlives hfini
  intro w fuel runId trigger hemp
  exact wp_mono (wp_startWithId_recorded (faithful_agree bp) hemp) (fun _ _ h => .inl h)
    fun _ _ h => .inl h

/-- A run that is over stays as it is under harmless operations. -/
theorem Over.later {allowed : Op → RunDir → Prop} (hsub : ∀ op dir, allowed op dir → Finishing bp op dir)
    (h : Over hash bp w.dir s t) (hltr : Later host bp allowed w w') : StaysOver hash bp w.dir t w' := by
  refine hltr.inv (P := StaysOver hash bp w.dir t) ?_ ?_ h.staysOver
  · rintro w₁ w₂ ⟨hevs, s', t', hover, hstat⟩ hbtw
    refine ⟨hbtw.events.trans hevs, s', t', ?_, hstat⟩
    exact ⟨hbtw.events ▸ hover.journal, hover.hash, hover.terminal,
      by unfold loadedState; rw [hbtw.events, hbtw.checkpoint]; exact hover.loaded,
      hover.ended, hover.normal, hbtw.events ▸ hover.nextSeq, hover.same,
      by rw [hbtw.events, hbtw.checkpoint]; exact hover.checkpoint⟩
  · rintro w₁ op ⟨hevs, s', t', hover, hstat⟩ halwd
    refine wp_mono (wp_perform_over hover (hsub op _ halwd)) ?_ ?_
    all_goals
      rintro - w₂ ⟨hevs₂, s₂, t₂, hover₂, hstat₂⟩
      exact ⟨hevs₂.trans hevs, s₂, t₂, hover₂,
        fun n => (hstat₂ n).trans (hstat n)⟩

/-- Once the log of a run replays to a run that has ended, harmless operations append no event and
change no status of a node. -/
theorem History.remains_ended (h : History host bp (Finishing bp) w) (hend : Ended host bp w)
    (hltr : Later host bp (Finishing bp) w w') : Untouched bp w w' := by
  obtain ⟨s₀, hrpl, hterm⟩ := hend
  rw [replay_eq] at hrpl
  have hover : ∃ s t, Over (host.blueprintHash bp) bp w.dir s t := by
    rcases h.lives with (⟨hevs, hcp⟩ | ⟨s, hrec⟩) | hover
    · simp only [replayedState, hevs, foldEventLog] at hrpl
      cases hrpl
    · obtain rfl : s = s₀ := Except.ok.inj (hrec.replayedState.symm.trans hrpl)
      obtain ⟨t, ht⟩ := hrec.over hterm
      exact ⟨s, t, ht⟩
    · exact hover
  obtain ⟨s, t, hover⟩ := hover
  obtain ⟨hevs, s', t', hover', hstat⟩ := hover.later (fun _ _ h => h) hltr
  refine ⟨hevs, t, t', ?_, ?_, hstat⟩
  · rw [loadState_eq, hover.loaded]
  · rw [loadState_eq, hover'.loaded]

theorem ended_of_status (status : RunStatus)
    (h : (replay host bp w).1.toOption.map RunState.status = some status)
    (hterm : status.isTerminal = true) : Ended host bp w := by
  cases hrpl : (replay host bp w).1 with
  | error e =>
    rw [hrpl] at h
    cases h
  | ok s =>
    rw [hrpl] at h
    obtain rfl := Option.some.inj h
    exact ⟨s, hrpl, hterm⟩

/-! ### Histories of a gate -/

/-- The operator has rejected the approval. -/
@[irreducible] def rejectedRun : World (List Bool) :=
  afterRestart parkedWorld (.reject "gate" "operator" none)

theorem history_rejectedRun (allowed : Op → RunDir → Prop)
    (halwd : allowed (.reject "gate" "operator" none) parkedWorld.dir) :
    History quietHost gateAfterTrigger allowed rejectedRun := by
  unfold rejectedRun
  exact history_afterRestart (history_parkedWorld allowed) halwd

theorem later_afterRestart {allowed : Op → RunDir → Prop} {w : World (List Bool)} (op : Op)
    (halwd : allowed op w.dir) : Later quietHost gateAfterTrigger allowed w (afterRestart w op) := by
  unfold afterRestart
  exact (Later.refl w).step op (between_restarted _ []) halwd

/-- Resuming a rejected run leaves it as it is. -/
theorem final_rejectedRun : Untouched gateAfterTrigger rejectedRun (afterRestart rejectedRun (.resume 9)) := by
  have hload : (loadedState gateAfterTrigger rejectedRun.dir).toOption.map
      (fun t => (t.status, advanceLoops gateAfterTrigger t, interruptedNodes gateAfterTrigger t)) =
      some (.failed, .ok [], []) := by decide +kernel
  have hend : Ended quietHost gateAfterTrigger rejectedRun :=
    ended_of_status .failed (by decide +kernel) rfl
  refine History.remains_ended (history_rejectedRun (Finishing gateAfterTrigger) trivial) hend
    (later_afterRestart (.resume 9) fun t ht _ => .inr ?_)
  rw [ht] at hload
  have hprs := Option.some.inj hload
  simp only [Prod.mk.injEq] at hprs
  exact ⟨⟨hprs.1, hprs.2.1⟩, hprs.2.2⟩

/-- Resuming a run that has completed completes it once more. -/
theorem completed_twice : (validate gateAfterTrigger).isValid = true ∧
    ∃ w w', History quietHost gateAfterTrigger (fun op _ => op.isEngine = true) w ∧
      Ended quietHost gateAfterTrigger w ∧
      Later quietHost gateAfterTrigger (fun op _ => op.isEngine = true) w w' ∧
      ¬Untouched gateAfterTrigger w w' := by
  have hend : Ended quietHost gateAfterTrigger (afterRestart crashedGrant (.drive 9)) :=
    ended_of_status .completed (by decide +kernel) rfl
  have hmore : (afterRestart (afterRestart crashedGrant (.drive 9)) (.resume 9)).dir.events.length ≠
      (afterRestart crashedGrant (.drive 9)).dir.events.length := by decide +kernel
  exact ⟨by decide, afterRestart crashedGrant (.drive 9), _,
    history_afterRestart (history_crashedGrant _ rfl) rfl, hend,
    later_afterRestart (.resume 9) rfl,
    fun hunto => hmore (congrArg List.length hunto.1)⟩

end Wardian.Engine
