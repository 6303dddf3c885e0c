/-
Histories of a run directory: a start and any operations, each of which may crash.

An operation that crashes at a write leaves the directory as it was at that write, and the next
operation finds it so.  Between two operations the process may have been restarted, so the host goes
its own way.

Main results:

* `Engine.wp_performDrive`, `Engine.wp_performResume`, `Engine.wp_performCancel`,
  `Engine.wp_performCancelAwaiting`, `Engine.wp_performMarkRunFailed` — what each operation does;
* `Engine.wp_drive_op`, `Engine.wp_resume_op`, `Engine.wp_decision_op`, `Engine.wp_cancel_op` — the
  operations that keep the record of a run.
-/

import Wardian.Engine.Recorded

set_option autoImplicit false

namespace Wardian.Engine

open Automation (Blueprint validate)
open Prog (Wp wp_bind wp_get wp_ite wp_mono wp_ofExcept_of wp_pure)

variable {ω : Type} {host : Host ω} {bp : Blueprint} {E : RunState → RunState → Prop}
  {dir : RunDir} {s t : RunState} {w w₁ w' : World ω}

/-! ### Operations -/

/-- The operations on the directory of a run that has started. -/
inductive Op
  /-- Drive on from the state that the directory gives, as the host does after a start or a grant. -/
  | drive (fuel : Nat)
  | resume (fuel : Nat)
  | grant (node actor : String) (note : Option String)
  | reject (node actor : String) (note : Option String)
  | cancel
  | cancelAwaiting
  | markRunFailed (message : String)

/-- Perform an operation. -/
def perform (host : Host ω) (bp : Blueprint) : Op → EngineProg ω RunState
  | .drive fuel => do
      let s ← loadState bp
      driveFromState host bp fuel s
  | .resume fuel => resume host bp fuel
  | .grant node actor note => recordApprovalGranted host bp node actor note
  | .reject node actor note => rejectApproval host bp node actor note
  | .cancel => cancel host bp
  | .cancelAwaiting => cancelAwaiting host
  | .markRunFailed message => markRunFailed host message

/-- The directories that are reached by a start and operations, each of which is allowed in the
directory where it is called.  Any of them may have crashed. -/
inductive History (host : Host ω) (bp : Blueprint) (allowed : Op → RunDir → Prop) :
    World ω → Prop
  | starts {w w' : World ω} {r : Except EngineError RunState} (fuel : Nat) (runId : String)
      (trigger : Value) (hemp : Unstarted w)
      (hcall : startWithId host bp fuel runId trigger w = (r, w')) : History host bp allowed w'
  | steps {w w₁ w' : World ω} {r : Except EngineError RunState} (op : Op)
      (hprev : History host bp allowed w) (hbtw : Between w w₁)
      (halwd : allowed op w₁.dir) (hcall : perform host bp op w₁ = (r, w')) :
      History host bp allowed w'

variable {allowed : Op → RunDir → Prop}

theorem History.start (fuel : Nat) (runId : String) (trigger : Value) (hemp : Unstarted w) :
    History host bp allowed (startWithId host bp fuel runId trigger w).2 :=
  .starts fuel runId trigger hemp rfl

theorem History.step {allowed : Op → RunDir → Prop} (op : Op)
    (hprev : History host bp allowed w) (hbtw : Between w w₁)
    (halwd : allowed op w₁.dir) : History host bp allowed (perform host bp op w₁).2 :=
  .steps op hprev hbtw halwd rfl

variable {P : World ω → Prop}

/-- What a start establishes and every operation keeps holds throughout a history. -/
theorem History.inv
    (hstart : ∀ w fuel runId trigger, Unstarted w →
      Wp (startWithId host bp fuel runId trigger) (fun _ => P) (fun _ => P) w)
    (hbtw : ∀ w w₁, P w → Between w w₁ → P w₁)
    (hstep : ∀ w op, P w → allowed op w.dir → Wp (perform host bp op) (fun _ => P) (fun _ => P) w)
    (h : History host bp allowed w) : P w := by
  induction h with
  | starts fuel runId trigger hemp hcall =>
    have hfin := (hstart _ fuel runId trigger hemp).final
    rw [hcall] at hfin
    exact hfin
  | steps op _ hbetw halwd hcall ih =>
    have hfin := (hstep _ op (hbtw _ _ ih hbetw) halwd).final
    rw [hcall] at hfin
    exact hfin

/-- What operations make of a directory: none, or some, each allowed where it is called. -/
inductive Later (host : Host ω) (bp : Blueprint) (allowed : Op → RunDir → Prop) :
    World ω → World ω → Prop
  | refl (w : World ω) : Later host bp allowed w w
  | steps {w w₁ w₂ w' : World ω} {r : Except EngineError RunState} (op : Op)
      (hprev : Later host bp allowed w w₁) (hbtw : Between w₁ w₂)
      (halwd : allowed op w₂.dir) (hcall : perform host bp op w₂ = (r, w')) :
      Later host bp allowed w w'

theorem Later.step {allowed : Op → RunDir → Prop} {w₀ : World ω} (op : Op)
    (hprev : Later host bp allowed w₀ w) (hbtw : Between w w₁)
    (halwd : allowed op w₁.dir) : Later host bp allowed w₀ (perform host bp op w₁).2 :=
  .steps op hprev hbtw halwd rfl

theorem Later.inv (hbtw : ∀ w w₁, P w → Between w w₁ → P w₁)
    (hstep : ∀ w op, P w → allowed op w.dir → Wp (perform host bp op) (fun _ => P) (fun _ => P) w)
    (h : Later host bp allowed w w') (hw : P w) : P w' := by
  induction h with
  | refl => exact hw
  | steps op _ hbetw halwd hcall ih =>
    have hfin := (hstep _ op (hbtw _ _ ih hbetw) halwd).final
    rw [hcall] at hfin
    exact hfin

/-! ### Starting -/

/-- The host and the marker are no part of an assertion about a directory. -/
def Lax (P : World ω → Prop) : Prop :=
  ∀ w host' marker, P w → P { w with host := host', dir := { w.dir with cancelMarker := marker } }

/-- The directory has no run yet, or records one. -/
def Kept (hash : String) (bp : Blueprint) (E : RunState → RunState → Prop) (dir : RunDir) : Prop :=
  (dir.events = [] ∧ dir.checkpoint = none) ∨ ∃ s, Recorded hash bp E dir s

theorem lax_kept {hash : String} : Lax (ω := ω) fun w => Kept hash bp E w.dir :=
  fun _ _ _ h => h.imp id fun hr => hr.imp fun _ hr => hr.congr rfl rfl rfl

theorem Kept.between {hash : String} (h : Kept hash bp E w.dir) (hbtw : Between w w₁) :
    Kept hash bp E w₁.dir := by
  rcases h with ⟨hevs, hcp⟩ | ⟨s, hrec⟩
  · exact .inl ⟨hbtw.events.trans hevs, hbtw.checkpoint.trans hcp⟩
  · exact .inr ⟨s, hrec.congr hbtw.events hbtw.checkpoint hbtw.blueprint⟩

theorem Began.recorded {runId : String} {trigger : Value} (h : Began host bp runId trigger s w)
    (C : Faithful bp E) (hcp : ∀ c, w.dir.checkpoint = some c → c = s.reread host.readFloat) :
    Recorded (host.blueprintHash bp) bp E w.dir (s.reread host.readFloat) := by
  have hjrn := h.journal
  refine ⟨hjrn, ?_, h.snapshot, fun ev hev message hkind => ?_, fun c hc => ?_⟩
  · obtain ⟨ts, happ, -⟩ := h.first
    have hstart : apply bp (RunState.new runId bp.id) ⟨0, ts, startKind host bp runId trigger⟩ =
        .ok _ := Journal.apply_start (.inr (.inr rfl))
    change s.blueprintHash = _
    rw [Except.ok.inj (happ.symm.trans hstart)]
    rfl
  · obtain ⟨ts, -, hevs⟩ := h.first
    rw [hevs] at hev
    obtain rfl := List.mem_singleton.1 hev
    cases hkind
  · refine ⟨w.dir.events.length, s.reread host.readFloat, List.length_pos_of_ne_nil hjrn.ne_nil, le_rfl, ?_, ?_⟩
    · rw [List.take_length]
      exact hjrn
    · rw [hcp c hc]
      exact C.refl _

theorem wp_startWithId_recorded (C : Faithful bp E) {fuel : Nat} {runId : String}
    {trigger : Value} (h : Unstarted w) :
    Wp (startWithId host bp fuel runId trigger)
      (fun _ w' => Kept (host.blueprintHash bp) bp E w'.dir)
      (fun _ w' => Kept (host.blueprintHash bp) bp E w'.dir) w := by
  unfold startWithId
  rw [wp_bind]
  refine wp_initializeWithId h (fun e w' h => .inl ⟨h.events, h.checkpoint⟩) ?_ ?_
  · intro s' w' hbegan hcp
    exact .inr ⟨_, hbegan.recorded C fun c hc => by rw [hcp] at hc; cases hc⟩
  · intro s' w' hbegan hcp
    have hrec : Recorded (host.blueprintHash bp) bp E w'.dir (s'.reread host.readFloat) :=
      hbegan.recorded C fun c hc => Option.some.inj (hc.symm.trans hcp)
    unfold driveFromState
    rw [wp_bind]
    refine wp_ofExcept_of (fun _ _ => ?_) fun _ _ => .inr ⟨_, hrec⟩
    rw [wp_bind]
    refine wp_ofExcept_of (fun _ _ => ?_) fun _ _ => .inr ⟨_, hrec⟩
    exact wp_mono (wp_drive_recorded hbegan.valid C fuel hrec (C.refl _))
      (fun _ _ h => .inr h) fun _ _ h => .inr h

theorem loadedState_nil (hevs : dir.events = []) (hcp : dir.checkpoint = none) :
    loadedState bp dir = .error (.invalidState "automation event log is empty") := by
  simp only [loadedState, hevs, hcp, foldEventLog]
  rfl

/-! ### What an operation does -/

section Rules

variable {P : World ω → Prop}

theorem Lax.ofHost (hlax : Lax P) (hw : P w) (host' : ω) : P { w with host := host' } :=
  hlax w host' w.dir.cancelMarker hw

theorem Lax.wp_clear (hlax : Lax P) (hw : P w) :
    Wp (clearCancellationRequest host) (fun _ => P) (fun _ => P) w :=
  wp_persist (fun host' => hlax.ofHost hw host') fun host' => hlax w host' false hw

theorem wp_performDrive {fuel : Nat} (hw : P w)
    (hdrive : ∀ t, (validate bp).isValid = true → loadedState bp w.dir = .ok t →
      Wp (drive host bp fuel t) (fun _ => P) (fun _ => P) w) :
    Wp (perform host bp (.drive fuel)) (fun _ => P) (fun _ => P) w := by
  change Wp (loadState bp >>= fun s => driveFromState host bp fuel s) _ _ w
  rw [wp_bind]
  refine wp_loadState (fun t hload => ?_) fun _ _ => hw
  unfold driveFromState
  rw [wp_bind]
  refine wp_ofExcept_of (fun _ hval => ?_) fun _ _ => hw
  rw [wp_bind]
  refine wp_ofExcept_of (fun _ _ => ?_) fun _ _ => hw
  exact hdrive t (ensureValidBlueprint_ok hval) hload

/-- Resuming drives from what loads, with what was in flight pending again. -/
theorem wp_performResume {fuel : Nat} (hw : P w)
    (hdrive : ∀ t, (validate bp).isValid = true → loadedState bp w.dir = .ok t →
      t.status ≠ .awaitingApproval →
      Wp (drive host bp fuel (remarkInterrupted bp t)) (fun _ => P) (fun _ => P) w) :
    Wp (perform host bp (.resume fuel)) (fun _ => P) (fun _ => P) w := by
  change Wp (resume host bp fuel) _ _ w
  unfold resume
  rw [wp_bind]
  refine wp_ofExcept_of (fun _ hval => ?_) fun _ _ => hw
  rw [wp_bind]
  refine wp_loadState (fun t hload => ?_) fun _ _ => hw
  rw [wp_bind]
  refine wp_ofExcept_of (fun _ _ => ?_) fun _ _ => hw
  refine wp_ite (fun _ => hw) fun hwait => ?_
  exact hdrive t (ensureValidBlueprint_ok hval) hload hwait

/-- Cancelling fails a run that is parked, and clears the marker of one that has ended. -/
theorem wp_performCancel (hlax : Lax P) (hw : P w)
    (hemit : ∀ t host', loadedState bp w.dir = .ok t → t.status = .awaitingApproval →
      Wp (emit host bp t (.runFailed cancelledMessage)) (fun _ => P) (fun _ => P)
        { w with host := host' }) : Wp (perform host bp .cancel) (fun _ => P) (fun _ => P) w := by
  change Wp (cancel host bp) _ _ w
  unfold cancel acquireApprovalDecisionGuard
  rw [wp_bind, wp_bind]
  refine wp_ask fun contended host' => ?_
  have hw' : P { w with host := host' } := hlax.ofHost hw host'
  refine wp_ite (fun _ => hw') fun _ => ?_
  rw [wp_pure, wp_bind]
  refine wp_loadState (fun t hload => ?_) fun _ _ => hw'
  rw [wp_bind]
  refine wp_ofExcept_of (fun _ _ => ?_) fun _ _ => hw'
  split <;> simp only [wp_bind, wp_pure]
  · exact wp_mono (hemit t host' hload ‹_›) (fun _ _ h' => hlax.wp_clear h') fun _ _ h => h
  · exact hlax.wp_clear hw'
  · exact hlax.wp_clear hw'
  · exact hw'

/-- Cancelling from the checkpoint records the failure of a parked run. -/
theorem wp_performCancelAwaiting (hlax : Lax P) (hw : P w)
    (hfails : ∀ c n host', w.dir.checkpoint = some c →
      c.normalizeLegacy.status = .awaitingApproval →
      checkedNextSeq c.normalizeLegacy w.dir.events = .ok n →
      Wp (recordFailure host c.normalizeLegacy w.dir.events n cancelledMessage) (fun _ => P)
        (fun _ => P) { w with host := host' }) :
    Wp (perform host bp .cancelAwaiting) (fun _ => P) (fun _ => P) w := by
  change Wp (cancelAwaiting host) _ _ w
  unfold cancelAwaiting acquireApprovalDecisionGuard
  rw [wp_bind, wp_bind]
  refine wp_ask fun contended host' => ?_
  have hw' : P { w with host := host' } := hlax.ofHost hw host'
  refine wp_ite (fun _ => hw') fun _ => ?_
  simp only [readCheckpoint, wp_pure, wp_bind, wp_get]
  cases hc : w.dir.checkpoint with
  | none => exact hw'
  | some c =>
    rw [Option.map_some]
    refine wp_ite (fun _ => hw') fun hwait => ?_
    simp only [readEvents, wp_bind, wp_get, wp_pure]
    refine wp_ofExcept_of (fun n hn => ?_) fun _ _ => hw'
    exact wp_mono (hfails c n host' hc (Decidable.not_not.1 hwait) hn)
      (fun _ _ h' => hlax.wp_clear h') fun _ _ h => h

/-- Marking a run as failed records the failure of a run whose checkpoint is running. -/
theorem wp_performMarkRunFailed {message : String} (hw : P w)
    (hfails : ∀ c n, w.dir.checkpoint = some c → c.normalizeLegacy.status = .running →
      checkedNextSeq c.normalizeLegacy w.dir.events = .ok n →
      Wp (recordFailure host c.normalizeLegacy w.dir.events n message) (fun _ => P)
        (fun _ => P) w) : Wp (perform host bp (.markRunFailed message)) (fun _ => P) (fun _ => P) w := by
  change Wp (markRunFailed host message) _ _ w
  unfold markRunFailed
  simp only [readCheckpoint, wp_pure, wp_bind, wp_get]
  cases hc : w.dir.checkpoint with
  | none => exact hw
  | some c =>
    rw [Option.map_some]
    refine wp_ite (fun _ => hw) fun hcompd => ?_
    refine wp_ite (fun _ => hw) fun hoth => ?_
    simp only [readEvents, wp_bind, wp_get, wp_pure]
    refine wp_ofExcept_of (fun n hn => ?_) fun _ _ => hw
    refine hfails c n hc ?_ hn
    cases hstat : c.normalizeLegacy.status with
    | running => rfl
    | completed => exact absurd hstat hcompd
    | failed => exact absurd (.inl hstat) hoth
    | awaitingApproval => exact absurd (.inr hstat) hoth

end Rules

/-! ### Operations on a recorded run -/

section Recorded

variable {hash : String}

/-- The directory records a run. -/
abbrev Records (hash : String) (bp : Blueprint) (E : RunState → RunState → Prop) :
    World ω → Prop := fun w => ∃ s, Recorded hash bp E w.dir s

theorem lax_records : Lax (ω := ω) (Records hash bp E) :=
  fun _ _ _ h => h.imp fun _ hr => hr.congr rfl rfl rfl

theorem wp_drive_op (C : Faithful bp E) (h : Recorded hash bp E w.dir s) (fuel : Nat)
    (hread : ∀ t, loadedState bp w.dir = .ok t → E s (t.reread host.readFloat)) :
    Wp (perform host bp (.drive fuel)) (fun _ => Records hash bp E) (fun _ => Records hash bp E)
      w :=
  wp_performDrive ⟨s, h⟩ fun t hval hload => wp_drive_recorded hval C fuel h (hread t hload)

/-- Resuming a run, where the relation allows for what resuming does to the nodes in flight. -/
theorem wp_resume_op (C : Faithful bp E) (h : Recorded hash bp E w.dir s) (fuel : Nat)
    (hremark : ∀ t, loadedState bp w.dir = .ok t → t.status ≠ .awaitingApproval →
      E s ((remarkInterrupted bp t).reread host.readFloat)) :
    Wp (perform host bp (.resume fuel)) (fun _ => Records hash bp E) (fun _ => Records hash bp E)
      w :=
  wp_performResume ⟨s, h⟩ fun t hval hload hwait =>
    wp_drive_recorded hval C fuel h (hremark t hload hwait)

variable {kind : EventKind}

theorem wp_emit_recorded (C : Faithful bp E) (h : Recorded hash bp E w.dir s)
    (hE : E s (t.reread host.readFloat)) (hstart : kind.isStart = false)
    (hends : t.status.isTerminal = true → (runEffect t.status kind).isTerminal = true) :
    Wp (emit host bp t kind) (fun _ => Records hash bp E) (fun _ => Records hash bp E) w := by
  refine wp_emit (fun _ host' => ⟨s, h.congr rfl rfl rfl⟩) fun t' ts host' happ => ?_
  have h' : Recorded hash bp E ({ w with host := host' } : World ω).dir s := h
  obtain ⟨s', -, -, hlgd, hsvd⟩ := h'.emit C hE hstart hends happ
  exact ⟨⟨s', hlgd⟩, s', hsvd⟩

theorem wp_decision_op (C : Faithful bp E) (h : Recorded hash bp E w.dir s) {node : String}
    (hstart : kind.isStart = false) (hread : ∀ t, loadedState bp w.dir = .ok t →
      t.status = .awaitingApproval → E s (t.reread host.readFloat)) :
    Wp (recordDecision host bp node kind) (fun _ => Records hash bp E)
      (fun _ => Records hash bp E) w := by
  refine wp_recordDecision (fun _ _ => ⟨s, h⟩) fun t host' hload hwait _ _ => ?_
  refine wp_emit_recorded C (w := { w with host := host' }) h (hread t hload hwait) hstart ?_
  rw [hwait]
  exact fun hends => absurd hends (by decide)

theorem wp_cancel_op (C : Faithful bp E) (h : Recorded hash bp E w.dir s)
    (hread : ∀ t, loadedState bp w.dir = .ok t → t.status = .awaitingApproval →
      E s (t.reread host.readFloat)) :
    Wp (perform host bp .cancel) (fun _ => Records hash bp E) (fun _ => Records hash bp E) w :=
  wp_performCancel lax_records ⟨s, h⟩ fun t host' hload hwait =>
    wp_emit_recorded C (w := { w with host := host' }) h (hread t hload hwait) rfl fun _ => rfl

/-- The state of a run after a failure. -/
def RunState.failedWith (s : RunState) (nextSeq : Nat) (message : String) : RunState :=
  { s with nextSeq := nextSeq, status := .failed, failure := some message }

variable {c : RunState} {events : List Event} {n : Nat}

/-- Recording a failure: it may stop before the event, or before the checkpoint. -/
theorem wp_recordFailure {P : World ω → Prop} {message : String} (hw : ∀ host', P { w with host := host' })
    (hrecd : events.any (isRunFailure message) = true → ∀ host',
      P { w with
        host := host'
        dir := { w.dir with checkpoint := some ((c.failedWith n message).reread host.readFloat) } })
    (hnew : events.any (isRunFailure message) = false → ∀ ts host',
      P { w with
        host := host'
        dir := { w.dir with events := w.dir.events ++ [⟨n, ts, .runFailed message⟩] } } ∧
      P { w with
        host := host'
        dir := { w.dir with
          events := w.dir.events ++ [⟨n, ts, .runFailed message⟩]
          checkpoint := some ((c.failedWith (n + 1) message).reread host.readFloat) } }) :
    Wp (recordFailure host c events n message) (fun _ => P) (fun _ => P) w := by
  unfold recordFailure
  cases hany : events.any (isRunFailure message) with
  | true =>
    simp only [Bool.not_true, Bool.false_eq_true, if_false, if_true, wp_bind]
    exact wp_persist (fun host' => hw host') fun host' => hrecd hany host'
  | false =>
    simp only [Bool.not_false, Bool.false_eq_true, if_false, if_true, wp_bind]
    refine wp_ask fun ts host₁ => ?_
    refine wp_persist (fun host' => hw host') fun host₂ => ?_
    exact wp_persist (fun host' => (hnew hany ts host').1) fun host' => (hnew hany ts host').2

theorem Recorded.appendFailure (h : Recorded hash bp E dir s) (ts message : String) :
    Recorded hash bp E
      { dir with events := dir.events ++ [⟨dir.events.length, ts, .runFailed message⟩] }
      (s.failedWith (dir.events.length + 1) message) :=
  h.append ⟨dir.events.length, ts, .runFailed message⟩ h.journal.nextSeq.symm rfl (fun _ => rfl) rfl

/-- A failure that is recorded without loading the state comes at the end of the log. -/
theorem checkedNextSeq_ok (hseq : SeqFrom 0 events)
    (hn : checkedNextSeq c events = .ok n) : n = events.length := by
  unfold checkedNextSeq validateEventSequence at hn
  rw [validateSequenceFrom_of_seqFrom hseq, Nat.zero_add] at hn
  change (if c.nextSeq > events.length then _ else _) = _ at hn
  split at hn
  · cases hn
  · exact (Except.ok.inj hn).symm

/-- The checkpoint of a recorded run is normal, and its log has no gap. -/
theorem Recorded.checkedNextSeq (C : Faithful bp E) (h : Recorded hash bp E dir s)
    (hc : dir.checkpoint = some c) (hn : checkedNextSeq c.normalizeLegacy dir.events = .ok n) :
    c.normalizeLegacy = c ∧ n = dir.events.length := by
  obtain ⟨hnorm, -, -, -⟩ := h.foldEvents_checkpoint C hc
  rw [RunState.normalizeLegacy_of_normal hnorm] at hn ⊢
  exact ⟨rfl, checkedNextSeq_ok h.journal.seqs hn⟩

end Recorded

theorem wp_perform_empty (hevs : w.dir.events = []) (hcp : w.dir.checkpoint = none) (hlax : Lax P)
    (hw : P w) (op : Op) : Wp (perform host bp op) (fun _ => P) (fun _ => P) w := by
  have hload : ∀ t, loadedState bp w.dir ≠ .ok t := by
    intro t hload
    rw [loadedState_nil hevs hcp] at hload
    cases hload
  have hnone : ∀ c, w.dir.checkpoint ≠ some c := by
    intro c hc
    rw [hcp] at hc
    cases hc
  have hdec : ∀ node kind,
      Wp (recordDecision host bp node kind) (fun _ => P) (fun _ => P) w :=
    fun node kind => wp_recordDecision (fun _ host' => hlax.ofHost hw host')
      fun t _ ht _ _ _ => absurd ht (hload t)
  cases op with
  | drive fuel => exact wp_performDrive hw fun t _ ht => absurd ht (hload t)
  | resume fuel => exact wp_performResume hw fun t _ ht _ => absurd ht (hload t)
  | grant node actor note | reject node actor note => exact hdec node _
  | cancel => exact wp_performCancel hlax hw fun t _ ht _ => absurd ht (hload t)
  | cancelAwaiting =>
    exact wp_performCancelAwaiting hlax hw fun c _ _ hc _ _ => absurd hc (hnone c)
  | markRunFailed message =>
    exact wp_performMarkRunFailed hw fun c _ hc _ _ => absurd hc (hnone c)

end Wardian.Engine
