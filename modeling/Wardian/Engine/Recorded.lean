/-
Directories that record a run, wherever it stopped.

The directory of a run holds the log of the run and, perhaps, a checkpoint that lags behind: it is
the state of a prefix of the log, up to a relation that events keep.  Driving keeps such a record
through every write, so a crash leaves one as well.

Main results:

* `Engine.Recorded.loadedState`, `Engine.Recorded.replayedState` — what the directory of a run gives;
* `Engine.wp_drive_ended`, `Lasting.wp_drive` — driving;
* `Engine.lasting_recorded` — the record of a run lasts.
-/

import Wardian.Engine.Agree
import Wardian.Engine.Runs

set_option autoImplicit false

namespace Wardian.Engine

open List
open Automation (Blueprint validate wellFormed_of_isValid)
open Prog (Wp wp_bind wp_ite wp_modify wp_mono wp_pure)

variable {ω : Type} {host : Host ω} {bp : Blueprint} {hash : String}
  {E : RunState → RunState → Prop} {dir : RunDir} {phase phase' : Phase} {s t t' : RunState}
  {w : World ω} {read : ReadFloat}

/-! ### Relations that events keep -/

/-- A relation between the state of the log and what a state that drives on reads back as: events
keep it, and it allows for other statuses of nodes and other numbers at most. -/
structure Faithful (bp : Blueprint) (E : RunState → RunState → Prop) : Prop where
  refl : ∀ s, E s s
  symm : ∀ {s t}, E s t → E t s
  agree : ∀ {s t}, E s t → Agree s t
  apply_ok : ∀ {s t s' ev}, E s t → apply bp s ev = .ok s' →
    ∃ t', apply bp t ev = .ok t' ∧ E s' t'

theorem faithful_agree (bp : Blueprint) : Faithful bp Agree where
  refl := Agree.refl
  symm h := h.symm
  agree h := h
  apply_ok h happ := h.apply_ok happ

/-- Related states take the events of a log to related states. -/
theorem Faithful.foldEvents_ok (C : Faithful bp E) : ∀ {events : List Event} {s t s' : RunState},
    E s t → foldEvents bp s events = .ok s' → ∃ t', foldEvents bp t events = .ok t' ∧ E s' t' := by
  intro events
  induction events with
  | nil =>
    intro s t s' h hfold
    cases hfold
    exact ⟨t, rfl, h⟩
  | cons ev events ih =>
    intro s t s' h hfold
    obtain ⟨s₁, happ, hrest⟩ := foldEvents_cons_inv hfold
    obtain ⟨t₁, happ', h₁⟩ := C.apply_ok h happ
    obtain ⟨t', hrest', h'⟩ := ih h₁ hrest
    exact ⟨t', by rw [foldEvents_cons, happ']; exact hrest', h'⟩

/-! ### Records -/

/-- Whether a run has ended. -/
def RunStatus.isTerminal : RunStatus → Bool
  | .completed | .failed => true
  | .running | .awaitingApproval => false

/-- The directory holds the log of a run whose state is `s`, and a checkpoint, if there is one, of a
prefix of the log.  A run with a failure in its log has ended. -/
structure Recorded (hash : String) (bp : Blueprint) (E : RunState → RunState → Prop)
    (dir : RunDir) (s : RunState) : Prop where
  journal : Journal bp dir.events s
  hash : s.blueprintHash = some hash
  snapshot : dir.blueprint = some bp
  failures : ∀ ev ∈ dir.events, ∀ message, ev.kind = .runFailed message →
    s.status.isTerminal = true
  checkpoint : ∀ c, dir.checkpoint = some c → ∃ k c₀, 0 < k ∧ k ≤ dir.events.length ∧
    Journal bp (dir.events.take k) c₀ ∧ E c₀ c

namespace Recorded

theorem congr {dir' : RunDir} (h : Recorded hash bp E dir s) (hevs : dir'.events = dir.events)
    (hcp : dir'.checkpoint = dir.checkpoint) (hblue : dir'.blueprint = dir.blueprint) :
    Recorded hash bp E dir' s where
  journal := hevs ▸ h.journal
  hash := h.hash
  snapshot := hblue.trans h.snapshot
  failures := hevs ▸ h.failures
  checkpoint := by
    rw [hcp, hevs]
    exact h.checkpoint

theorem save (h : Recorded hash bp E dir s) (hE : E s t) :
    Recorded hash bp E { dir with checkpoint := some t } s where
  journal := h.journal
  hash := h.hash
  snapshot := h.snapshot
  failures := h.failures
  checkpoint c hc := by
    obtain rfl := Option.some.inj hc
    refine ⟨dir.events.length, s, length_pos_of_ne_nil h.journal.ne_nil, le_rfl, ?_, hE⟩
    change Journal bp (dir.events.take dir.events.length) s
    rw [take_length]
    exact h.journal

theorem append (h : Recorded hash bp E dir s) (ev : Event) {s' : RunState} (hseq : ev.seq = s.nextSeq)
    (hstart : ev.kind.isStart = false)
    (hends : s.status.isTerminal = true → (runEffect s.status ev.kind).isTerminal = true)
    (happ : apply bp s ev = .ok s') : Recorded hash bp E { dir with events := dir.events ++ [ev] } s' where
  journal := h.journal.snoc ev hseq hstart happ
  hash := (sameRun_apply hstart happ).blueprintHash.trans h.hash
  snapshot := h.snapshot
  failures ev' hev' message hkind := by
    rw [status_apply happ]
    rcases mem_append.1 hev' with hev' | hev'
    · exact hends (h.failures ev' hev' message hkind)
    · obtain rfl := mem_singleton.1 hev'
      rw [hkind]
      rfl
  checkpoint c hc := by
    obtain ⟨k, c₀, hpos, hle, htake, hE⟩ := h.checkpoint c hc
    refine ⟨k, c₀, hpos, ?_, ?_, hE⟩
    · change k ≤ (dir.events ++ [ev]).length
      rw [length_append]
      omega
    · change Journal bp ((dir.events ++ [ev]).take k) c₀
      rw [take_append_of_le_length hle]
      exact htake

/-- The state of a prefix of the log, and what the rest of the log makes of it. -/
theorem foldEvents_checkpoint (C : Faithful bp E) (h : Recorded hash bp E dir s) {c : RunState}
    (hc : dir.checkpoint = some c) : c.Normal ∧ c.nextSeq ≤ dir.events.length ∧ SameRun c s ∧
      ∃ t, foldEvents bp c (dir.events.drop c.nextSeq) = .ok t ∧ E s t := by
  obtain ⟨k, c₀, hpos, hle, htake, hE⟩ := h.checkpoint c hc
  obtain ⟨c₁, hc₁, htail⟩ := h.journal.take hpos
  obtain rfl : c₀ = c₁ := Except.ok.inj (htake.fold.symm.trans hc₁.fold)
  have hnext : c.nextSeq = k := by
    rw [(C.agree hE).nextSeq, htake.nextSeq, length_take, Nat.min_eq_left hle]
  obtain ⟨t, hfold, hEt⟩ := C.foldEvents_ok hE htail
  have hsame : SameRun c₀ s := by
    obtain ⟨ts, id, startHash, trigger, rest, hevs, hid, hhash, hrest⟩ := h.journal.start
    obtain ⟨k, rfl⟩ := Nat.exists_eq_succ_of_ne_zero (Nat.ne_of_gt hpos)
    refine foldEvents_inv (I := SameRun c₀) (fun a b ev hev ha happ => ?_) (SameRun.refl c₀) htail
    rw [hevs, Nat.succ_eq_add_one, drop_succ_cons] at hev
    exact ha.trans (sameRun_apply (hrest ev (mem_of_mem_drop hev)) happ)
  refine ⟨(C.agree hE).normal htake.normal, hnext ▸ hle, ?_, t, hnext ▸ hfold, hEt⟩
  exact (C.agree hE).symm.sameRun.trans hsame

/-- Loading a directory gives the state of its log, up to the relation. -/
theorem loadedState (C : Faithful bp E) (h : Recorded hash bp E dir s) :
    ∃ t, loadedState bp dir = .ok t ∧ E s t := by
  unfold Engine.loadedState
  cases hc : dir.checkpoint with
  | none => exact ⟨s, h.journal.foldEventLog_new (.inr rfl), C.refl s⟩
  | some c =>
    obtain ⟨hnorm, hle, hsame, t, hfold, hE⟩ := h.foldEvents_checkpoint C hc
    refine ⟨t, ?_, hE⟩
    rw [Option.map_some, Option.getD_some, RunState.normalizeLegacy_of_normal hnorm,
      h.journal.foldEventLog_eq hle rfl (hsame.blueprintId.symm.trans h.journal.blueprintId)
        (.inr hsame.runId.symm) (.inr hsame.blueprintHash.symm)]
    exact hfold

theorem of_loadedState (C : Faithful bp E) (h : Recorded hash bp E dir s)
    (hload : Engine.loadedState bp dir = .ok t) : E s t := by
  obtain ⟨t', hload', hE⟩ := h.loadedState C
  obtain rfl : t = t' := Except.ok.inj (hload.symm.trans hload')
  exact hE

theorem replayedState {hashOf : Blueprint → String} (h : Recorded (hashOf bp) bp E dir s) :
    replayedState hashOf bp dir = .ok s := by
  have hmat : ensureBlueprintMatches hashOf bp s = .ok () := by
    simp [ensureBlueprintMatches, h.journal.blueprintId, h.hash]
  simp only [Engine.replayedState, h.journal.foldEventLog_new (.inl rfl), Except.bind, hmat,
    Except.map]

/-- Emitting an event keeps the record, whether its checkpoint is written or not. -/
theorem emit (C : Faithful bp E) (h : Recorded hash bp E w.dir s) (hE : E s (t.reread read))
    {kind : EventKind} {ts : String} (hstart : kind.isStart = false)
    (hends : t.status.isTerminal = true → (runEffect t.status kind).isTerminal = true)
    (happ : apply bp t ⟨t.nextSeq, ts, kind⟩ = .ok t') : ∃ s', E s' (t'.reread read) ∧
      s'.status = runEffect s.status (kind.reread read) ∧
      Recorded hash bp E (w.logged read t ⟨t.nextSeq, ts, kind⟩ t').dir s' ∧
      Recorded hash bp E ((w.logged read t ⟨t.nextSeq, ts, kind⟩ t').saved (t'.reread read)).dir
        s' := by
  have hseq : t.nextSeq = s.nextSeq := (C.agree hE).nextSeq
  obtain ⟨s', happ', hE'⟩ := C.apply_ok (C.symm hE) (apply_reread_ok t happ)
  rw [show t.status = s.status from (C.agree hE).status, ← runEffect_reread read] at hends
  have hrec := h.append (Event.reread read ⟨t.nextSeq, ts, kind⟩) hseq
    ((EventKind.isStart_reread read kind).trans hstart) hends happ'
  exact ⟨s', C.symm hE', status_apply happ', hrec, hrec.save (C.symm hE')⟩

end Recorded

/-! ### Driving a run that is not running -/

/-- The events that driving emits on a run that is not running. -/
def EventKind.isLate : EventKind → Bool
  | .loopIteration .. | .loopCompleted _ | .runCompleted | .runFailed _ => true
  | _ => false

/-- `I` is kept by driving a run that is not running, and `R` holds wherever it stops. -/
structure Lingers (read : ReadFloat) (bp : Blueprint) (I : RunState → World ω → Prop)
    (R : World ω → Prop) : Prop where
  normal : ∀ {s w}, I s w → s.normalizeLegacy = s
  stops : ∀ {s w}, I s w → R w
  aside : ∀ {s w w'}, I s w → w'.trace = w.trace → w'.dir.events = w.dir.events →
    w'.dir.checkpoint = w.dir.checkpoint → w'.dir.blueprint = w.dir.blueprint → I s w'
  saves : ∀ {s w}, I s w → I s (w.saved (s.reread read))
  plans : ∀ {s w}, I s w → I s (w.noted (.planned s))
  emits : ∀ {s s' w kind ts}, I s w → s.status ≠ .running → kind.isLate = true →
    apply bp s ⟨s.nextSeq, ts, kind⟩ = .ok s' →
    R (w.logged read s ⟨s.nextSeq, ts, kind⟩ s') ∧
      I s' ((w.logged read s ⟨s.nextSeq, ts, kind⟩ s').saved (s'.reread read))

section Lingers

variable {I : RunState → World ω → Prop} {R : World ω → Prop}

variable {Q : RunState → World ω → Prop}

theorem Lingers.wp_emit {kind : EventKind} (L : Lingers host.readFloat bp I R) (h : I s w) (hstat : s.status ≠ .running)
    (hlate : kind.isLate = true) (hQ : ∀ s' w', I s' w' → s'.status = runEffect s.status kind → Q s' w') :
    Wp (emit host bp s kind) Q (fun _ => R) w := by
  have haside : ∀ host', I s { w with host := host' } := fun _ => L.aside h rfl rfl rfl rfl
  refine Engine.wp_emit (fun _ host' => L.stops (haside host')) fun s' ts host' happ => ?_
  obtain ⟨hstop, hnext⟩ := L.emits (haside host') hstat hlate happ
  exact ⟨hstop, hQ s' _ hnext (status_apply happ)⟩

theorem Lingers.wp_clear (L : Lingers host.readFloat bp I R) (h : I s w) :
    Wp (do clearCancellationRequest host; return s) I (fun _ => R) w := by
  rw [wp_bind]
  have haside : ∀ host' marker,
      I s { w with host := host', dir := { w.dir with cancelMarker := marker } } :=
    fun _ _ => L.aside h rfl rfl rfl rfl
  exact wp_persist (fun host' => L.stops (haside host' w.dir.cancelMarker))
    fun host' => haside host' false

theorem Lingers.wp_advance (L : Lingers host.readFloat bp I R) (hQ : ∀ s' w', I s' w' → s'.status ≠ .running → Q s' w') :
    ∀ {advanced : List String} {events : List EventKind} {s : RunState} {w : World ω},
      Forall₂ AdvanceOf advanced events → I s w → s.status ≠ .running →
      Wp (emitAll host bp s events) Q (fun _ => R) w := by
  intro advanced events s w hforall
  induction hforall generalizing s w with
  | nil => exact fun h hstat => hQ s w h hstat
  | @cons l kind rest events hadv _ ih =>
    intro h hstat
    rw [emitAll, wp_bind]
    have hlate : kind.isLate = true ∧ ∀ status, runEffect status kind = status := by
      rcases hadv with rfl | ⟨iteration, -, rfl⟩ <;> exact ⟨rfl, fun _ => rfl⟩
    refine L.wp_emit h hstat hlate.1 fun s' w' h' hstat' => ih h' ?_
    rw [hstat', hlate.2]
    exact hstat

theorem finalizeIfDone_of_ne (hstat : s.status ≠ .running) : finalizeIfDone bp s = s := by
  rw [finalizeIfDone, if_pos hstat]

theorem newlySkipped_self (s : RunState) : newlySkipped s s = [] := by
  unfold newlySkipped
  rw [map_eq_nil_iff, filter_eq_nil_iff]
  intro p hp
  have hstat : s.nodeStatus p.1 = some p.2 := Table.mem_toList.1 hp
  by_cases hskip : p.2 = .skipped
  · simp [RunState.statusOrPending, hstat, hskip]
  · simp [hskip]

/-- Driving a run that is not running: a cancellation marker is cleared, loops may be advanced, and
a completed run is completed again. -/
theorem wp_drivePasses_ended (L : Lingers host.readFloat bp I R) (fuel : Nat) (h : I s w)
    (hstat : s.status ≠ .running) : Wp (drivePasses host bp fuel s) I (fun _ => R) w := by
  cases fuel with
  | zero => exact L.stops h
  | succ fuel =>
    rw [drivePasses, wp_bind]
    refine Engine.wp_cancellationRequested fun host₁ marker _ => ?_
    have h₁ : I s { w with host := host₁, dir := { w.dir with cancelMarker := marker } } :=
      L.aside h rfl rfl rfl rfl
    refine wp_ite (fun _ => ?_) fun _ => ?_
    · unfold consumeCancellation
      split
      · exact absurd ‹s.status = .running› hstat
      · exact L.wp_clear h₁
      · exact L.wp_clear h₁
      · exact h₁
    · split
      · exact L.wp_emit h₁ hstat rfl fun s' w' h' _ => h'
      · rename_i events hevs
        obtain ⟨advanced, -, hforall, -⟩ := advanceEach_ok hevs
        rw [wp_bind]
        refine L.wp_advance (fun s₂ w₂ h₂ hstat₂ => ?_) hforall h₁ hstat
        have hfin : finalizeIfDone bp s₂ = s₂ := finalizeIfDone_of_ne hstat₂
        rw [wp_bind]
        unfold finalizePass
        simp only [observe, hfin, newlySkipped_self, map_nil, emitAll, wp_bind,
          wp_modify, wp_pure]
        have hplnd := L.plans h₂
        refine wp_persist (fun host₃ => L.stops (L.aside hplnd rfl rfl rfl rfl))
          fun host₃ => ?_
        have h₃ := L.saves (L.aside hplnd rfl rfl rfl rfl :
          I s₂ { (w₂.noted (.planned s₂)) with host := host₃ })
        refine wp_ite (fun _ => ?_) fun hrunn => absurd ?_ hstat₂
        · refine wp_ite (fun _ => ?_) fun _ => h₃
          exact L.wp_emit h₃ hstat₂ rfl fun s' w' h' _ => h'
        · exact Decidable.not_not.1 hrunn

theorem wp_drive_ended (L : Lingers host.readFloat bp I R) (fuel : Nat) (h : I s w)
    (hstat : s.status ≠ .running) : Wp (drive host bp fuel s) I (fun _ => R) w := by
  unfold drive
  dsimp only
  rw [L.normal h, if_neg hstat]
  exact wp_drivePasses_ended L fuel h hstat

end Lingers

/-! ### Driving any run -/

theorem Legal.isTerminal {trace : List Observation} {kind : EventKind} (hsnd : PhaseSound bp s trace phase)
    (hleg : Legal bp s phase kind phase') : s.status.isTerminal = false := by
  cases hleg with
  | prepares | iterates | closes | cascades | completes | aborts =>
    rw [show s.status = .running from hsnd]
    rfl
  | passes | starts | parks | enters | branches | refuses | updates | notifies | finishes
  | decides | skips | fails =>
    rw [hsnd.1]
    rfl
  | grants =>
    rw [hsnd.1]
    rfl

/-- `J` is kept by every event but a start, and `R` holds wherever the driver stops. -/
structure Lasting (read : ReadFloat) (bp : Blueprint) (J : RunState → World ω → Prop)
    (R : World ω → Prop) : Prop where
  normal : ∀ {s w}, J s w → s.normalizeLegacy = s
  stops : ∀ {s w}, J s w → R w
  aside : ∀ {s w w'}, J s w → w'.dir.events = w.dir.events →
    w'.dir.checkpoint = w.dir.checkpoint → w'.dir.blueprint = w.dir.blueprint → J s w'
  saves : ∀ {s w}, J s w → J s (w.saved (s.reread read))
  emits : ∀ {s s' w kind ts}, J s w → kind.isStart = false →
    (s.status.isTerminal = true → (runEffect s.status kind).isTerminal = true) →
    apply bp s ⟨s.nextSeq, ts, kind⟩ = .ok s' →
    R (w.logged read s ⟨s.nextSeq, ts, kind⟩ s') ∧
      J s' ((w.logged read s ⟨s.nextSeq, ts, kind⟩ s').saved (s'.reread read))

section Lasting

variable {J : RunState → World ω → Prop} {R : World ω → Prop}

theorem Lasting.follows (L : Lasting read bp J R) :
    Follows read bp (fun _ phase t w => PhaseSound bp t w.trace phase ∧ J t w) R where
  sound h := h.1
  normal h := L.normal h.2
  stops h := L.stops h.2
  aside h htr hevs hcp hblue :=
    ⟨htr ▸ h.1, L.aside h.2 hevs hcp hblue⟩
  saves h := ⟨h.1, L.saves h.2⟩
  emits h hleg happ := by
    have hopen := hleg.isTerminal h.1
    obtain ⟨hstop, hnext⟩ := L.emits h.2 hleg.isStart
      (fun hends => absurd (hopen.symm.trans hends) (by decide)) happ
    exact ⟨hstop, hleg.sound h.1 happ, hnext⟩
  dispatches h _ hrdy := ⟨⟨h.1, hrdy.pending⟩, L.aside h.2 rfl rfl rfl⟩
  plans h _ := ⟨h.1, L.aside h.2 rfl rfl rfl⟩
  sends h _ _ _ := ⟨h.1, L.aside h.2 rfl rfl rfl⟩

theorem Lasting.lingers (L : Lasting read bp J R) : Lingers read bp J R where
  normal := L.normal
  stops := L.stops
  aside h _ := L.aside h
  saves := L.saves
  plans h := L.aside h rfl rfl rfl
  emits {s s' w kind ts} h _ hlate happ := by
    have hstart : kind.isStart = false := by
      cases kind <;> first | rfl | cases hlate
    have hends : s.status.isTerminal = true → (runEffect s.status kind).isTerminal = true := by
      cases kind <;> first | exact id | exact fun _ => rfl | cases hlate
    exact L.emits h hstart hends happ

theorem Lasting.wp_drive (hval : (validate bp).isValid = true) (L : Lasting host.readFloat bp J R)
    (fuel : Nat) (h : J t w) : Wp (drive host bp fuel t) (fun _ => R) (fun _ => R) w := by
  by_cases hrunn : t.status = .running
  · have F := L.follows
    have hfree : ∀ p ∈ ([] : List RunState), ¬Stuck bp p := by simp
    refine wp_mono (Engine.wp_drive (wellFormed_of_isValid hval) F fuel hfree
      ⟨hrunn, h⟩) ?_ fun _ _ h => h
    rintro t' w' ⟨-, ⟨phase, h', -⟩, -⟩
    exact L.stops h'.2
  · exact wp_mono (wp_drive_ended L.lingers fuel h hrunn) (fun _ _ h' => L.stops h')
      fun _ _ h => h

end Lasting

theorem lasting_recorded (read : ReadFloat) (C : Faithful bp E) : Lasting (ω := ω) read bp
    (fun t w => ∃ s, Recorded hash bp E w.dir s ∧ E s (t.reread read))
    fun w => ∃ s, Recorded hash bp E w.dir s where
  normal h := by
    obtain ⟨s, hrec, hE⟩ := h
    exact RunState.normalizeLegacy_of_normal
      (RunState.normal_reread.1 ((C.agree hE).normal hrec.journal.normal))
  stops h := h.imp fun _ => And.left
  aside h hevs hcp hblue :=
    h.imp fun _ hr => ⟨hr.1.congr hevs hcp hblue, hr.2⟩
  saves h := h.imp fun _ hr => ⟨hr.1.save hr.2, hr.2⟩
  emits h hstart hends happ := by
    obtain ⟨s, hrec, hE⟩ := h
    obtain ⟨s', hE', -, hlgd, hsvd⟩ := hrec.emit C hE hstart hends happ
    exact ⟨⟨s', hlgd⟩, s', hsvd, hE'⟩

theorem wp_drive_recorded (hval : (validate bp).isValid = true) (C : Faithful bp E)
    (fuel : Nat) (h : Recorded hash bp E w.dir s) (hE : E s (t.reread host.readFloat)) :
    Wp (drive host bp fuel t) (fun _ w' => ∃ s, Recorded hash bp E w'.dir s)
      (fun _ w' => ∃ s, Recorded hash bp E w'.dir s) w :=
  (lasting_recorded host.readFloat C).wp_drive hval fuel ⟨s, h, hE⟩

end Wardian.Engine
