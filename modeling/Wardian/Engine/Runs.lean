/-
Runs without a crash: a start, and grants of the gates where the run parks.

The driver follows the transition system of runs pass by pass, and so does a whole run: whatever the
executor answers, a run is reached by moves from its start, and its directory records it.

Main results:

* `Engine.wp_initializeWithId`, `Engine.wp_recordDecision` — starting a run, and deciding on one;
* `Engine.Run.reachable` — every run is reached by moves;
* `Engine.Run.running_iff` — a run is left running exactly when a pass was stuck.
-/

import Wardian.Engine.Driving
import Wardian.Engine.Replay

set_option autoImplicit false

namespace Wardian.Engine

open List
open Automation (Blueprint Node IsLoop InBody WellFormed validate wellFormed_of_isValid)
open Prog (Wp wp_bind wp_get wp_ite wp_mono wp_ofExcept_of wp_pure)

variable {ω : Type} {host : Host ω} {bp : Blueprint} {m₀ : Machine} {ps : List RunState}
  {phase phase' : Phase} {s s' : RunState} {w : World ω}

/-- The start of a run: one event, no status and no token. -/
structure Initial (bp : Blueprint) (m : Machine) : Prop where
  phase : m.phase = .idle
  running : m.state.status = .running
  marking : marking bp m.state = ⟨fun _ => .pending, ∅, ∅⟩
  trace : ∃ s₀ kind, m.trace = [.emitted s₀ kind m.state] ∧ kind.isStart = true

/-- What a run may reach. -/
def Reachable (bp : Blueprint) (m : Machine) : Prop := ∃ m₀, Initial bp m₀ ∧ Reach bp m₀ m

theorem Initial.sound (h : Initial bp m₀) : PhaseSound bp m₀.state m₀.trace m₀.phase := by
  rw [h.phase]
  exact h.running

variable {kind : EventKind}

theorem Legal.isStart (h : Legal bp s phase kind phase') : kind.isStart = false := by
  cases h <;> rfl

/-! ### The record of a run -/

/-- The run that started as `m₀` has reached `s`, and the directory records it, up to
floating-point numbers. -/
structure At (bp : Blueprint) (m₀ : Machine) (ps : List RunState) (phase : Phase)
    (s : RunState) (w : World ω) : Prop where
  initial : Initial bp m₀
  reach : Reach bp m₀ ⟨s, phase, w.trace⟩
  checkpoint : ∃ c, w.dir.checkpoint = some c ∧ c.erase = s.erase
  journal : ∃ c, Journal bp w.dir.events c ∧ c.erase = s.erase
  log : eraseKinds (w.dir.events.map (·.kind)) = eraseKinds (emittedKinds w.trace).reverse
  planned : plannedStates w.trace = ps

/-- The run that started as `m₀` has reached what was observed. -/
def Stopped (bp : Blueprint) (m₀ : Machine) (w : World ω) : Prop :=
  Initial bp m₀ ∧ ∃ m, Reach bp m₀ m ∧ m.trace = w.trace

theorem follows_at (read : ReadFloat) (bp : Blueprint) (m₀ : Machine) :
    Follows (ω := ω) read bp (At bp m₀) (Stopped bp m₀) where
  sound h := Reach.sound h.reach h.initial.sound
  normal h := by
    obtain ⟨c, hjrn, hc⟩ := h.journal
    exact RunState.normalizeLegacy_of_normal (hjrn.normal.of_erase hc.symm)
  stops h := ⟨h.initial, _, h.reach, rfl⟩
  aside h htr hevs hcp _ :=
    ⟨h.initial, htr ▸ h.reach, hcp ▸ h.checkpoint, hevs ▸ h.journal,
      by rw [hevs, htr]; exact h.log, htr ▸ h.planned⟩
  saves h :=
    ⟨h.initial, h.reach, ⟨_, rfl, RunState.erase_reread _⟩, h.journal, h.log, h.planned⟩
  emits {ps phase phase' s s' w kind ts} h hleg happ := by
    have hmove : Move bp ⟨s, phase, w.trace⟩ ⟨s', phase', .emitted s kind s' :: w.trace⟩ :=
      .emits hleg happ
    obtain ⟨c, hjrn, hc⟩ := h.journal
    obtain ⟨c', happ', hc'⟩ := apply_erase read hc happ
    have hseq : s.nextSeq = c.nextSeq :=
      RunState.frame_of_erase (f := RunState.nextSeq) hc.symm fun _ => rfl
    have hjrn' := hjrn.snoc (Event.reread read ⟨s.nextSeq, ts, kind⟩) hseq
      ((EventKind.isStart_reread read kind).trans hleg.isStart) happ'
    refine ⟨⟨h.initial, _, h.reach.tail hmove, rfl⟩, h.initial, h.reach.tail hmove,
      ⟨_, rfl, RunState.erase_reread _⟩, ⟨c', hjrn', hc'⟩, ?_, h.planned⟩
    simp only [World.logged, World.saved, map_append, emittedKinds, reverse_cons]
    exact eraseKinds_snoc h.log kind
  dispatches h hnode hrdy :=
    ⟨h.initial, h.reach.tail (.dispatches hnode hrdy), h.checkpoint, h.journal, h.log, h.planned⟩
  plans h hadvd :=
    ⟨h.initial, h.reach.tail (.plans hadvd), h.checkpoint, h.journal, h.log,
      congrArg (_ :: ·) h.planned⟩
  sends h _ _ _ :=
    ⟨h.initial, h.reach.tail (.sends _), h.checkpoint, h.journal, h.log, h.planned⟩

/-! ### Starting -/

/-- No run has started in the directory. -/
structure Unstarted (w : World ω) : Prop where
  events : w.dir.events = []
  checkpoint : w.dir.checkpoint = none
  trace : w.trace = []

/-- The event that starts a run. -/
def startKind (host : Host ω) (bp : Blueprint) (runId : String) (trigger : Value) : EventKind :=
  .runStarted (some runId) (some (host.blueprintHash bp)) bp.id bp.schema trigger

/-- The first event of a run has been appended. -/
structure Began (host : Host ω) (bp : Blueprint) (runId : String) (trigger : Value)
    (s : RunState) (w : World ω) : Prop where
  valid : (validate bp).isValid = true
  snapshot : w.dir.blueprint = some bp
  first : ∃ ts, apply bp (RunState.new runId bp.id) ⟨0, ts, startKind host bp runId trigger⟩ =
      .ok s ∧ w.dir.events =
        [Event.reread host.readFloat ⟨0, ts, startKind host bp runId trigger⟩]
  trace : w.trace = [.emitted (RunState.new runId bp.id) (startKind host bp runId trigger) s]

theorem ensureValidBlueprint_ok {u : Unit} (h : ensureValidBlueprint bp = .ok u) :
    (validate bp).isValid = true := by
  simp only [ensureValidBlueprint] at h
  split at h
  · assumption
  · cases h

variable {runId : String} {trigger : Value} {Q : RunState → World ω → Prop}
  {R : EngineError → World ω → Prop}

/-- Starting a run: it may fail before its first event, crash before its first checkpoint, or
start. -/
theorem wp_initializeWithId (h : Unstarted w) (hfail : ∀ e w', Unstarted w' → R e w')
    (hcrs : ∀ s' w', Began host bp runId trigger s' w' → w'.dir.checkpoint = none → R .io w')
    (hok : ∀ s' w', Began host bp runId trigger s' w' →
      w'.dir.checkpoint = some (s'.reread host.readFloat) → Q s' w') :
    Wp (initializeWithId host bp runId trigger) Q R w := by
  have hemit : ∀ w : World ω, (validate bp).isValid = true → w.dir.blueprint = some bp →
      Unstarted w →
      Wp (emit host bp (RunState.new runId bp.id) (startKind host bp runId trigger)) Q R w := by
    intro w hval hsnap h
    refine wp_emit (fun e _ => hfail e _ ⟨h.events, h.checkpoint, h.trace⟩) fun s' ts _ happ => ?_
    have hlog : ∀ ev : Event, w.dir.events ++ [ev] = [ev] := fun ev => by
      rw [h.events, nil_append]
    have htr : ∀ o : Observation, o :: w.trace = [o] := fun o => by rw [h.trace]
    exact ⟨hcrs s' _ ⟨hval, hsnap, ⟨ts, happ, hlog _⟩, htr _⟩ h.checkpoint,
      hok s' _ ⟨hval, hsnap, ⟨ts, happ, hlog _⟩, htr _⟩ rfl⟩
  unfold initializeWithId
  rw [wp_bind]
  refine wp_ofExcept_of (fun _ hchk => ?_) fun e _ => hfail e w h
  have hval := ensureValidBlueprint_ok hchk
  rw [wp_bind]
  unfold writeBlueprintSnapshot
  rw [wp_bind, wp_get]
  split
  · rename_i existing hexi
    refine wp_ite (fun _ => hfail _ _ h) fun hsame => ?_
    rw [Decidable.not_not.1 hsame] at hexi
    exact hemit w hval hexi h
  · refine wp_persist (fun _ => hfail _ _ ⟨h.events, h.checkpoint, h.trace⟩) fun _ => ?_
    exact hemit _ hval rfl ⟨h.events, h.checkpoint, h.trace⟩

theorem initial_of_start {ts : String}
    (h : apply bp (RunState.new runId bp.id) ⟨0, ts, startKind host bp runId trigger⟩ = .ok s') :
    Initial bp ⟨s', .idle,
      [.emitted (RunState.new runId bp.id) (startKind host bp runId trigger) s']⟩ where
  phase := rfl
  running := status_apply h
  marking := by
    rw [marking_apply h]
    change Engine.marking bp (RunState.new runId bp.id) = _
    simp only [Engine.marking, Marking.mk.injEq]
    refine ⟨?_, ?_, ?_⟩
    · funext n
      simp [RunState.statusOrPending, RunState.nodeStatus, RunState.new]
    · ext i
      simp [RunState.deliveredTo, RunState.new]
    · ext i
      simp [RunState.new]
  trace := ⟨_, _, rfl, rfl⟩

/-- The log gives the state that the first one reads back as. -/
theorem Began.journal (h : Began host bp runId trigger s w) :
    Journal bp w.dir.events (s.reread host.readFloat) := by
  obtain ⟨ts, happ, hevs⟩ := h.first
  have hread : apply bp (RunState.new runId bp.id)
      ⟨0, ts, startKind host bp runId (trigger.reread host.readFloat)⟩ =
        .ok (s.reread host.readFloat) := apply_reread_ok _ happ
  rw [hevs]
  refine Journal.of_start ?_
  rw [Journal.apply_start (.inl rfl), ← hread]
  exact (Journal.apply_start (.inr (.inr rfl))).symm

theorem at_of_start (h : Began host bp runId trigger s w)
    (hcp : w.dir.checkpoint = some (s.reread host.readFloat)) :
    At bp ⟨s, .idle, w.trace⟩ [] .idle s w := by
  obtain ⟨ts, happ, hevs⟩ := h.first
  refine ⟨?_, .refl, ⟨_, hcp, RunState.erase_reread s⟩, ⟨_, h.journal, RunState.erase_reread s⟩,
    ?_, ?_⟩
  · rw [h.trace]
    exact initial_of_start happ
  · rw [hevs, h.trace]
    exact eraseKinds_snoc (Eq.refl (eraseKinds [])) (startKind host bp runId trigger)
  · rw [h.trace]
    rfl

/-! ### Granting -/

/-- What loads is the state of the run, up to floating-point numbers. -/
theorem At.loadedState (h : At bp m₀ ps phase s w) :
    ∃ t, loadedState bp w.dir = .ok t ∧ t.erase = s.erase := by
  obtain ⟨c, hcp, hc⟩ := h.checkpoint
  obtain ⟨u, hjrn, hu⟩ := h.journal
  have hcu : c.erase = u.erase := hc.trans hu.symm
  refine ⟨c, hjrn.loadedState_end hcp (hjrn.normal.of_erase hcu) ?_ ?_, hc⟩
  · exact (RunState.frame_of_erase (f := RunState.nextSeq) hcu fun _ => rfl).trans hjrn.nextSeq
  · exact SameRun.of_erase hcu.symm

variable {node : String}

theorem latestAwaiting_of_head {events : List Event} {kinds : List EventKind}
    (h : eraseKinds (events.map (·.kind)) = eraseKinds (.awaitingApproval node :: kinds).reverse) :
    latestAwaiting events = some node := by
  have hrev : eraseKinds (events.reverse.map (·.kind)) = .awaitingApproval node :: eraseKinds kinds := by
    unfold eraseKinds at h ⊢
    rw [map_reverse, map_reverse, h, ← map_reverse, reverse_reverse]
    rfl
  unfold latestAwaiting
  cases hev : events.reverse with
  | nil => rw [hev] at hrev; cases hrev
  | cons ev rest =>
    rw [hev, map_cons, eraseKinds, map_cons, List.cons.injEq] at hrev
    rw [findSome?_cons, EventKind.reread_eq_awaitingApproval.1 hrev.1]

/-- Recording a decision is refused, or emits it for the gate where the run is parked. -/
theorem wp_recordDecision (hrfsd : ∀ e host', R e { w with host := host' })
    (hemits : ∀ s host', loadedState bp w.dir = .ok s → s.status = .awaitingApproval →
      isApproval bp node = true → latestAwaiting w.dir.events = some node →
      Wp (emit host bp s kind) Q R { w with host := host' }) :
    Wp (recordDecision host bp node kind) Q R w := by
  unfold recordDecision acquireApprovalDecisionGuard
  rw [wp_bind, wp_bind]
  refine wp_ask fun contended host' => ?_
  refine wp_ite (fun _ => hrfsd _ host') fun _ => ?_
  rw [wp_pure, wp_bind]
  refine wp_loadState (fun s hload => ?_) fun e _ => hrfsd e host'
  rw [wp_bind]
  refine wp_ofExcept_of (fun _ _ => ?_) fun e _ => hrfsd e host'
  rw [wp_bind]
  refine wp_ofExcept_of (fun _ _ => ?_) fun e _ => hrfsd e host'
  refine wp_ite (fun _ => hrfsd _ host') fun hwait => ?_
  rw [wp_bind]
  unfold ensureApprovalNode
  refine wp_ite (fun _ => hrfsd _ host') fun hgate => ?_
  simp only [readEvents, wp_bind, wp_get, wp_pure]
  split
  · exact hrfsd _ host'
  · rename_i expected hlat
    refine wp_ite (fun _ => hrfsd _ host') fun hnode => ?_
    obtain rfl : expected = node := Decidable.not_not.1 hnode
    exact hemits s host' hload (Decidable.not_not.1 hwait) (by simpa using hgate) hlat

/-- A parked run is loaded. -/
theorem At.reload {t : RunState} (h : At bp m₀ ps (.parked node) s w) (ht : t.erase = s.erase) :
    At bp m₀ ps (.parked node) t w where
  initial := h.initial
  reach := by
    rw [RunState.eq_of_erase ht]
    exact h.reach.tail (.reloads (congrArg RunState.registry ht))
  checkpoint := h.checkpoint.imp fun _ hc => ⟨hc.1, hc.2.trans ht.symm⟩
  journal := h.journal.imp fun _ hc => ⟨hc.1, hc.2.trans ht.symm⟩
  log := h.log
  planned := h.planned

/-- Recording a grant moves a parked run, and is refused for any other. -/
theorem wp_recordApprovalGranted {actor : String} {note : Option String} (hrest : Resting (At bp m₀) ps s w)
    (hQ : ∀ s' w', s.status ≠ .running → At bp m₀ ps .idle s' w' → Q s' w') :
    Wp (recordApprovalGranted host bp node actor note) Q (fun _ => Stopped bp m₀) w := by
  have F := follows_at (ω := ω) host.readFloat bp m₀
  obtain ⟨phase, h, hph⟩ := hrest
  have haside : ∀ host', At bp m₀ ps phase s { w with host := host' } :=
    fun _ => F.aside h rfl rfl rfl rfl
  refine wp_recordDecision (fun _ host' => F.stops (haside host')) ?_
  intro t host' hload hwait' _ hlat
  obtain ⟨t', hload', ht⟩ := h.loadedState
  obtain rfl : t' = t := Except.ok.inj (hload'.symm.trans hload)
  have hwait : s.status = .awaitingApproval :=
    (RunState.frame_of_erase (f := RunState.status) ht fun _ => rfl).symm.trans hwait'
  have hsnd := F.sound h
  obtain ⟨gate, rfl⟩ : ∃ gate, phase = .parked gate := by
    rcases hph with rfl | hp | rfl
    · exact absurd (hsnd.symm.trans hwait) (by decide)
    · exact hp
    · rcases hsnd with hs | hs <;> exact absurd (hs.symm.trans hwait) (by decide)
  obtain ⟨-, -, -, kinds, hks⟩ := hsnd
  have hgate : latestAwaiting w.dir.events = some gate :=
    latestAwaiting_of_head (h.log.trans (congrArg (fun kinds => eraseKinds kinds.reverse) hks))
  obtain rfl : gate = node := Option.some.inj (hgate.symm.trans hlat)
  have h' : At bp m₀ ps (.parked gate) t' { w with host := host' } := (haside host').reload ht
  refine F.wp_emit h' (.grants actor note) fun s' w' ts h'' _ => hQ s' w' ?_ h''
  rw [hwait]
  decide

/-! ### Runs -/

/-- Between two calls the host goes its own way, and the operator may leave a marker. -/
structure Between (w w' : World ω) : Prop where
  events : w'.dir.events = w.dir.events
  checkpoint : w'.dir.checkpoint = w.dir.checkpoint
  blueprint : w'.dir.blueprint = w.dir.blueprint
  trace : w'.trace = w.trace

/-- The runs without a crash: a start, and grants, which may be refused.  A run has the answer of
its last call and the world that the call left. -/
inductive Run (host : Host ω) (bp : Blueprint) : Except EngineError RunState → World ω → Prop
  | starts {w w' : World ω} {r : Except EngineError RunState} (fuel : Nat) (runId : String)
      (trigger : Value) (hemp : Unstarted w)
      (hcall : startWithId host bp fuel runId trigger w = (r, w')) : Run host bp r w'
  | grants {s : RunState} {w w₁ w' : World ω} {r : Except EngineError RunState} (fuel : Nat)
      (node actor : String) (note : Option String) (hrun : Run host bp (.ok s) w)
      (hbtw : Between w w₁)
      (hcall : grantApproval host bp fuel node actor note w₁ = (r, w')) : Run host bp r w'

theorem Run.start (fuel : Nat) (runId : String) (trigger : Value) (hemp : Unstarted w) :
    Run host bp (startWithId host bp fuel runId trigger w).1
      (startWithId host bp fuel runId trigger w).2 :=
  .starts fuel runId trigger hemp rfl

/-- What a run reaches, by the answer of its last call. -/
def Reached (bp : Blueprint) : Except EngineError RunState → World ω → Prop
  | .ok s, w => ∃ m₀, Driven bp (At bp m₀) s w
  | .error _, w => w.trace = [] ∨ ∃ m₀, Stopped bp m₀ w

variable {r : Except EngineError RunState}

theorem Run.reached (hval : (validate bp).isValid = true) (h : Run host bp r w) : Reached bp r w := by
  induction h with
  | @starts w w' r fuel runId trigger hemp hcall =>
    have hwp : Wp (startWithId host bp fuel runId trigger)
        (fun s => Reached bp (.ok s)) (fun e => Reached bp (.error e)) w := by
      unfold startWithId
      rw [wp_bind]
      refine wp_initializeWithId hemp (fun e w' h => .inl h.trace) ?_ ?_
      · intro s' w' hbegan _
        obtain ⟨ts, happ, -⟩ := hbegan.first
        exact .inr ⟨_, initial_of_start happ, _, .refl, hbegan.trace.symm⟩
      · intro s' w' hbegan hcp
        have hat := at_of_start hbegan hcp
        refine wp_mono (wp_driveFromState hval (follows_at host.readFloat bp _) fuel (by simp) hat) ?_ ?_
        · exact fun s w h => ⟨_, h⟩
        · exact fun e w h => .inr ⟨_, h⟩
    cases r with
    | ok s => exact hwp.of_ok hcall
    | error e => exact hwp.of_error hcall
  | @grants s w w₁ w' r fuel node actor note hrun hbtw hcall ih =>
    obtain ⟨m₀, ps, ⟨phase, hat, hph⟩, hdrvn⟩ := ih
    have hat₁ := (follows_at host.readFloat bp m₀).aside hat hbtw.trace hbtw.events hbtw.checkpoint
      hbtw.blueprint
    have hwp : Wp (grantApproval host bp fuel node actor note)
        (Driven bp (At bp m₀)) (fun _ => Stopped bp m₀) w₁ := by
      unfold grantApproval
      rw [wp_bind]
      refine wp_recordApprovalGranted ⟨phase, hat₁, hph⟩ fun s' w' hne h' => ?_
      obtain ⟨-, hfree⟩ := hdrvn.resolve_right fun h => hne h.1
      exact wp_driveFromState hval (follows_at host.readFloat bp m₀) fuel hfree h'
    cases r with
    | ok s => exact ⟨m₀, hwp.of_ok hcall⟩
    | error e => exact .inr ⟨m₀, hwp.of_error hcall⟩

theorem Run.reachable (hval : (validate bp).isValid = true)
    (h : Run host bp r w) : w.trace = [] ∨ ∃ m, Reachable bp m ∧ m.trace = w.trace := by
  have hrchd := h.reached hval
  cases r with
  | error e =>
    rcases hrchd with hnil | ⟨m₀, hinit, m, hrch, htr⟩
    · exact .inl hnil
    · exact .inr ⟨m, ⟨m₀, hinit, hrch⟩, htr⟩
  | ok s =>
    obtain ⟨m₀, ps, ⟨phase, hat, -⟩, -⟩ := hrchd
    exact .inr ⟨_, ⟨m₀, hat.initial, hat.reach⟩, rfl⟩

theorem Run.running_iff (hval : (validate bp).isValid = true) (h : Run host bp (.ok s) w) :
    s.status = .running ↔ ∃ p ∈ plannedStates w.trace, Stuck bp p := by
  obtain ⟨m₀, ps, ⟨phase, hat, -⟩, hdrvn⟩ := h.reached hval
  rw [hat.planned]
  rcases hdrvn with ⟨hne, hfree⟩ | ⟨hrunn, hstk⟩
  · refine ⟨fun h => absurd h hne, fun h => ?_⟩
    obtain ⟨p, hp, hstk⟩ := h
    exact absurd hstk (hfree p hp)
  · exact ⟨fun _ => hstk, fun _ => hrunn⟩

/-! ### Runs with a script -/

/-- The run of a blueprint on which the executor gives one answer for every node. -/
@[irreducible] def scriptedRun (bp : Blueprint) (answer : Except StepError Value)
    (trigger : Value) : Except EngineError RunState × World (List Bool) :=
  startWithId (Host.scripted "" fun _ => answer) bp 20 "run" trigger ⟨{}, [], []⟩

theorem run_scriptedRun (bp : Blueprint) (answer : Except StepError Value) (trigger : Value) :
    Run (Host.scripted "" fun _ => answer) bp (scriptedRun bp answer trigger).1
      (scriptedRun bp answer trigger).2 := by
  unfold scriptedRun
  exact Run.start 20 "run" trigger ⟨rfl, rfl, rfl⟩

end Wardian.Engine
