/-
Approval decisions are single and bound.

Clients grant, reject and cancel under the guard of the approval decision, in any order and with any
crashes.  In the log, the event after a gate is the decision on it: a grant or a rejection of exactly
that gate, or the cancellation of the parked run; and grants and rejections come nowhere else.

Main results:

* `Engine.History.decisions` — the decisions of every reachable log are single and bound, and every
  call appends its decision or nothing.
-/

import Wardian.Engine.Agreement

set_option autoImplicit false

namespace Wardian.Engine

open List
open Automation (Blueprint validate wellFormed_of_isValid)
open Prog (Wp wp_bind wp_mono wp_ofExcept_of)

variable {ω : Type} {host : Host ω} {bp : Blueprint} {hash : String} {dir : RunDir}
  {s t : RunState} {w w' : World ω}

/-! ### Decisions in a log -/

/-- The gate that a grant or a rejection names. -/
def EventKind.decides : EventKind → Option String
  | .approvalGranted node _ _ | .approvalRejected node _ _ => some node
  | _ => none

/-- An event decides on a run that is parked at a gate. -/
def EventKind.DecidesOn (kind : EventKind) (node : String) : Prop :=
  kind.decides = some node ∨ kind = .runFailed cancelledMessage

/-- The event after a gate is the decision on it, and grants and rejections come nowhere else. -/
structure SingleDecisions (log : List EventKind) : Prop where
  next : ∀ i node kind, log[i]? = some (.awaitingApproval node) → log[i + 1]? = some kind →
    kind.DecidesOn node
  bound : ∀ i node kind, log[i]? = some kind → kind.decides = some node →
    ∃ j, i = j + 1 ∧ log[j]? = some (.awaitingApproval node)

/-- The kinds of the events of a directory. -/
def RunDir.kinds (dir : RunDir) : List EventKind := dir.events.map (·.kind)

variable {kind : EventKind}

/-- A log can be extended by a decision after a gate, and by anything but a grant or a rejection
elsewhere. -/
theorem SingleDecisions.snoc {log : List EventKind} (h : SingleDecisions log)
    (hgate : ∀ node, log.getLast? = some (.awaitingApproval node) → kind.DecidesOn node)
    (hoth : ∀ node, kind.decides = some node → log.getLast? = some (.awaitingApproval node)) :
    SingleDecisions (log ++ [kind]) := by
  have hlast : ∀ i k, (log ++ [kind])[i]? = some k →
      log[i]? = some k ∨ (i = log.length ∧ k = kind) := by
    intro i k hk
    rcases Nat.lt_or_ge i log.length with hlt | hge
    · rw [getElem?_append_left hlt] at hk
      exact .inl hk
    · rw [getElem?_append_right hge] at hk
      obtain ⟨hi, hkind⟩ := List.getElem?_eq_some_iff.1 hk
      rw [length_singleton] at hi
      refine .inr ⟨by omega, ?_⟩
      rw [← hkind]
      simp
  have hkeep : ∀ i k, log[i]? = some k → (log ++ [kind])[i]? = some k := fun i k hk => by
    rw [getElem?_append_left (List.getElem?_eq_some_iff.1 hk).1]
    exact hk
  constructor
  · intro i node k hi hk
    rcases hlast (i + 1) k hk with hk | ⟨hlen, rfl⟩
    · rcases hlast i _ hi with hi | ⟨hlen, -⟩
      · exact h.next i node k hi hk
      · have hlt := (List.getElem?_eq_some_iff.1 hk).1
        omega
    · rcases hlast i _ hi with hi | ⟨hlen', -⟩
      · refine hgate node ?_
        rw [getLast?_eq_getElem?, ← hlen, Nat.add_sub_cancel]
        exact hi
      · omega
  · intro i node k hi hk
    rcases hlast i k hi with hi | ⟨hlen, rfl⟩
    · obtain ⟨j, hj, hgate⟩ := h.bound i node k hi hk
      exact ⟨j, hj, hkeep j _ hgate⟩
    · have hgate := hoth node hk
      rw [getLast?_eq_getElem?] at hgate
      have hlt := (List.getElem?_eq_some_iff.1 hgate).1
      exact ⟨log.length - 1, by omega, hkeep _ _ hgate⟩

/-! ### Decided directories -/

/-- The directory records a run whose decisions are single and bound; it is parked exactly when its
last event is a gate. -/
structure Decided (hash : String) (bp : Blueprint) (dir : RunDir) (s : RunState) : Prop where
  record : Recorded hash bp Agree dir s
  single : SingleDecisions dir.kinds
  parked : s.status = .awaitingApproval ↔
    ∃ node, dir.kinds.getLast? = some (.awaitingApproval node)

theorem Decided.congr {dir' : RunDir} (h : Decided hash bp dir s)
    (hevs : dir'.events = dir.events) (hcp : dir'.checkpoint = dir.checkpoint)
    (hblue : dir'.blueprint = dir.blueprint) : Decided hash bp dir' s where
  record := h.record.congr hevs hcp hblue
  single := by
    rw [RunDir.kinds, hevs]
    exact h.single
  parked := by
    rw [RunDir.kinds, hevs]
    exact h.parked

theorem Decided.save (h : Decided hash bp dir s) (hagr : Agree s t) :
    Decided hash bp { dir with checkpoint := some t } s :=
  ⟨h.record.save hagr, h.single, h.parked⟩

theorem runEffect_awaiting {status : RunStatus} (hstat : status ≠ .awaitingApproval) :
    runEffect status kind = .awaitingApproval ↔ ∃ node, kind = .awaitingApproval node := by
  cases kind <;> simp [runEffect, hstat]

variable {node : String}

theorem EventKind.DecidesOn.leaves (h : kind.DecidesOn node)
    (status : RunStatus) : runEffect status kind ≠ .awaitingApproval ∧
      ∀ n, kind ≠ .awaitingApproval n := by
  rcases h with h | rfl
  · cases kind <;> simp_all [EventKind.decides, runEffect]
  · simp [runEffect]

theorem EventKind.decides_reread (read : ReadFloat) (kind : EventKind) :
    (kind.reread read).decides = kind.decides := by
  cases kind <;> rfl

theorem EventKind.DecidesOn.reread (h : kind.DecidesOn node) (read : ReadFloat) :
    (kind.reread read).DecidesOn node := by
  rcases h with h | rfl
  · exact .inl ((kind.decides_reread read).trans h)
  · exact .inr rfl

/-- Emitting an event that may follow the last one of the log. -/
theorem Decided.emit (h : Decided hash bp w.dir s) (hagr : Agree s t) (read : ReadFloat)
    {t' : RunState} {kind : EventKind} {ts : String} (hstart : kind.isStart = false)
    (hends : t.status.isTerminal = true → (runEffect t.status kind).isTerminal = true)
    (hgate : ∀ node, w.dir.kinds.getLast? = some (.awaitingApproval node) → kind.DecidesOn node)
    (hoth : ∀ node, kind.decides = some node → w.dir.kinds.getLast? = some (.awaitingApproval node))
    (happ : apply bp t ⟨t.nextSeq, ts, kind⟩ = .ok t') : ∃ s', Agree s' t' ∧
      Decided hash bp (w.logged read t ⟨t.nextSeq, ts, kind⟩ t').dir s' ∧
      Decided hash bp ((w.logged read t ⟨t.nextSeq, ts, kind⟩ t').saved (t'.reread read)).dir
        s' := by
  obtain ⟨s', hagr', hstat', hlgd, hsvd⟩ :=
    h.record.emit (faithful_agree bp) (agree_reread.2 hagr) hstart hends happ
  have hks : ∀ dir' : RunDir,
      dir'.events = w.dir.events ++ [Event.reread read ⟨t.nextSeq, ts, kind⟩] →
        dir'.kinds = w.dir.kinds ++ [kind.reread read] := by
    intro dir' hevs
    rw [RunDir.kinds, hevs, map_append]
    rfl
  have hsngl := h.single.snoc (fun node hnode => (hgate node hnode).reread read)
    fun node hnode => hoth node ((kind.decides_reread read).symm.trans hnode)
  have hparked : s'.status = .awaitingApproval ↔
      ∃ node, (w.dir.kinds ++ [kind.reread read]).getLast? = some (.awaitingApproval node) := by
    have hlast : (w.dir.kinds ++ [kind.reread read]).getLast? = some (kind.reread read) := by simp
    rw [hstat', hlast]
    simp only [Option.some.injEq]
    by_cases hwait : s.status = .awaitingApproval
    · -- a decision leaves the gate
      obtain ⟨node, hnode⟩ := h.parked.1 hwait
      obtain ⟨hlvs, hoth⟩ := ((hgate node hnode).reread read).leaves s.status
      exact ⟨fun h => absurd h hlvs, fun ⟨n, hn⟩ => absurd hn (hoth n)⟩
    · exact runEffect_awaiting hwait
  refine ⟨s', agree_reread.1 hagr', ⟨hlgd, ?_, ?_⟩, ⟨hsvd, ?_, ?_⟩⟩
  all_goals rw [hks _ rfl]
  · exact hsngl
  · exact hparked
  · exact hsngl
  · exact hparked

/-! ### Driving -/

/-- A run that moves, over a decided directory. -/
structure Parks (hash : String) (bp : Blueprint) (phase : Phase) (t : RunState) (w : World ω) :
    Prop where
  sound : PhaseSound bp t w.trace phase
  record : ∃ s, Decided hash bp w.dir s ∧ Agree s t
  gate : ∀ node, phase = .parked node → w.dir.kinds.getLast? = some (.awaitingApproval node)

/-- Where a run moves, it is running, or it is parked and the move is a grant. -/
theorem Legal.grants_or_running {phase phase' : Phase} {trace : List Observation}
    (hsnd : PhaseSound bp t trace phase) (hleg : Legal bp t phase kind phase') :
    (t.status = .running ∧ kind.decides = none) ∨
      ∃ node actor note, phase = .parked node ∧ kind = .approvalGranted node actor note ∧
        phase' = .idle := by
  cases hleg with
  | prepares | iterates | closes | cascades | completes | aborts => exact .inl ⟨hsnd, rfl⟩
  | passes | starts | parks | enters | branches | refuses
  | updates | notifies | finishes | decides | skips | fails => exact .inl ⟨hsnd.1, rfl⟩
  | grants actor note => exact .inr ⟨_, actor, note, rfl, rfl, rfl⟩

theorem Legal.parked {phase : Phase}
    (hleg : Legal bp t phase kind (.parked node)) : kind = .awaitingApproval node := by
  cases hleg
  rfl

theorem follows_parks (read : ReadFloat) : Follows (ω := ω) read bp (fun _ => Parks hash bp)
    fun w => ∃ s, Decided hash bp w.dir s where
  sound h := h.sound
  normal h := by
    obtain ⟨s, hdecd, hagr⟩ := h.record
    exact RunState.normalizeLegacy_of_normal (hagr.normal hdecd.record.journal.normal)
  stops h := h.record.imp fun _ => And.left
  aside h htr hevs hcp hblue := by
    refine ⟨htr ▸ h.sound,
      h.record.imp fun _ hr => ⟨hr.1.congr hevs hcp hblue, hr.2⟩, fun node hnode => ?_⟩
    rw [RunDir.kinds, hevs]
    exact h.gate node hnode
  saves h := ⟨h.sound, h.record.imp fun _ hr => ⟨hr.1.save (agree_reread.2 hr.2), hr.2⟩, h.gate⟩
  emits {ps phase phase' s s' w kind ts} h hleg happ := by
    obtain ⟨s₀, hdecd, hagr⟩ := h.record
    have hopen := hleg.isTerminal h.sound
    have hends : s.status.isTerminal = true → (runEffect s.status kind).isTerminal = true :=
      fun hend => absurd (hopen.symm.trans hend) (by decide)
    have hlast : ∀ w₁ : World ω,
        w₁.dir.events = w.dir.events ++ [Event.reread read ⟨s.nextSeq, ts, kind⟩] →
        ∀ node, phase' = .parked node →
          w₁.dir.kinds.getLast? = some (.awaitingApproval node) := by
      rintro w₁ hevs node rfl
      rw [RunDir.kinds, hevs, map_append, hleg.parked]
      simp [Event.reread, EventKind.reread]
    have hmay : (∀ node, w.dir.kinds.getLast? = some (.awaitingApproval node) →
        kind.DecidesOn node) ∧ (∀ node, kind.decides = some node →
          w.dir.kinds.getLast? = some (.awaitingApproval node)) := by
      rcases hleg.grants_or_running h.sound with ⟨hrunn, hnone⟩ | ⟨gate, actor, note, rfl, rfl, -⟩
      · constructor
        · intro node hnode
          have hwait := hdecd.parked.2 ⟨node, hnode⟩
          rw [← hagr.status, hrunn] at hwait
          cases hwait
        · intro node hnode
          rw [hnone] at hnode
          cases hnode
      · have hgate := h.gate gate rfl
        refine ⟨fun node hnode => ?_, fun node hnode => ?_⟩
        · obtain rfl : gate = node := by
            have := hgate.symm.trans hnode
            simpa using this
          exact .inl rfl
        · obtain rfl := Option.some.inj hnode
          exact hgate
    obtain ⟨s', hagr', hlgd, hsvd⟩ :=
      hdecd.emit hagr read hleg.isStart hends hmay.1 hmay.2 happ
    exact ⟨⟨s', hlgd⟩, hleg.sound h.sound happ, ⟨s', hsvd, hagr'⟩, hlast _ rfl⟩
  dispatches h _ hrdy := ⟨⟨h.sound, hrdy.pending⟩, h.record, fun _ hph => by cases hph⟩
  plans h _ := ⟨h.sound, h.record, h.gate⟩
  sends h _ _ _ := ⟨h.sound, h.record, h.gate⟩

/-- A decided directory stays so while an ended run is driven. -/
theorem lingers_decided (read : ReadFloat) : Lingers (ω := ω) read bp
    (fun t w => t.status ≠ .awaitingApproval ∧ ∃ s, Decided hash bp w.dir s ∧ Agree s t)
    fun w => ∃ s, Decided hash bp w.dir s where
  normal h := by
    obtain ⟨-, s, hdecd, hagr⟩ := h
    exact RunState.normalizeLegacy_of_normal (hagr.normal hdecd.record.journal.normal)
  stops h := h.2.imp fun _ => And.left
  aside h _ hevs hcp hblue :=
    ⟨h.1, h.2.imp fun _ hr => ⟨hr.1.congr hevs hcp hblue, hr.2⟩⟩
  saves h := ⟨h.1, h.2.imp fun _ hr => ⟨hr.1.save (agree_reread.2 hr.2), hr.2⟩⟩
  plans h := h
  emits {s s' w kind ts} h hstat hlate happ := by
    obtain ⟨hwait, s₀, hdecd, hagr⟩ := h
    have hlast : ∀ node, w.dir.kinds.getLast? ≠ some (.awaitingApproval node) := by
      intro node hnode
      exact hwait (hagr.status.trans (hdecd.parked.2 ⟨node, hnode⟩))
    have hkind : kind.isStart = false ∧ kind.decides = none ∧
        (∀ status, status ≠ .awaitingApproval → runEffect status kind ≠ .awaitingApproval) ∧
        (s.status.isTerminal = true → (runEffect s.status kind).isTerminal = true) := by
      cases kind with
      | loopIteration | loopCompleted => exact ⟨rfl, rfl, fun _ h => h, id⟩
      | runCompleted | runFailed => exact ⟨rfl, rfl, fun _ _ => by simp [runEffect], fun _ => rfl⟩
      | _ => cases hlate
    obtain ⟨hstart, hnone, hlvs, hends⟩ := hkind
    obtain ⟨s', hagr', hlgd, hsvd⟩ := hdecd.emit hagr read hstart hends
      (fun node hnode => absurd hnode (hlast node))
      (fun node hnode => by rw [hnone] at hnode; cases hnode) happ
    refine ⟨⟨s', hlgd⟩, ?_, s', hsvd, hagr'⟩
    rw [status_apply happ]
    exact hlvs _ hwait

/-- Driving a run that is not parked keeps its directory decided. -/
theorem wp_drive_decided (hval : (validate bp).isValid = true) (fuel : Nat)
    (h : Decided hash bp w.dir s) (hagr : Agree s t) (hparked : t.status ≠ .awaitingApproval) :
    Wp (drive host bp fuel t) (fun _ w' => ∃ s, Decided hash bp w'.dir s)
      (fun _ w' => ∃ s, Decided hash bp w'.dir s) w := by
  by_cases hrunn : t.status = .running
  · have F : Follows host.readFloat bp (fun _ => Parks (ω := ω) hash bp) _ := follows_parks _
    have hparks : Parks hash bp .idle t w :=
      ⟨hrunn, ⟨s, h, hagr⟩, fun _ hph => by cases hph⟩
    have hfree : ∀ p ∈ ([] : List RunState), ¬Stuck bp p := by simp
    refine wp_mono (wp_drive (wellFormed_of_isValid hval) F fuel hfree hparks) ?_
      fun _ _ h => h
    rintro t' w' ⟨-, ⟨phase, h', -⟩, -⟩
    exact h'.record.imp fun _ => And.left
  · exact wp_mono (wp_drive_ended (lingers_decided host.readFloat) fuel ⟨hparked, s, h, hagr⟩ hrunn)
      (fun _ _ h' => h'.2.imp fun _ => And.left) fun _ _ h => h

/-! ### Operations -/

/-- The operations that clients call in any order: the decisions and the cancellation, and resuming or
driving on a run that is not parked. -/
def Deciding (bp : Blueprint) : Op → RunDir → Prop
  | .drive _, dir => ∀ t, loadedState bp dir = .ok t → t.status ≠ .awaitingApproval
  | .cancelAwaiting, _ | .markRunFailed _, _ => False
  | _, _ => True

/-- The directory has no run yet, or a decided one. -/
def KeptDecided (hash : String) (bp : Blueprint) (w : World ω) : Prop :=
  (w.dir.events = [] ∧ w.dir.checkpoint = none) ∨ ∃ s, Decided hash bp w.dir s

theorem lax_keptDecided : Lax (ω := ω) (KeptDecided hash bp) :=
  fun _ _ _ h => h.imp id fun hd => hd.imp fun _ hd => hd.congr rfl rfl rfl

/-- The event that a call of a client appends: its decision on the gate that is last in the log. -/
def Op.Decides (op : Op) (node : String) (kind : EventKind) : Prop :=
  match op with
  | .grant n actor note => n = node ∧ kind = .approvalGranted n actor note
  | .reject n actor note => n = node ∧ kind = .approvalRejected n actor note
  | .cancel => kind = .runFailed cancelledMessage
  | _ => False

/-- A call appends its decision on the gate that was last in the log, or it appends nothing. -/
def Appends (op : Op) (w w' : World ω) : Prop :=
  w'.dir.events = w.dir.events ∨ ∃ node kind ev,
    w.dir.kinds.getLast? = some (.awaitingApproval node) ∧ op.Decides node kind ∧
      ev.kind = kind ∧ w'.dir.events = w.dir.events ++ [ev]

/-- What a call comes to: it appends its decision or nothing, and a grant or a rejection that returns
has appended its decision. -/
def Outcome (op : Op) (w w' : World ω) (r : Except EngineError RunState) : Prop :=
  Appends op w w' ∧ ∀ node actor note,
    (op = .grant node actor note ∨ op = .reject node actor note) →
      w'.dir.events = w.dir.events → ∃ e, r = .error e

theorem latestAwaiting_of_getLast? {events : List Event}
    (h : (events.map (·.kind)).getLast? = some (.awaitingApproval node)) :
    latestAwaiting events = some node := by
  rw [← head?_reverse, ← map_reverse] at h
  unfold latestAwaiting
  cases hev : events.reverse with
  | nil =>
    rw [hev] at h
    cases h
  | cons ev rest =>
    rw [hev, map_cons, head?_cons, Option.some.injEq] at h
    rw [findSome?_cons, h]

theorem wp_emit_decision (op : Op) (h : Decided hash bp w.dir s) (hload : loadedState bp w.dir = .ok t)
    (hwait : t.status = .awaitingApproval) (hstart : kind.isStart = false)
    (hnode : w.dir.kinds.getLast? = some (.awaitingApproval node)) (hkind : kind.DecidesOn node)
    (hdeci : op.Decides node kind) {host' : ω} :
    Wp (emit host bp t kind)
      (fun _ w' => (∃ s, Decided hash bp w'.dir s) ∧ Appends op w w' ∧
        w'.dir.events ≠ w.dir.events)
      (fun _ w' => (∃ s, Decided hash bp w'.dir s) ∧ Appends op w w') { w with host := host' } := by
  have hagr := h.record.of_loadedState (faithful_agree bp) hload
  refine wp_emit (fun _ _ => ⟨⟨s, h⟩, .inl rfl⟩) fun t' ts host'' happ => ?_
  have h' : Decided hash bp ({ w with host := host'' } : World ω).dir s := h
  obtain ⟨s', -, hlgd, hsvd⟩ := h'.emit hagr host.readFloat hstart
    (fun hend => by rw [hwait] at hend; exact absurd hend (by decide))
    (fun n hn => by
      obtain rfl : node = n := by simpa using hnode.symm.trans hn
      exact hkind)
    (fun n hn => by
      rcases hkind with hk | rfl
      · obtain rfl : node = n := Option.some.inj (hk.symm.trans hn)
        exact hnode
      · cases hn) happ
  have hsame : kind.reread host.readFloat = kind := by
    rcases hkind with hk | rfl
    · cases kind <;> first | rfl | cases hk
    · rfl
  have happe : ∀ w' : World ω,
      w'.dir.events = w.dir.events ++ [Event.reread host.readFloat ⟨t.nextSeq, ts, kind⟩] →
      Appends op w w' :=
    fun w' hevs => .inr ⟨node, kind, _, hnode, hdeci, hsame, hevs⟩
  refine ⟨⟨⟨s', hlgd⟩, happe _ rfl⟩, ⟨s', hsvd⟩, happe _ rfl, fun hsame => ?_⟩
  have hlen := congrArg List.length hsame
  simp [World.logged, World.saved] at hlen

theorem Decided.gate (h : Decided hash bp dir s) (hload : loadedState bp dir = .ok t)
    (hwait : t.status = .awaitingApproval) : ∃ node, dir.kinds.getLast? = some (.awaitingApproval node) :=
  h.parked.1 ((h.record.of_loadedState (faithful_agree bp) hload).status.symm.trans hwait)

theorem wp_recordDecision_decided (op : Op) (h : KeptDecided hash bp w) (hkind : kind.decides = some node)
    (hdeci : op.Decides node kind) (hstart : kind.isStart = false) :
    Wp (recordDecision host bp node kind)
      (fun _ w' => KeptDecided hash bp w' ∧ Appends op w w' ∧ w'.dir.events ≠ w.dir.events)
      (fun _ w' => KeptDecided hash bp w' ∧ Appends op w w') w := by
  refine wp_recordDecision (fun _ host' => ⟨lax_keptDecided.ofHost h host', .inl rfl⟩) ?_
  intro t host' hload hwait _ hlat
  rcases h with ⟨hevs, hcp⟩ | ⟨s, h⟩
  · rw [loadedState_nil hevs hcp] at hload
    cases hload
  · obtain ⟨gate, hgate⟩ := h.gate hload hwait
    obtain rfl : gate = node :=
      Option.some.inj ((latestAwaiting_of_getLast? hgate).symm.trans hlat)
    exact wp_mono
      (wp_emit_decision op h hload hwait hstart hgate (.inl hkind) hdeci)
      (fun _ _ h => ⟨.inr h.1, h.2⟩) fun _ _ h => ⟨.inr h.1, h.2⟩

theorem wp_cancel_decided (h : KeptDecided hash bp w) :
    Wp (perform host bp .cancel) (fun _ w' => KeptDecided hash bp w' ∧ Appends .cancel w w')
      (fun _ w' => KeptDecided hash bp w' ∧ Appends .cancel w w') w := by
  refine wp_performCancel (P := fun w' => KeptDecided hash bp w' ∧ Appends .cancel w w') ?_
    ⟨h, .inl rfl⟩ ?_
  · exact fun w₁ host' marker h' => ⟨lax_keptDecided w₁ host' marker h'.1, h'.2⟩
  intro t host' hload hwait
  rcases h with ⟨hevs, hcp⟩ | ⟨s, h⟩
  · rw [loadedState_nil hevs hcp] at hload
    cases hload
  · obtain ⟨gate, hgate⟩ := h.gate hload hwait
    exact wp_mono
      (wp_emit_decision .cancel h hload hwait rfl hgate (.inr rfl) rfl)
      (fun _ _ h => ⟨.inr h.1, h.2.1⟩) fun _ _ h => ⟨.inr h.1, h.2⟩

theorem wp_perform_outcome (h : KeptDecided hash bp w) {op : Op} (hop : op.Decides node kind) :
    Wp (perform host bp op) (fun r w' => KeptDecided hash bp w' ∧ Outcome op w w' (.ok r))
      (fun e w' => KeptDecided hash bp w' ∧ Outcome op w w' (.error e)) w := by
  have hfail : ∀ e w', Appends op w w' → Outcome op w w' (.error e) :=
    fun e w' happe => ⟨happe, fun _ _ _ _ _ => ⟨e, rfl⟩⟩
  cases op with
  | grant n actor note =>
    refine wp_mono (wp_recordDecision_decided (.grant n actor note) h rfl ⟨rfl, rfl⟩ rfl)
      ?_ fun e w' h' => ⟨h'.1, hfail e w' h'.2⟩
    exact fun r w' h' => ⟨h'.1, h'.2.1, fun _ _ _ _ hsame => absurd hsame h'.2.2⟩
  | reject n actor note =>
    refine wp_mono (wp_recordDecision_decided (.reject n actor note) h rfl ⟨rfl, rfl⟩ rfl)
      ?_ fun e w' h' => ⟨h'.1, hfail e w' h'.2⟩
    exact fun r w' h' => ⟨h'.1, h'.2.1, fun _ _ _ _ hsame => absurd hsame h'.2.2⟩
  | cancel =>
    refine wp_mono (wp_cancel_decided h) ?_ fun e w' h' => ⟨h'.1, hfail e w' h'.2⟩
    refine fun r w' h' => ⟨h'.1, h'.2, fun n actor note hop => ?_⟩
    rcases hop with hop | hop <;> cases hop
  | drive | resume | cancelAwaiting | markRunFailed => exact absurd hop id

theorem wp_perform_decided (h : KeptDecided hash bp w) {op : Op} (hop : Deciding bp op w.dir) :
    Wp (perform host bp op) (fun _ => KeptDecided hash bp) (fun _ => KeptDecided hash bp) w := by
  have hdrive : ∀ fuel s t, (validate bp).isValid = true → Decided hash bp w.dir s → Agree s t →
      t.status ≠ .awaitingApproval →
      Wp (drive host bp fuel t) (fun _ => KeptDecided hash bp) (fun _ => KeptDecided hash bp) w :=
    fun fuel s t hval hd hagr hparked =>
      wp_mono (wp_drive_decided hval fuel hd hagr hparked) (fun _ _ h => .inr h)
        fun _ _ h => .inr h
  have hcall : ∀ node kind, op.Decides node kind →
      Wp (perform host bp op) (fun _ => KeptDecided hash bp) (fun _ => KeptDecided hash bp) w :=
    fun node kind hdeci => wp_mono (wp_perform_outcome h hdeci) (fun _ _ h => h.1)
      fun _ _ h => h.1
  have hdecd : ∀ t, loadedState bp w.dir = .ok t → ∃ s, Decided hash bp w.dir s := by
    intro t hload
    refine h.resolve_left fun hemp => ?_
    rw [loadedState_nil hemp.1 hemp.2] at hload
    cases hload
  cases op with
  | drive fuel =>
    refine wp_performDrive h fun t hval hload => ?_
    obtain ⟨s, hd⟩ := hdecd t hload
    exact hdrive fuel s t hval hd (hd.record.of_loadedState (faithful_agree bp) hload)
      (hop t hload)
  | resume fuel =>
    refine wp_performResume h fun t hval hload hwait => ?_
    obtain ⟨s, hd⟩ := hdecd t hload
    have hagr := agree_remarkInterrupted bp t
    exact hdrive fuel s _ hval hd
      ((hd.record.of_loadedState (faithful_agree bp) hload).trans hagr)
      (by rw [hagr.status]; exact hwait)
  | grant node actor note | reject node actor note => exact hcall node _ ⟨rfl, rfl⟩
  | cancel => exact hcall "" _ rfl
  | cancelAwaiting | markRunFailed => exact absurd hop id

theorem decided_of_began {runId : String} {trigger : Value} (h : Began host bp runId trigger s w)
    (hcp : ∀ c, w.dir.checkpoint = some c → c = s.reread host.readFloat) :
    Decided (host.blueprintHash bp) bp w.dir (s.reread host.readFloat) := by
  have hrec := h.recorded (faithful_agree bp) hcp
  obtain ⟨ts, happ, hevs⟩ := h.first
  have hks : w.dir.kinds = [startKind host bp runId (trigger.reread host.readFloat)] := by
    rw [RunDir.kinds, hevs]
    rfl
  refine ⟨hrec, ?_, ?_⟩
  · rw [hks]
    constructor
    · intro i node kind hi
      cases i with
      | zero | succ i => cases hi
    · intro i node kind hi hkind
      cases i with
      | zero =>
        obtain rfl := Option.some.inj hi
        cases hkind
      | succ i => cases hi
  · change s.status = _ ↔ _
    rw [hks, status_apply happ]
    constructor
    · intro hwait
      cases hwait
    · rintro ⟨node, hnode⟩
      cases hnode

theorem wp_startWithId_decided {fuel : Nat} {runId : String} {trigger : Value}
    (h : Unstarted w) : Wp (startWithId host bp fuel runId trigger)
      (fun _ => KeptDecided (host.blueprintHash bp) bp)
      (fun _ => KeptDecided (host.blueprintHash bp) bp) w := by
  unfold startWithId
  rw [wp_bind]
  refine wp_initializeWithId h (fun e w' h => .inl ⟨h.events, h.checkpoint⟩) ?_ ?_
  · intro s' w' hbegan hcp
    exact .inr ⟨_, decided_of_began hbegan fun c hc => by rw [hcp] at hc; cases hc⟩
  · intro s' w' hbegan hcp
    have hdecd := decided_of_began hbegan fun c hc => Option.some.inj (hc.symm.trans hcp)
    unfold driveFromState
    rw [wp_bind]
    refine wp_ofExcept_of (fun _ _ => ?_) fun _ _ => .inr ⟨_, hdecd⟩
    rw [wp_bind]
    refine wp_ofExcept_of (fun _ _ => ?_) fun _ _ => .inr ⟨_, hdecd⟩
    obtain ⟨ts, happ, -⟩ := hbegan.first
    refine wp_mono (wp_drive_decided hbegan.valid fuel hdecd (agree_reread.1 (Agree.refl _)) ?_)
      (fun _ _ h => .inr h) fun _ _ h => .inr h
    rw [status_apply happ]
    exact fun h => by cases h

theorem History.keptDecided (h : History host bp (Deciding bp) w) :
    KeptDecided (host.blueprintHash bp) bp w := by
  refine h.inv ?_ ?_ fun w op hkept hop => wp_perform_decided hkept hop
  · exact fun w fuel runId trigger hemp => wp_startWithId_decided hemp
  · intro w w₁ hkept hbtw
    rcases hkept with ⟨hevs, hcp⟩ | ⟨s, hd⟩
    · exact .inl ⟨hbtw.events.trans hevs, hbtw.checkpoint.trans hcp⟩
    · exact .inr ⟨s, hd.congr hbtw.events hbtw.checkpoint hbtw.blueprint⟩

/-- In every log that clients reach, the event after a gate is the decision on it, and grants and
rejections come nowhere else.  A call of a client appends its decision on the gate that is last in the
log, or nothing; a grant or a rejection that appends nothing returns an error. -/
theorem History.decisions (h : History host bp (Deciding bp) w) :
    SingleDecisions w.dir.kinds ∧ ∀ op node kind, op.Decides node kind →
      Outcome op w (perform host bp op w).2 (perform host bp op w).1 := by
  have hkept := h.keptDecided
  constructor
  · rcases hkept with ⟨hevs, -⟩ | ⟨s, hd⟩
    · rw [RunDir.kinds, hevs]
      exact ⟨fun _ _ _ hi => by simp at hi, fun _ _ _ hi => by simp at hi⟩
    · exact hd.single
  · intro op node kind hop
    have hwp : Wp (perform host bp op) _ _ w := wp_perform_outcome hkept hop
    cases hcall : perform host bp op w with
    | mk r w' =>
      cases r with
      | ok t => exact (hwp.of_ok hcall).2
      | error e => exact (hwp.of_error hcall).2

/-! ### Histories of a gate -/

/-- The operator has left a marker. -/
def World.marked (w : World (List Bool)) : World (List Bool) :=
  { w with host := [], dir := { w.dir with cancelMarker := true } }

theorem between_marked (w : World (List Bool)) : Between w w.marked := ⟨rfl, rfl, rfl, rfl⟩

/-- The operator cancels after a grant, and the driver finds the marker. -/
@[irreducible] def cancelledAfterGrant : World (List Bool) :=
  (perform quietHost gateAfterTrigger (.drive 9)
    (afterRestart parkedWorld (.grant "gate" "operator" none)).marked).2

theorem history_cancelledAfterGrant :
    History quietHost gateAfterTrigger (Deciding gateAfterTrigger) cancelledAfterGrant := by
  unfold cancelledAfterGrant
  refine (history_afterRestart (history_parkedWorld _) trivial).step _ (between_marked _) ?_
  intro t hload hwait
  have hstat : (loadedState gateAfterTrigger (afterRestart parkedWorld
      (.grant "gate" "operator" none)).marked.dir).toOption.map RunState.status =
      some .running := by decide +kernel
  rw [hload] at hstat
  exact absurd (hwait.symm.trans (Option.some.inj hstat)) (by decide)

/-- Between a gate and the next one there is at most one decision, where every cancellation counts
as one. -/
def AtMostOneDecision (log : List EventKind) : Prop :=
  ∀ i j k node a b, log[i]? = some (.awaitingApproval node) → i < j → j < k →
    (∀ l < log.length, i < l → ∀ n, log[l]? ≠ some (.awaitingApproval n)) →
    log[j]? = some a → log[k]? = some b →
    (a.decides.isSome ∨ a = .runFailed cancelledMessage) →
    ¬(b.decides.isSome ∨ b = .runFailed cancelledMessage)

/-- After a grant that crashed, another grant is refused. -/
theorem decisions_crashedGrant : SingleDecisions crashedGrant.dir.kinds ∧
    ∃ e, (perform quietHost gateAfterTrigger (.grant "gate" "other" none) crashedGrant).1 =
      .error e := by
  obtain ⟨hsngl, hcalls⟩ :=
    History.decisions (history_crashedGrant (Deciding gateAfterTrigger) trivial)
  refine ⟨hsngl, ?_⟩
  have hevs : (perform quietHost gateAfterTrigger (.grant "gate" "other" none)
      crashedGrant).2.dir.events = crashedGrant.dir.events := by decide +kernel
  exact (hcalls (.grant "gate" "other" none) "gate" _ ⟨rfl, rfl⟩).2 _ _ _ (.inl rfl) hevs

/-- A grant and a cancellation may both follow one gate: the driver consumes the marker of the
operator after the grant. -/
theorem granted_and_cancelled : (validate gateAfterTrigger).isValid = true ∧
    History quietHost gateAfterTrigger (Deciding gateAfterTrigger) cancelledAfterGrant ∧
    ¬AtMostOneDecision cancelledAfterGrant.dir.kinds := by
  refine ⟨by decide, history_cancelledAfterGrant, fun hone => ?_⟩
  have hgate : cancelledAfterGrant.dir.kinds[2]? = some (.awaitingApproval "gate") := by
    decide +kernel
  have hgrant : cancelledAfterGrant.dir.kinds[3]? =
      some (.approvalGranted "gate" "operator" none) := by decide +kernel
  have hcancel : cancelledAfterGrant.dir.kinds[4]? = some (.runFailed cancelledMessage) := by
    decide +kernel
  have hlen : cancelledAfterGrant.dir.kinds.length = 5 := by decide +kernel
  refine hone 2 3 4 _ _ _ hgate (by omega) (by omega) (fun l hl hgt n hn => ?_) hgrant hcancel
    (.inl rfl) (.inr rfl)
  rcases (by omega : l = 3 ∨ l = 4) with rfl | rfl
  · rw [hgrant] at hn
    cases hn
  · rw [hcancel] at hn
    cases hn

end Wardian.Engine
