/-
Reading and writing the run directory.

A write either happens completely or not at all; when it fails, the program stops and the files
written before it stay.  A crash between two writes is such a failure.  The files hold JSON text, and
the directory of the model holds what reading them gives, so a write leaves what its text reads as.

Main results:

* `Engine.wp_persist`, `Engine.wp_ask` — the rules for a write and for a question to the host.
-/

import Wardian.Engine.Executor

set_option autoImplicit false

namespace Wardian.Engine

open Automation (Blueprint)

variable {ω α : Type}

/-- Ask the host. -/
def ask (question : ω → α × ω) : EngineProg ω α := fun w =>
  (.ok (question w.host).1, { w with host := (question w.host).2 })

/-- Call the executor; its error is a value here. -/
def callExecutor (call : Prog ω StepError α) : EngineProg ω (Except StepError α) := fun w =>
  (.ok (call w.host).1, { w with host := (call w.host).2 })

/-- Write to the run directory, unless the write fails. -/
def persist (host : Host ω) (write : RunDir → RunDir) : EngineProg ω Unit := do
  if ← ask host.writeFails then Prog.fail .io
  else Prog.modify fun w => { w with dir := write w.dir }

/-- Note an observation. -/
def observe (o : Observation) : EngineProg ω Unit :=
  Prog.modify fun w => { w with trace := o :: w.trace }

/-- Append one event to the log. -/
def appendEvent (host : Host ω) (ev : Event) : EngineProg ω Unit :=
  persist host fun dir => { dir with events := dir.events ++ [ev.reread host.readFloat] }

/-- All events, in order. -/
def readEvents : EngineProg ω (List Event) := do
  return (← Prog.get).dir.events

/-- Replace the checkpoint. -/
def writeCheckpoint (host : Host ω) (state : RunState) : EngineProg ω Unit :=
  persist host fun dir => { dir with checkpoint := some (state.reread host.readFloat) }

/-- The checkpoint, when there is one. -/
def readCheckpoint : EngineProg ω (Option RunState) := do
  return (← Prog.get).dir.checkpoint.map RunState.normalizeLegacy

/-- Keep the blueprint of the run; one that is there must be the same. -/
def writeBlueprintSnapshot (host : Host ω) (blueprint : Blueprint) : EngineProg ω Unit := do
  match (← Prog.get).dir.blueprint with
  | some existing =>
    if existing ≠ blueprint then
      Prog.fail (.invalidState "automation blueprint snapshot already exists and differs")
    else return
  | none => persist host fun dir => { dir with blueprint := some blueprint }

/-- Whether cancellation has been requested.  The operator may leave the marker at any time before
it is read. -/
def cancellationRequested (host : Host ω) : EngineProg ω Bool := do
  if ← ask host.operatorCancels then
    Prog.modify fun w => { w with dir := { w.dir with cancelMarker := true } }
  return (← Prog.get).dir.cancelMarker

/-- Remove the cancellation marker. -/
def clearCancellationRequest (host : Host ω) : EngineProg ω Unit :=
  persist host fun dir => { dir with cancelMarker := false }

/-! ### Rules -/

variable {Q : α → World ω → Prop} {R : EngineError → World ω → Prop} {w : World ω}

theorem wp_ask {question : ω → α × ω} (h : ∀ a host', Q a { w with host := host' }) :
    Prog.Wp (ask question) Q R w := h _ _

theorem wp_callExecutor {Q : Except StepError α → World ω → Prop} {call : Prog ω StepError α}
    (h : ∀ r host', Q r { w with host := host' }) : Prog.Wp (callExecutor call) Q R w := h _ _

/-- A write either stops the program with the directory as it was, or happens. -/
theorem wp_persist {host : Host ω} {write : RunDir → RunDir} {Q : Unit → World ω → Prop}
    (hfail : ∀ host', R .io { w with host := host' })
    (hok : ∀ host', Q () { w with host := host', dir := write w.dir }) :
    Prog.Wp (persist host write) Q R w := by
  unfold persist
  rw [Prog.wp_bind]
  refine wp_ask fun fails host' => Prog.wp_ite (fun _ => ?_) (fun _ => ?_)
  · exact hfail host'
  · exact hok host'

theorem wp_cancellationRequested {host : Host ω} {Q : Bool → World ω → Prop}
    (h : ∀ host' marker, (w.dir.cancelMarker = true → marker = true) →
      Q marker { w with host := host', dir := { w.dir with cancelMarker := marker } }) :
    Prog.Wp (cancellationRequested host) Q R w := by
  unfold cancellationRequested
  rw [Prog.wp_bind]
  refine wp_ask fun cancels host' => ?_
  cases cancels with
  | true => exact h host' true fun _ => rfl
  | false => exact h host' w.dir.cancelMarker id

end Wardian.Engine
