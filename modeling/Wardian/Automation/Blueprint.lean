/-
Blueprints: the graphs that automations are written as.

A node carries its authored fields; `parent` names the loop whose body it is in.  The markdown body
of a blueprint is documentation only and is left out.
-/

import Wardian.Json

set_option autoImplicit false

namespace Wardian.Automation

open List

/-- The position of a node on the canvas; stored and never interpreted. -/
structure Position where
  x : Number
  y : Number
  deriving DecidableEq

/-- A node of the graph. -/
structure Node where
  id : String
  type : String
  name : Option String := none
  parent : Option String := none
  fields : JsonMap := []
  position : Option Position := none
  deriving DecidableEq

/-- An edge from an output port to an input port. -/
structure Edge where
  fromNode : String
  toNode : String
  fromPort : String := "out"
  toPort : String := "in"
  deriving DecidableEq

/-- A blueprint. -/
structure Blueprint where
  schema : Nat := 2
  id : String
  name : String
  nodes : List Node
  edges : List Edge
  deriving DecidableEq

namespace Blueprint

/-- The first node with this id. -/
def findNode (bp : Blueprint) (id : String) : Option Node := bp.nodes.find? fun n => n.id == id

variable {bp : Blueprint}

theorem findNode_some {id : String} {n : Node} (h : bp.findNode id = some n) : n ∈ bp.nodes ∧ n.id = id :=
  ⟨mem_of_find?_eq_some h, by simpa using find?_some h⟩

/-- With distinct ids, looking up the id of a node finds that node. -/
theorem findNode_of_mem (hndp : (bp.nodes.map (·.id)).Nodup) {n : Node}
    (hn : n ∈ bp.nodes) : bp.findNode n.id = some n := by
  unfold findNode
  induction hnds : bp.nodes generalizing bp with
  | nil => rw [hnds] at hn; simp at hn
  | cons m rest ih =>
    rw [hnds] at hn hndp
    rw [map_cons, nodup_cons] at hndp
    rcases mem_cons.1 hn with rfl | hn
    · simp
    · have hne : m.id ≠ n.id := fun he => hndp.1 (he ▸ mem_map_of_mem hn)
      rw [find?_cons_of_neg (by simpa using hne)]
      exact @ih { bp with nodes := rest } hndp.2 hn rfl

end Blueprint

end Wardian.Automation
