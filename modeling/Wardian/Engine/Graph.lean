/-
Adjacency over the edges of a blueprint, addressed by their index.

Main results:

* `Engine.mem_inbound`, `Engine.mem_outbound`, `Engine.mem_bodyNodes`.
-/

import Wardian.Automation.Blueprint

set_option autoImplicit false

namespace Wardian.Engine

open Automation (Blueprint Edge Node)

/-- The indices of the edges into a node. -/
def inbound (bp : Blueprint) (node : String) : List Nat :=
  (bp.edges.zipIdx.filter fun p => p.1.toNode == node).map Prod.snd

/-- The indices of the edges out of a node, from any port. -/
def outbound (bp : Blueprint) (node : String) : List Nat :=
  (bp.edges.zipIdx.filter fun p => p.1.fromNode == node).map Prod.snd

/-- The nodes in the body of a loop. -/
def bodyNodes (bp : Blueprint) (loopId : String) : List String :=
  (bp.nodes.filter fun nd => nd.parent == some loopId).map (·.id)

variable {i : Nat}

theorem mem_zipIdx_filter {α : Type} {xs : List α} {p : α → Bool} :
    i ∈ (xs.zipIdx.filter fun q => p q.1).map Prod.snd ↔
      ∃ x, xs[i]? = some x ∧ p x = true := by
  simp only [List.mem_map, List.mem_filter, List.mem_zipIdx_iff_getElem?]
  constructor
  · rintro ⟨⟨x, j⟩, ⟨hx, hp⟩, rfl⟩
    exact ⟨x, hx, hp⟩
  · rintro ⟨x, hx, hp⟩
    exact ⟨(x, i), ⟨hx, hp⟩, rfl⟩

variable {bp : Blueprint}

theorem mem_inbound {node : String} : i ∈ inbound bp node ↔ ∃ e, bp.edges[i]? = some e ∧ e.toNode = node := by
  rw [inbound, mem_zipIdx_filter (p := fun e : Edge => e.toNode == node)]
  simp only [beq_iff_eq]

theorem mem_outbound {node : String} :
    i ∈ outbound bp node ↔ ∃ e, bp.edges[i]? = some e ∧ e.fromNode = node := by
  rw [outbound, mem_zipIdx_filter (p := fun e : Edge => e.fromNode == node)]
  simp only [beq_iff_eq]

theorem mem_bodyNodes {loopId id : String} :
    id ∈ bodyNodes bp loopId ↔ ∃ nd ∈ bp.nodes, nd.parent = some loopId ∧ nd.id = id := by
  simp only [bodyNodes, List.mem_map, List.mem_filter, beq_iff_eq, and_assoc]

end Wardian.Engine
