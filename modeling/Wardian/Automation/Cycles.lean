/-
The check for cycles is exact.

The stack of the algorithm is filled from a hash map, in any order, and what is visited depends on the order;
whether all nodes are visited does not.  Edges count with their multiplicity, and an edge with an end that is
not declared does not count at all.

Main results:

* `Automation.hasCycleFrom_iff` — the check fails exactly where the declared edges have a cycle.
-/

import Wardian.Automation.WellFormed

set_option autoImplicit false

namespace Wardian.Automation

open List

/-- An edge between declared nodes. -/
def Joined (bp : Blueprint) (u v : String) : Prop :=
  ∃ e ∈ bp.edges, e.fromNode = u ∧ e.toNode = v ∧ (∃ nd ∈ bp.nodes, nd.id = u) ∧ ∃ nd ∈ bp.nodes, nd.id = v

theorem mem_declaredEdges {bp : Blueprint} {e : String × String} : e ∈ declaredEdges bp ↔ Joined bp e.1 e.2 := by
  have hids : ∀ id, (bp.nodes.map (·.id)).contains id = true ↔ ∃ nd ∈ bp.nodes, nd.id = id := fun id => by
    rw [contains_iff_mem, mem_map]
  unfold declaredEdges Joined
  rw [mem_map]
  constructor
  · rintro ⟨edge, hedge, rfl⟩
    obtain ⟨hmem, hends⟩ := mem_filter.1 hedge
    obtain ⟨hfrom, hto⟩ := Bool.and_eq_true_iff.1 hends
    exact ⟨edge, hmem, rfl, rfl, (hids _).1 hfrom, (hids _).1 hto⟩
  · rintro ⟨edge, hmem, hfrom, hto, hdecl, hdecl'⟩
    refine ⟨edge, mem_filter.2 ⟨hmem, Bool.and_eq_true_iff.2 ⟨?_, ?_⟩⟩, Prod.ext hfrom hto⟩
    · exact (hids _).2 (hfrom ▸ hdecl)
    · exact (hids _).2 (hto ▸ hdecl')

/-- Whatever the order of the first stack, the check fails exactly where the declared edges have a cycle. -/
theorem hasCycleFrom_iff (bp : Blueprint) (hndp : (bp.nodes.map (·.id)).Nodup) (ready : List String)
    (hrdy : ready.Perm (entryVertices bp)) :
    hasCycleFrom bp ready = true ↔ ∃ id, Relation.TransGen (Joined bp) id id := by
  have hent : ∀ id, id ∈ ready ↔
      id ∈ bp.nodes.map (·.id) ∧ Kahn.pending (declaredEdges bp) [] id = 0 := by
    intro id
    unfold entryVertices at hrdy
    rw [hrdy.mem_iff, mem_filter, mem_dedup, decide_eq_true_iff]
  have hdecl : ∀ e ∈ declaredEdges bp, e.1 ∈ bp.nodes.map (·.id) ∧ e.2 ∈ bp.nodes.map (·.id) := by
    intro e he
    obtain ⟨-, -, -, -, hfrom, hto⟩ := mem_declaredEdges.1 he
    exact ⟨mem_map.2 hfrom, mem_map.2 hto⟩
  have hall := Kahn.visits_all_iff hndp (hrdy.nodup_iff.2 (entryVertices_spec bp).1) hent hdecl
  have hsame : Kahn.Edge (declaredEdges bp) = Joined bp := by
    funext u v
    exact propext mem_declaredEdges
  unfold hasCycleFrom
  rw [length_map, hsame] at hall
  rw [bne_iff_ne]
  exact (not_congr hall).trans not_not

/-- Two nodes with an edge each way, one of them twice, and an edge to a node that is not there. -/
def backEdge : Blueprint where
  id := "back"
  name := "back"
  nodes := [{ id := "start", type := "manual_trigger" }, { id := "first", type := "join" },
    { id := "second", type := "join" }]
  edges := [{ fromNode := "start", toNode := "first" }, { fromNode := "first", toNode := "second" },
    { fromNode := "first", toNode := "second" }, { fromNode := "second", toNode := "first" },
    { fromNode := "second", toNode := "gone" }]

theorem hasCycleFrom_backEdge :
    hasCycleFrom backEdge ["start"] = true ∧ ∃ id, Relation.TransGen (Joined backEdge) id id := by
  have hcycle : hasCycleFrom backEdge ["start"] = true := by decide
  have hrdy : ["start"].Perm (entryVertices backEdge) := by
    have hent : entryVertices backEdge = ["start"] := by decide
    rw [hent]
  exact ⟨hcycle, (hasCycleFrom_iff backEdge (by decide) ["start"] hrdy).1 hcycle⟩

end Wardian.Automation
