/-
Kahn's algorithm on a finite directed graph.

The algorithm counts the edges into each vertex, visits a vertex whose count is zero, and takes the
edges out of it off the counts of their targets.  The vertices wait in a stack.  If it visits every
vertex, the order of the visits is a topological order, so the graph has no cycle; if it misses some,
each of them has an edge from another one, so the graph has one.

Main results:

* `Kahn.Inv.visit`, `Kahn.Inv.run` — a visit, and the whole loop, keep the invariant;
* `Kahn.exists_rank` — if every vertex is visited, the vertices have a rank that grows along every
  edge;
* `Kahn.visits_all_iff` — every vertex is visited exactly when there is no cycle.
-/

import Mathlib.Data.Set.Finite.Basic
import Mathlib.Order.WellFounded

set_option autoImplicit false

namespace Kahn

open List

section Graph

variable {V : Type}

/-- There is an edge from one vertex to the other. -/
def Edge (edges : List (V × V)) (u v : V) : Prop := (u, v) ∈ edges

/-- A graph in which every vertex of a nonempty set has an edge from one of the set has a cycle. -/
theorem exists_cycle {edges : List (V × V)} {missed : List V} (hne : missed ≠ [])
    (hpred : ∀ v ∈ missed, ∃ u ∈ missed, Edge edges u v) : ∃ v, Relation.TransGen (Edge edges) v v := by
  by_contra hnone
  let r : {v // v ∈ missed} → {v // v ∈ missed} → Prop := fun u v => Relation.TransGen (Edge edges) u v
  have hfinite : Finite {v // v ∈ missed} := (finite_toSet missed).to_subtype
  have htrans : IsTrans _ r := ⟨fun _ _ _ huv hvw => huv.trans hvw⟩
  have hirrefl : Std.Irrefl r := ⟨fun v hv => hnone ⟨v, hv⟩⟩
  have hwf : WellFounded r := Finite.wellFounded_of_trans_of_irrefl r
  obtain ⟨v, hv⟩ := exists_mem_of_ne_nil _ hne
  obtain ⟨least, -, hleast⟩ := hwf.has_min Set.univ ⟨⟨v, hv⟩, trivial⟩
  obtain ⟨u, hu, hedge⟩ := hpred least least.2
  exact hleast ⟨u, hu⟩ trivial (.single hedge)

end Graph

variable {V : Type} [DecidableEq V]

/-- The state of the loop. -/
structure State (V : Type) where
  /-- The edges into each vertex that have not been taken off yet. -/
  indegree : V → Nat
  /-- The stack of vertices to visit, its top first. -/
  ready : List V
  /-- The vertices visited, the latest first. -/
  visited : List V

/-- The targets of the edges out of `n`. -/
def children (edges : List (V × V)) (n : V) : List V :=
  (edges.filter fun e => e.1 = n).map Prod.snd

/-- Take one edge into `c` off its count, and make `c` ready when none is left. -/
def relax (s : State V) (c : V) : State V :=
  let d := s.indegree c - 1
  { s with
    indegree := fun v => if v = c then d else s.indegree v
    ready := if d = 0 then c :: s.ready else s.ready }

/-- Visit a vertex. -/
def visit (edges : List (V × V)) (n : V) (s : State V) : State V :=
  (children edges n).foldl relax { s with visited := n :: s.visited }

/-- Visit ready vertices until the stack is empty, at most `fuel` of them. -/
def run (edges : List (V × V)) : Nat → State V → State V
  | 0, s => s
  | fuel + 1, s =>
    match s.ready with
    | [] => s
    | n :: rest => run edges fuel (visit edges n { s with ready := rest })

/-- The number of edges into `v` from vertices that are not in `done`. -/
def pending (edges : List (V × V)) (done : List V) (v : V) : Nat :=
  edges.countP fun e => e.2 = v ∧ e.1 ∉ done

/-- The start: every count is the number of edges into the vertex, and `ready` is the stack. -/
def start (edges : List (V × V)) (ready : List V) : State V :=
  { indegree := pending edges [], ready := ready, visited := [] }

/-! ### The invariant -/

/-- The invariant of the loop, with `cs` the targets of the current visit that still have to be
taken off. -/
structure Inv (edges : List (V × V)) (cs : List V) (s : State V) : Prop where
  /-- A count is the number of edges from unvisited vertices, and those still to be taken off. -/
  count : ∀ v, s.indegree v = pending edges s.visited v + cs.count v
  /-- Ready and visited vertices have no edge left. -/
  zero : ∀ v ∈ s.ready ++ s.visited, s.indegree v = 0
  /-- No vertex becomes ready twice. -/
  nodup : (s.ready ++ s.visited).Nodup
  /-- Where a visited vertex has an edge from `u`, `u` was visited before it. -/
  before : ∀ later v earlier, s.visited = later ++ v :: earlier →
    ∀ e ∈ edges, e.2 = v → e.1 ∈ earlier

/-- Visiting one more vertex takes exactly the edges out of it off the pending ones. -/
theorem pending_cons (edges : List (V × V)) (done : List V) (n v : V) (hn : n ∉ done) :
    pending edges done v = pending edges (n :: done) v + (children edges n).count v := by
  induction edges with
  | nil => rfl
  | cons e edges ih =>
    unfold pending children at ih ⊢
    rw [countP_cons, countP_cons, ih, filter_cons]
    by_cases h₁ : e.1 = n
    · subst h₁
      by_cases h₂ : e.2 = v
      · simp [h₂, hn]
        omega
      · simp [h₂]
    · by_cases h₂ : e.2 = v
      · by_cases h₃ : e.1 ∈ done
        · simp [h₁, h₂, h₃]
        · simp [h₁, h₂, h₃]
          omega
      · simp [h₁, h₂]

variable {edges : List (V × V)} {s : State V}

theorem Inv.relax {c : V} {cs : List V} (h : Inv edges (c :: cs) s) : Inv edges cs (relax s c) := by
  have hpos : 0 < s.indegree c := by
    rw [h.count c, count_cons_self]
    omega
  have hc : c ∉ s.ready ++ s.visited := by
    intro hmem
    have := h.zero c hmem
    omega
  have hcnt : ∀ v, (Kahn.relax s c).indegree v =
      pending edges s.visited v + cs.count v := by
    intro v
    simp only [Kahn.relax]
    split
    · subst v
      have := h.count c
      rw [count_cons_self] at this
      omega
    · rename_i hne
      rw [h.count v, count_cons_of_ne (Ne.symm hne)]
  have hvis : (Kahn.relax s c).visited = s.visited := rfl
  refine ⟨fun v => by rw [hvis]; exact hcnt v, ?_, ?_, h.before⟩
  · intro v hv
    simp only [Kahn.relax] at hv ⊢
    split
    · subst v
      by_contra hne
      simp only [if_neg hne] at hv
      exact hc hv
    · rename_i hne
      refine h.zero v ?_
      split at hv
      · simpa [hne] using hv
      · exact hv
  · simp only [Kahn.relax]
    split
    · exact nodup_cons.2 ⟨hc, h.nodup⟩
    · exact h.nodup

theorem Inv.foldl_relax :
    ∀ (cs : List V) {s : State V}, Inv edges cs s → Inv edges [] (cs.foldl Kahn.relax s) := by
  intro cs
  induction cs with
  | nil => intro s h; exact h
  | cons c cs ih => intro s h; exact ih h.relax

theorem Inv.visit {n : V} {rest : List V} (hrdy : s.ready = n :: rest) (h : Inv edges [] s) :
    Inv edges [] (visit edges n { s with ready := rest }) := by
  have hndp := h.nodup
  rw [hrdy] at hndp
  have hn : n ∉ s.visited := fun hmem =>
    (nodup_cons.1 hndp).1 (mem_append_right _ hmem)
  refine Inv.foldl_relax _ ⟨?_, ?_, ?_, ?_⟩
  · intro v
    have := h.count v
    rw [count_nil, Nat.add_zero, pending_cons edges s.visited n v hn] at this
    exact this
  · intro v hv
    refine h.zero v ?_
    rw [hrdy]
    simp only [mem_append, mem_cons] at hv ⊢
    tauto
  · have hperm : (n :: rest ++ s.visited).Perm (rest ++ n :: s.visited) :=
      perm_middle.symm
    exact hperm.nodup_iff.1 hndp
  · intro later v earlier hspl e he hev
    cases later with
    | nil =>
      -- the vertex being visited has no pending edge, so all its predecessors are visited
      simp only [nil_append, List.cons.injEq] at hspl
      obtain ⟨rfl, rfl⟩ := hspl
      have hzero : s.indegree n = 0 := h.zero n (by rw [hrdy]; simp)
      rw [h.count n, count_nil, Nat.add_zero, pending, countP_eq_zero] at hzero
      have := hzero e he
      simpa [hev] using this
    | cons w later =>
      simp only [cons_append, List.cons.injEq] at hspl
      exact h.before later v earlier hspl.2 e he hev

theorem Inv.run {edges : List (V × V)} :
    ∀ (fuel : Nat) {s : State V}, Inv edges [] s → Inv edges [] (run edges fuel s) := by
  intro fuel
  induction fuel with
  | zero => intro s h; exact h
  | succ fuel ih =>
    intro s h
    rw [Kahn.run]
    split
    · exact h
    · rename_i n rest hrdy
      exact ih (Inv.visit hrdy h)

variable {ready : List V}

theorem Inv.start (hndp : ready.Nodup)
    (hzero : ∀ v ∈ ready, pending edges [] v = 0) : Inv edges [] (start edges ready) where
  count := fun v => by simp [Kahn.start]
  zero := fun v hv => hzero v (by simpa [Kahn.start] using hv)
  nodup := by simpa [Kahn.start] using hndp
  before := fun later v earlier h => by simp [Kahn.start] at h

/-! ### Only vertices are visited -/

variable {P : V → Prop}

theorem relax_subset {c : V} (hc : P c) (h : ∀ v ∈ s.ready ++ s.visited, P v) :
    ∀ v ∈ (relax s c).ready ++ (relax s c).visited, P v := by
  intro v hv
  simp only [relax] at hv
  split at hv
  · rcases mem_cons.1 hv with rfl | hv
    · exact hc
    · exact h v hv
  · exact h v hv

theorem run_subset (hedges : ∀ e ∈ edges, P e.2) :
    ∀ (fuel : Nat) {s : State V}, (∀ v ∈ s.ready ++ s.visited, P v) →
      ∀ v ∈ (run edges fuel s).ready ++ (run edges fuel s).visited, P v := by
  have hchil : ∀ n, ∀ c ∈ children edges n, P c := by
    intro n c hc
    obtain ⟨e, he, rfl⟩ := mem_map.1 hc
    exact hedges e (mem_of_mem_filter he)
  have hfold : ∀ (cs : List V) {s : State V}, (∀ c ∈ cs, P c) →
      (∀ v ∈ s.ready ++ s.visited, P v) →
      ∀ v ∈ (cs.foldl relax s).ready ++ (cs.foldl relax s).visited, P v := by
    intro cs
    induction cs with
    | nil => intro s _ h; exact h
    | cons c cs ih =>
      intro s hcs h
      exact ih (fun c' hc' => hcs c' (mem_cons_of_mem _ hc'))
        (relax_subset (hcs c mem_cons_self) h)
  intro fuel
  induction fuel with
  | zero => intro s h; exact h
  | succ fuel ih =>
    intro s h
    rw [run]
    split
    · exact h
    · rename_i n rest hrdy
      rw [hrdy] at h
      refine ih (hfold _ (hchil n) fun v hv => h v ?_)
      simp only [mem_append, mem_cons] at hv ⊢
      tauto

/-! ### Visiting everything gives a topological order -/

variable {verts : List V}

/-- If every vertex is visited, some rank grows along every edge. -/
theorem exists_rank {fuel : Nat} (hrdy : ready.Nodup) (hzero : ∀ v ∈ ready, pending edges [] v = 0)
    (hsub : ∀ v ∈ ready, v ∈ verts) (hedges : ∀ e ∈ edges, e.2 ∈ verts)
    (hall : (run edges fuel (start edges ready)).visited.length = verts.length) :
    ∃ rank : V → Nat, ∀ e ∈ edges, rank e.1 < rank e.2 := by
  set s := run edges fuel (start edges ready) with hs
  have hinv : Inv edges [] s := Inv.run fuel (Inv.start hrdy hzero)
  have hndp : s.visited.Nodup := (nodup_append.1 hinv.nodup).2.1
  have hverts : ∀ v ∈ s.visited, v ∈ verts := fun v hv =>
    run_subset (P := (· ∈ verts)) hedges fuel (fun v hv => hsub v (by simpa [start] using hv)) v
      (mem_append_right _ hv)
  have hperm : s.visited.Perm verts :=
    (hndp.subperm hverts).perm_of_length_le (by omega)
  refine ⟨fun v => s.visited.reverse.idxOf v, fun e he => ?_⟩
  have hmem : e.2 ∈ s.visited := hperm.mem_iff.2 (hedges e he)
  obtain ⟨later, earlier, hspl⟩ := append_of_mem hmem
  have hpred : e.1 ∈ earlier := hinv.before later e.2 earlier hspl e he rfl
  have hnot : e.2 ∉ earlier := by
    rw [hspl] at hndp
    exact (nodup_cons.1 (nodup_append.1 hndp).2.1).1
  simp only [hspl, reverse_append, reverse_cons, append_assoc]
  rw [idxOf_append_of_mem (mem_reverse.2 hpred),
    idxOf_append_of_notMem (by simpa using hnot)]
  have := idxOf_lt_length_iff.2 (mem_reverse.2 hpred)
  omega

/-! ### What stops the loop is a cycle -/

/-- A vertex on which no edge is left is ready or visited. -/
def Complete (verts : List V) (s : State V) : Prop :=
  ∀ v ∈ verts, s.indegree v = 0 → v ∈ s.ready ++ s.visited

theorem Complete.relax (h : Complete verts s) (c : V) : Complete verts (relax s c) := by
  intro v hv hzero
  simp only [Kahn.relax] at hzero ⊢
  split at hzero
  · rename_i hc
    rw [if_pos hzero, hc]
    exact mem_cons_self
  · split
    · exact mem_cons_of_mem _ (h v hv hzero)
    · exact h v hv hzero

theorem Complete.foldl_relax (cs : List V) (h : Complete verts s) :
    Complete verts (cs.foldl Kahn.relax s) := by
  induction cs generalizing s with
  | nil => exact h
  | cons c cs ih => exact ih (h.relax c)

theorem Complete.run {verts : List V} (edges : List (V × V)) (fuel : Nat) {s : State V} (h : Complete verts s) :
    Complete verts (run edges fuel s) := by
  induction fuel generalizing s with
  | zero => exact h
  | succ fuel ih =>
    rw [Kahn.run]
    split
    · exact h
    · rename_i n rest hrdy
      refine ih (Complete.foldl_relax _ fun v hv hzero => ?_)
      have hmem := h v hv hzero
      rw [hrdy] at hmem
      simp only [mem_append, mem_cons] at hmem ⊢
      tauto

theorem visited_visit (edges : List (V × V)) (n : V) (s : State V) :
    (visit edges n s).visited = n :: s.visited := by
  have hfold : ∀ (cs : List V) (s : State V), (cs.foldl relax s).visited = s.visited := by
    intro cs
    induction cs with
    | nil => exact fun s => rfl
    | cons c cs ih => exact fun s => ih (relax s c)
  exact hfold _ _

/-- The loop stops when nothing is ready, or after as many visits as it may make. -/
theorem run_stops (edges : List (V × V)) (fuel : Nat) (s : State V) :
    (run edges fuel s).ready = [] ∨ (run edges fuel s).visited.length = s.visited.length + fuel := by
  induction fuel generalizing s with
  | zero => exact .inr rfl
  | succ fuel ih =>
    rw [run]
    split
    · rename_i hrdy
      exact .inl hrdy
    · refine (ih _).imp id fun hlen => ?_
      rw [hlen, visited_visit, length_cons, Nat.succ_add]
      rfl

theorem visits_all_iff (hverts : verts.Nodup)
    (hrdy : ready.Nodup) (hent : ∀ v, v ∈ ready ↔ v ∈ verts ∧ pending edges [] v = 0)
    (hedges : ∀ e ∈ edges, e.1 ∈ verts ∧ e.2 ∈ verts) :
    (run edges verts.length (start edges ready)).visited.length = verts.length ↔
      ¬∃ v, Relation.TransGen (Edge edges) v v := by
  constructor
  · rintro hall ⟨v, hcycle⟩
    obtain ⟨rank, hrank⟩ := exists_rank hrdy (fun v hv => ((hent v).1 hv).2)
      (fun v hv => ((hent v).1 hv).1) (fun e he => (hedges e he).2) hall
    have hgrows : ∀ u w, Relation.TransGen (Edge edges) u w → rank u < rank w := by
      intro u w h
      induction h with
      | single hedge => exact hrank _ hedge
      | tail _ hedge ih => exact ih.trans (hrank _ hedge)
    exact Nat.lt_irrefl _ (hgrows v v hcycle)
  · intro hacyc
    obtain ⟨s, hs⟩ : ∃ s, s = run edges verts.length (start edges ready) := ⟨_, rfl⟩
    have hinv : Inv edges [] s := hs ▸ Inv.run _ (Inv.start hrdy fun v hv => ((hent v).1 hv).2)
    have hcompl : Complete verts s := by
      rw [hs]
      refine Complete.run edges _ fun v hv hzero => mem_append_left _ ?_
      exact (hent v).2 ⟨hv, hzero⟩
    have hsub : ∀ v ∈ s.ready ++ s.visited, v ∈ verts := by
      rw [hs]
      refine run_subset (P := (· ∈ verts)) (fun e he => (hedges e he).2) _ fun v hv => ?_
      exact ((hent v).1 (by simpa [start] using hv)).1
    rw [← hs]
    rcases hs ▸ run_stops edges verts.length (start edges ready) with hemp | hlen
    · -- a vertex that is missed has an edge from another one
      by_contra hmissed
      have hndp : s.visited.Nodup := (nodup_append.1 hinv.nodup).2.1
      have hsome : verts.filter (· ∉ s.visited) ≠ [] := by
        intro hnil
        have hin : ∀ v ∈ verts, v ∈ s.visited := by
          intro v hv
          by_contra hnot
          exact filter_eq_nil_iff.1 hnil v hv (decide_eq_true hnot)
        refine hmissed (Nat.le_antisymm ?_ (hverts.subperm hin).length_le)
        exact (hndp.subperm fun v hv => hsub v (mem_append_right _ hv)).length_le
      refine hacyc (exists_cycle hsome fun v hv => ?_)
      obtain ⟨hin, hnot⟩ := mem_filter.1 hv
      have hnot := of_decide_eq_true hnot
      have hpos : 0 < pending edges s.visited v := by
        refine Nat.pos_of_ne_zero fun hzero => hnot ?_
        have hmem := hcompl v hin (by rw [hinv.count v, hzero, count_nil])
        rwa [hemp, nil_append] at hmem
      obtain ⟨e, he, hcond⟩ := countP_pos_iff.1 hpos
      obtain ⟨rfl, hpre⟩ := of_decide_eq_true hcond
      exact ⟨e.1, mem_filter.2 ⟨(hedges e he).1, decide_eq_true hpre⟩, he⟩
    · rw [hlen]
      exact Nat.zero_add _

end Kahn
