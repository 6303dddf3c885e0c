/-
The pairs of a topology, and how its operations change them.

A topology is, for what it decides, three lists of pairs: the linked, the ignored and the suppressed
ones.  Five small steps change them, and every operation of the topology is a sequence of such
steps.  A pair is linked by a step only when it is not suppressed or when it may be linked anyway.

Main results:

* `Topology.Pairs.Canonical.step`, `Topology.Pairs.Deleted.step` — what a step keeps;
* `Topology.steps_seedTeamClique`, `Topology.steps_suppressMissingTeamSeedPairs`,
  `Topology.steps_applyTopologyOperation` — **refinement**: the operations are sequences of steps;
* `Topology.canonical_canonicalize`, `Topology.mem_canonicalize` — canonicalizing makes the pairs
  canonical and only reorders pairs that are.
-/

import Mathlib.Data.List.Nodup
import Wardian.Topology.Topology

set_option autoImplicit false

namespace Wardian.Topology

open List

/-! ### Canonical pairs -/

theorem trimmed_trimmed (s : String) : trimmed (trimmed s) = trimmed s := by
  simp [trimmed, Text.trim_trim]

/-- A pair in canonical form. -/
def IsCanonical (p : String × String) : Prop := canonicalPair p.1 p.2 = some p

theorem isCanonical_of_canonicalPair {x y : String} {p : String × String}
    (h : canonicalPair x y = some p) : IsCanonical p := by
  unfold canonicalPair at h
  dsimp only at h
  split at h
  · cases h
  rename_i hval
  simp only [not_or] at hval
  obtain ⟨hx, hy, hne⟩ := hval
  split at h
  · rename_i hlt
    obtain rfl := Option.some.inj h
    simp [IsCanonical, canonicalPair, trimmed_trimmed, hx, hy, hne, hlt]
  · rename_i hnlt
    obtain rfl := Option.some.inj h
    have hlt : trimmed y < trimmed x := lt_of_le_of_ne (not_lt.1 hnlt) (Ne.symm hne)
    simp [IsCanonical, canonicalPair, trimmed_trimmed, hx, hy, Ne.symm hne, hlt]

/-! ### The small steps -/

/-- The linked, the ignored and the suppressed pairs. -/
structure Pairs where
  linked : List (String × String)
  ignored : List (String × String)
  suppressed : List (String × String)

/-- Put a pair behind the others, unless it is there. -/
def insertNew (p : String × String) (ps : List (String × String)) : List (String × String) :=
  if p ∈ ps then ps else ps ++ [p]

/-- Take a pair out. -/
def remove (p : String × String) (ps : List (String × String)) : List (String × String) :=
  ps.filter fun q => decide (q ≠ p)

variable {ps : List (String × String)}

theorem insertNew_of_mem {p : String × String} (h : p ∈ ps) : insertNew p ps = ps := if_pos h

theorem insertNew_of_notMem {p : String × String} (h : p ∉ ps) : insertNew p ps = ps ++ [p] := if_neg h

variable {q : String × String}

@[simp] theorem mem_insertNew {p : String × String} : q ∈ insertNew p ps ↔ q ∈ ps ∨ q = p := by
  unfold insertNew
  split
  · rename_i hp
    exact ⟨.inl, fun h => h.elim id fun heq => heq ▸ hp⟩
  · simp

@[simp] theorem mem_remove {p : String × String} : q ∈ remove p ps ↔ q ∈ ps ∧ q ≠ p := by
  simp [remove]

theorem nodup_insertNew {p : String × String} (h : ps.Nodup) : (insertNew p ps).Nodup := by
  unfold insertNew
  split
  · exact h
  · rename_i hp
    exact nodup_append.2 ⟨h, nodup_singleton p, fun q hq r hr heq =>
      hp (mem_singleton.1 hr ▸ heq ▸ hq)⟩

theorem nodup_remove {p : String × String} (h : ps.Nodup) : (remove p ps).Nodup := h.filter _

/-- One change; `may p` says that the pair may be linked although it is suppressed. -/
inductive Pairs.Step (may : String × String → Prop) (s : Pairs) : Pairs → Prop
  | link (p : String × String) : IsCanonical p → (p ∉ s.suppressed ∨ may p) →
      Step may s { s with linked := insertNew p s.linked, suppressed := remove p s.suppressed }
  | unlink (p : String × String) : Step may s { s with linked := remove p s.linked }
  | suppress (p : String × String) : IsCanonical p → p ∉ s.linked →
      Step may s { s with suppressed := insertNew p s.suppressed }
  | ignore (p : String × String) : IsCanonical p →
      Step may s { s with ignored := insertNew p s.ignored }
  | unignore (p : String × String) : Step may s { s with ignored := remove p s.ignored }

/-- A sequence of changes. -/
abbrev Pairs.Steps (may : String × String → Prop) : Pairs → Pairs → Prop :=
  Relation.ReflTransGen (Pairs.Step may)

/-- A list of canonical pairs, each once. -/
structure Tidy (ps : List (String × String)) : Prop where
  canonical : ∀ p ∈ ps, IsCanonical p
  nodup : ps.Nodup

/-- Canonical pairs, each once. -/
structure Pairs.Canonical (s : Pairs) : Prop where
  linked : Tidy s.linked
  ignored : Tidy s.ignored
  suppressed : Tidy s.suppressed

/-- No pair is both linked and suppressed. -/
def Pairs.Apart (s : Pairs) : Prop := ∀ p ∈ s.linked, p ∉ s.suppressed

/-- Canonical pairs, each once, and none both linked and suppressed. -/
def Pairs.Sound (s : Pairs) : Prop := s.Canonical ∧ s.Apart

/-- The pair is suppressed and not linked. -/
def Pairs.Deleted (p : String × String) (s : Pairs) : Prop := p ∈ s.suppressed ∧ p ∉ s.linked

theorem Tidy.insertNew {p : String × String} (h : Tidy ps) (hp : IsCanonical p) : Tidy (insertNew p ps) where
  canonical q hq := (mem_insertNew.1 hq).elim (h.canonical q) fun heq => heq ▸ hp
  nodup := nodup_insertNew h.nodup

theorem Tidy.remove {p : String × String} (h : Tidy ps) :
    Tidy (remove p ps) where
  canonical q hq := h.canonical q (mem_remove.1 hq).1
  nodup := nodup_remove h.nodup

theorem Tidy.perm {qs : List (String × String)} (h : Tidy ps) (hperm : qs.Perm ps) :
    Tidy qs where
  canonical q hq := h.canonical q (hperm.mem_iff.1 hq)
  nodup := hperm.nodup_iff.2 h.nodup

variable {may : String × String → Prop} {s s' : Pairs} {p : String × String}

theorem Pairs.Canonical.step (h : s.Canonical) (hstep : Step may s s') : s'.Canonical := by
  cases hstep with
  | link p hp _ => exact ⟨h.linked.insertNew hp, h.ignored, h.suppressed.remove⟩
  | unlink p => exact ⟨h.linked.remove, h.ignored, h.suppressed⟩
  | suppress p hp _ => exact ⟨h.linked, h.ignored, h.suppressed.insertNew hp⟩
  | ignore p hp => exact ⟨h.linked, h.ignored.insertNew hp, h.suppressed⟩
  | unignore p => exact ⟨h.linked, h.ignored.remove, h.suppressed⟩

/-- Linking a pair ends its suppression, and only missing pairs are suppressed. -/
theorem Pairs.Apart.step (h : s.Apart) (hstep : Step may s s') : s'.Apart := by
  intro q hlnk hsupp
  cases hstep with
  | link p _ _ =>
    obtain ⟨hq, hne⟩ := mem_remove.1 hsupp
    exact (mem_insertNew.1 hlnk).elim (fun hl => h q hl hq) hne
  | unlink p => exact h q (mem_remove.1 hlnk).1 hsupp
  | suppress p _ hp =>
    exact (mem_insertNew.1 hsupp).elim (h q hlnk) fun heq => hp (heq ▸ hlnk)
  | ignore p _ | unignore p => exact h q hlnk hsupp

theorem Pairs.Deleted.step (h : s.Deleted p) (hmay : ¬may p) (hstep : Step may s s') : s'.Deleted p := by
  obtain ⟨hsupp, hlnk⟩ := h
  cases hstep with
  | link q _ hq =>
    have hne : p ≠ q := by
      rintro rfl
      exact hq.elim (fun hnot => hnot hsupp) hmay
    exact ⟨mem_remove.2 ⟨hsupp, hne⟩, fun hmem =>
      (mem_insertNew.1 hmem).elim hlnk hne⟩
  | unlink q => exact ⟨hsupp, fun hmem => hlnk (mem_remove.1 hmem).1⟩
  | suppress q _ _ => exact ⟨mem_insertNew.2 (.inl hsupp), hlnk⟩
  | ignore q _ | unignore q => exact ⟨hsupp, hlnk⟩

theorem Pairs.Canonical.steps (h : s.Canonical) (hsteps : Steps may s s') : s'.Canonical := by
  induction hsteps with
  | refl => exact h
  | tail _ hstep ih => exact ih.step hstep

theorem Pairs.Apart.steps (h : s.Apart) (hsteps : Steps may s s') : s'.Apart := by
  induction hsteps with
  | refl => exact h
  | tail _ hstep ih => exact ih.step hstep

theorem Pairs.Deleted.steps (h : s.Deleted p) (hmay : ¬may p) (hsteps : Steps may s s') : s'.Deleted p := by
  induction hsteps with
  | refl => exact h
  | tail _ hstep ih => exact ih.step hmay hstep

/-! ### The pairs of a topology -/

/-- The three lists of a topology. -/
def Graph.pairs (topology : Graph) : Pairs where
  linked := topology.edges.map TopologyEdge.ends
  ignored := topology.ignoredPairs.map IgnoredPair.ends
  suppressed := topology.suppressedSeedPairs.map IgnoredPair.ends

variable {topology : Graph} {x y createdAt : String}

theorem hasEdge_iff : topology.hasEdge p.1 p.2 = true ↔ p ∈ topology.pairs.linked := by
  simp [Graph.hasEdge, Graph.pairs, TopologyEdge.ends, Prod.ext_iff]

theorem hasPair_iff {pairs : List IgnoredPair} :
    hasPair pairs p.1 p.2 = true ↔ p ∈ pairs.map IgnoredPair.ends := by
  simp [hasPair, IgnoredPair.ends, Prod.ext_iff]

theorem ends_withoutPair {pairs : List IgnoredPair} :
    (withoutPair pairs p.1 p.2).map IgnoredPair.ends = remove p (pairs.map IgnoredPair.ends) := by
  rw [remove, withoutPair, filter_map]
  congr 1
  refine filter_congr fun pair _ => ?_
  by_cases h₁ : pair.a = p.1 <;> by_cases h₂ : pair.b = p.2 <;>
    simp [IgnoredPair.ends, Prod.ext_iff, h₁, h₂]

theorem ends_withoutEdge {edges : List TopologyEdge} :
    (edges.filter fun edge => !(edge.a == p.1 && edge.b == p.2)).map TopologyEdge.ends =
      remove p (edges.map TopologyEdge.ends) := by
  rw [remove, filter_map]
  congr 1
  refine filter_congr fun edge _ => ?_
  by_cases h₁ : edge.a = p.1 <;> by_cases h₂ : edge.b = p.2 <;>
    simp [TopologyEdge.ends, Prod.ext_iff, h₁, h₂]

theorem pairs_addEdge (h : canonicalPair x y = some p) :
    (topology.addEdge x y createdAt).1.pairs =
      { topology.pairs with
        linked := insertNew p topology.pairs.linked
        suppressed := remove p topology.pairs.suppressed } := by
  have hsupp := @ends_withoutPair p topology.suppressedSeedPairs
  unfold Graph.addEdge
  rw [h]
  dsimp only
  split
  · rename_i hedge
    have hmem : p ∈ topology.pairs.linked := hasEdge_iff.1 hedge
    rw [insertNew_of_mem hmem]
    simp only [Graph.pairs, hsupp]
  · rename_i hedge
    have hmem : p ∉ topology.pairs.linked := fun hmem => hedge (hasEdge_iff.2 hmem)
    rw [insertNew_of_notMem hmem]
    simp only [Graph.pairs, hsupp, map_append]
    rfl

theorem pairs_removeEdge (h : canonicalPair x y = some p) :
    (topology.removeEdge x y).1.pairs =
      { topology.pairs with linked := remove p topology.pairs.linked } := by
  simp only [Graph.removeEdge, h, Graph.pairs, ends_withoutEdge]

theorem pairs_suppressSeedPair (h : canonicalPair x y = some p) :
    (topology.suppressSeedPair x y).1.pairs =
      { topology.pairs with suppressed := insertNew p topology.pairs.suppressed } := by
  unfold Graph.suppressSeedPair
  rw [h]
  dsimp only
  split
  · rename_i hpair
    have hmem : p ∈ topology.pairs.suppressed := hasPair_iff.1 hpair
    rw [insertNew_of_mem hmem]
  · rename_i hpair
    have hmem : p ∉ topology.pairs.suppressed := fun hmem => hpair (hasPair_iff.2 hmem)
    rw [insertNew_of_notMem hmem]
    simp [Graph.pairs, IgnoredPair.ends]

theorem pairs_ignorePair (h : canonicalPair x y = some p) :
    (topology.ignorePair x y).1.pairs =
      { topology.pairs with ignored := insertNew p topology.pairs.ignored } := by
  unfold Graph.ignorePair
  rw [h]
  dsimp only
  split
  · rename_i hpair
    have hmem : p ∈ topology.pairs.ignored := hasPair_iff.1 hpair
    rw [insertNew_of_mem hmem]
  · rename_i hpair
    have hmem : p ∉ topology.pairs.ignored := fun hmem => hpair (hasPair_iff.2 hmem)
    rw [insertNew_of_notMem hmem]
    simp [Graph.pairs, IgnoredPair.ends]

theorem pairs_unignorePair (h : canonicalPair x y = some p) :
    (topology.unignorePair x y).1.pairs =
      { topology.pairs with ignored := remove p topology.pairs.ignored } := by
  simp only [Graph.unignorePair, h, Graph.pairs, ends_withoutPair]

/-! ### The operations as sequences of steps -/

open Relation

/-- A fold of operations that are sequences of steps is a sequence of steps. -/
theorem steps_foldl {α : Type} {f : Graph × Nat → α → Graph × Nat}
    (hf : ∀ state a, Pairs.Steps may state.1.pairs (f state a).1.pairs) (xs : List α)
    (state : Graph × Nat) : Pairs.Steps may state.1.pairs (xs.foldl f state).1.pairs := by
  induction xs generalizing state with
  | nil => exact .refl
  | cons a xs ih => exact (hf state a).trans (ih _)

theorem isSeedSuppressed_iff (h : canonicalPair x y = some p) :
    topology.isSeedSuppressed x y = true ↔ p ∈ topology.pairs.suppressed := by
  simp only [Graph.isSeedSuppressed, h]
  exact hasPair_iff

theorem steps_seedTeamClique (members : List String) :
    Pairs.Steps may topology.pairs (seedTeamClique topology members createdAt).1.pairs := by
  refine steps_foldl (fun state a => ?_) (pairsOf members) (topology, 0)
  obtain ⟨current, added⟩ := state
  obtain ⟨x, y⟩ := a
  dsimp only
  split
  · exact .refl
  rename_i hsupp
  cases h : canonicalPair x y with
  | none => simpa [Graph.addEdge, h] using .refl
  | some p =>
    refine .single ?_
    rw [pairs_addEdge h]
    exact .link p (isCanonical_of_canonicalPair h)
      (.inl fun hmem => hsupp ((isSeedSuppressed_iff h).2 hmem))

theorem steps_suppressMissingTeamSeedPairs (teams : List TeamMembership) :
    Pairs.Steps may topology.pairs (suppressMissingTeamSeedPairs topology teams).1.pairs := by
  refine steps_foldl (fun state a => ?_) _ (topology, 0)
  obtain ⟨current, added⟩ := state
  obtain ⟨x, y⟩ := a
  dsimp only
  cases h : canonicalPair x y with
  | none => simpa [Graph.suppressSeedPair, h] using .refl
  | some p =>
    dsimp only
    split
    · exact .refl
    rename_i hedge
    refine .single ?_
    rw [pairs_suppressSeedPair h]
    exact .suppress p (isCanonical_of_canonicalPair h) fun hmem => hedge (hasEdge_iff.2 hmem)

variable {teams : List TeamMembership}

/-- A deletion is a step, and a suppression when a team contains the pair. -/
theorem pairs_removeEdgeAndSuppress (h : canonicalPair x y = some p) :
    Pairs.Steps may topology.pairs
      (topology.removeEdgeAndSuppressSeedIfTeamPair x y teams).1.pairs := by
  have hcan := isCanonical_of_canonicalPair h
  have hunlink : Pairs.Step may topology.pairs (topology.removeEdge p.1 p.2).1.pairs := by
    rw [pairs_removeEdge hcan]
    exact .unlink p
  unfold Graph.removeEdgeAndSuppressSeedIfTeamPair
  rw [h]
  dsimp only
  split
  · refine .tail (.single hunlink) ?_
    rw [pairs_suppressSeedPair hcan]
    refine .suppress p hcan fun hmem => ?_
    rw [pairs_removeEdge hcan] at hmem
    exact (mem_remove.1 hmem).2 rfl
  · exact .single hunlink

/-- The operations of the operator; only linking links a suppressed pair. -/
theorem steps_applyTopologyOperation {op : TopologyOperation}
    (hmay : ∀ p, op = .link → canonicalPair x y = some p → may p) :
    Pairs.Steps may topology.pairs
      (applyTopologyOperation topology op x y createdAt teams).1.pairs := by
  unfold applyTopologyOperation
  cases h : canonicalPair x y with
  | none => exact .refl
  | some p =>
    have hcan := isCanonical_of_canonicalPair h
    cases op with
    | link =>
      have hstep : Pairs.Step may topology.pairs
          (topology.addEdge p.1 p.2 createdAt).1.pairs := by
        rw [pairs_addEdge hcan]
        exact .link p hcan (.inr (hmay p rfl h))
      exact .single hstep
    | unlink => exact pairs_removeEdgeAndSuppress hcan
    | ignore =>
      have hstep : Pairs.Step may topology.pairs (topology.ignorePair p.1 p.2).1.pairs := by
        rw [pairs_ignorePair hcan]
        exact .ignore p hcan
      exact .single hstep
    | unignore =>
      have hstep : Pairs.Step may topology.pairs (topology.unignorePair p.1 p.2).1.pairs := by
        rw [pairs_unignorePair hcan]
        exact .unignore p
      exact .single hstep

/-! ### Canonicalizing -/

section

variable {α : Type} {ends : α → String × String} {rebuild : α → String × String → α}

theorem mem_canonicalEntries (hrebu : ∀ entry p, ends (rebuild entry p) = p)
    {seen : List (String × String)} {entries : List α} :
    p ∈ (canonicalEntries ends rebuild seen entries).map ends ↔
      p ∉ seen ∧ ∃ entry ∈ entries, canonicalPair (ends entry).1 (ends entry).2 = some p := by
  induction entries generalizing seen with
  | nil => simp [canonicalEntries]
  | cons entry entries ih =>
    unfold canonicalEntries
    cases h : canonicalPair (ends entry).1 (ends entry).2 with
    | none => simp [ih, h]
    | some q =>
      dsimp only
      split
      · rename_i hseen
        have hq : q ∈ seen := by simpa using hseen
        rw [ih]
        simp only [mem_cons, exists_eq_or_imp, h, Option.some.injEq]
        constructor
        · exact fun hp => ⟨hp.1, .inr hp.2⟩
        · rintro ⟨hp, rfl | hrest⟩
          · exact absurd hq hp
          · exact ⟨hp, hrest⟩
      · rename_i hseen
        have hq : q ∉ seen := by simpa using hseen
        simp only [map_cons, mem_cons, hrebu, ih, not_or, exists_eq_or_imp, h,
          Option.some.injEq]
        by_cases hpq : p = q
        · subst hpq
          simp [hq]
        · simp [hpq, Ne.symm hpq]

theorem tidy_canonicalEntries (hrebu : ∀ entry p, ends (rebuild entry p) = p)
    (seen : List (String × String)) (entries : List α) :
    Tidy ((canonicalEntries ends rebuild seen entries).map ends) where
  canonical p hp := by
    obtain ⟨-, entry, -, h⟩ := (mem_canonicalEntries hrebu).1 hp
    exact isCanonical_of_canonicalPair h
  nodup := by
    induction entries generalizing seen with
    | nil => exact nodup_nil
    | cons entry entries ih =>
      unfold canonicalEntries
      split
      · exact ih seen
      · rename_i q _
        split
        · exact ih seen
        · rw [map_cons, hrebu]
          refine nodup_cons.2 ⟨fun hmem => ?_, ih _⟩
          exact ((mem_canonicalEntries hrebu).1 hmem).1 mem_cons_self

/-- A tidy list is its own canonical form. -/
theorem canonicalEntries_of_tidy (hsame : ∀ entry, rebuild entry (ends entry) = entry)
    {seen : List (String × String)} {entries : List α} (h : Tidy (entries.map ends))
    (hnew : ∀ p ∈ entries.map ends, p ∉ seen) : canonicalEntries ends rebuild seen entries = entries := by
  induction entries generalizing seen with
  | nil => rfl
  | cons entry entries ih =>
    rw [map_cons] at h hnew
    obtain ⟨hfst, hrest⟩ := nodup_cons.1 h.nodup
    have hpair : canonicalPair (ends entry).1 (ends entry).2 = some (ends entry) :=
      h.canonical _ mem_cons_self
    have hnot : seen.contains (ends entry) = false := by
      simpa using hnew _ mem_cons_self
    unfold canonicalEntries
    rw [hpair]
    dsimp only
    rw [hnot, if_neg Bool.false_ne_true, hsame]
    refine congrArg (entry :: ·) (ih ⟨fun p hp => h.canonical p (mem_cons_of_mem _ hp), hrest⟩ ?_)
    intro p hp hseen
    rcases mem_cons.1 hseen with rfl | hseen
    · exact hfst hp
    · exact hnew p (mem_cons_of_mem _ hp) hseen

end

theorem perm_canonicalEdges {edges : List TopologyEdge} (h : Tidy (edges.map TopologyEdge.ends)) :
    (canonicalEdges edges).Perm edges := by
  unfold canonicalEdges
  rw [canonicalEntries_of_tidy (fun _ => rfl) h fun _ _ => not_mem_nil]
  exact mergeSort_perm _ _

theorem perm_canonicalPairs {pairs : List IgnoredPair} (h : Tidy (pairs.map IgnoredPair.ends)) :
    (canonicalPairs pairs).Perm pairs := by
  unfold canonicalPairs
  rw [canonicalEntries_of_tidy (fun _ => rfl) h fun _ _ => not_mem_nil]
  exact mergeSort_perm _ _

theorem tidy_canonicalEdges (edges : List TopologyEdge) :
    Tidy ((canonicalEdges edges).map TopologyEdge.ends) :=
  (tidy_canonicalEntries (fun _ _ => rfl) [] edges).perm ((mergeSort_perm _ _).map _)

theorem tidy_canonicalPairs (pairs : List IgnoredPair) : Tidy ((canonicalPairs pairs).map IgnoredPair.ends) :=
  (tidy_canonicalEntries (fun _ _ => rfl) [] pairs).perm ((mergeSort_perm _ _).map _)

/-- Whatever the topology, canonicalizing makes its pairs canonical. -/
theorem canonical_canonicalize (topology : Graph) : (canonicalize topology).pairs.Canonical where
  linked := tidy_canonicalEdges _
  ignored := tidy_canonicalPairs _
  suppressed := tidy_canonicalPairs _

theorem mem_canonicalize (h : topology.pairs.Canonical) :
    (p ∈ (canonicalize topology).pairs.linked ↔ p ∈ topology.pairs.linked) ∧
      (p ∈ (canonicalize topology).pairs.suppressed ↔ p ∈ topology.pairs.suppressed) :=
  ⟨((perm_canonicalEdges h.linked).map _).mem_iff,
    ((perm_canonicalPairs h.suppressed).map _).mem_iff⟩

theorem Pairs.Apart.canonicalize (hcan : topology.pairs.Canonical)
    (h : topology.pairs.Apart) : (canonicalize topology).pairs.Apart :=
  fun _ hlnk hsupp => h _ ((mem_canonicalize hcan).1.1 hlnk)
    ((mem_canonicalize hcan).2.1 hsupp)

theorem Pairs.Deleted.canonicalize (hcan : topology.pairs.Canonical)
    (h : topology.pairs.Deleted p) : (canonicalize topology).pairs.Deleted p :=
  ⟨(mem_canonicalize hcan).2.2 h.1,
    fun hlnk => h.2 ((mem_canonicalize hcan).1.1 hlnk)⟩

/-- One topology but for the order of its lists. -/
structure SameTopology (left right : Graph) : Prop where
  edges : left.edges.Perm right.edges
  ignoredPairs : left.ignoredPairs.Perm right.ignoredPairs
  suppressedSeedPairs : left.suppressedSeedPairs.Perm right.suppressedSeedPairs

theorem sameTopology_canonicalize {topology : Graph} (h : topology.pairs.Canonical) :
    SameTopology (canonicalize topology) topology :=
  ⟨perm_canonicalEdges h.linked, perm_canonicalPairs h.ignored, perm_canonicalPairs h.suppressed⟩

end Wardian.Topology
