/-
Deleted team edges stay deleted.

A home holds a topology in memory and what was last saved of it.  Teams seed edges and suppress
missing ones, the operator applies operations, and the topology is saved and loaded again.

Main results:

* `Topology.Reached.canonical`, `Topology.Reached.apart` — what holds of every reached topology;
* `Topology.Reached.load_save` — what is saved is what is loaded;
* `Topology.AfterDeletion.keeps_deleted` — a deleted pair stays deleted;
* `Topology.deletions_last` — **both together**;
* `Topology.loaded_linked_and_suppressed` — a file may link a pair that it suppresses.
-/

import Wardian.Topology.Pairs

set_option autoImplicit false

namespace Wardian.Topology

/-- A topology in memory, and what the file decodes to, if it does. -/
structure Home where
  memory : Graph
  file : Option Graph

/-- What happens to a home.  A save that fails leaves the file as it is, and a load that cannot read it
finds nothing. -/
inductive Action
  | seed (memberUuids : List String) (createdAt : String)
  | suppressMissing (teams : List TeamMembership)
  | apply (op : TopologyOperation) (x y createdAt : String) (teams : List TeamMembership)
  | save (fails : Bool)
  | load (fails : Bool)

def Home.act (home : Home) : Action → Home
  | .seed members createdAt =>
    { home with memory := (seedTeamClique home.memory members createdAt).1 }
  | .suppressMissing teams =>
    { home with memory := (suppressMissingTeamSeedPairs home.memory teams).1 }
  | .apply op x y createdAt teams =>
    { home with memory := (applyTopologyOperation home.memory op x y createdAt teams).1 }
  | .save fails => if fails then home else { home with file := some (saveTopology home.memory) }
  | .load fails => { home with memory := loadTopology (if fails then none else home.file) }

/-- The homes reached after the topology is loaded from a file. -/
inductive Reached (file : Option Graph) : Home → Prop
  | loaded : Reached file ⟨loadTopology file, file⟩
  | act {home : Home} (action : Action) : Reached file home → Reached file (home.act action)

/-- The action links the pair. -/
def Action.Links (p : String × String) : Action → Prop
  | .apply op x y _ _ => op = .link ∧ canonicalPair x y = some p
  | _ => False

/-- What may follow a deletion of the pair: anything but a link of it, a load before the first save and
a load that cannot read the file.  The flag says whether the home has been saved since. -/
inductive AfterDeletion (p : String × String) (start : Home) : Bool → Home → Prop
  | deleted : AfterDeletion p start false start
  | saved {since : Bool} {home : Home} :
      AfterDeletion p start since home → AfterDeletion p start true (home.act (.save false))
  | loaded {home : Home} :
      AfterDeletion p start true home → AfterDeletion p start true (home.act (.load false))
  | act {since : Bool} {home : Home} (action : Action) :
      AfterDeletion p start since home → ¬action.Links p → (∀ fails, action ≠ .load fails) →
      AfterDeletion p start since (home.act action)

variable {file : Option Graph} {home home' : Home} {p : String × String}

/-! ### Every reached topology -/

theorem steps_act (home : Home) (may : String × String → Prop) {action : Action}
    (hload : ∀ fails, action ≠ .load fails) (hmay : ∀ p, action.Links p → may p) :
    Pairs.Steps may home.memory.pairs (home.act action).memory.pairs := by
  cases action with
  | seed members createdAt => exact steps_seedTeamClique members
  | suppressMissing teams => exact steps_suppressMissingTeamSeedPairs teams
  | apply op x y createdAt teams =>
    exact steps_applyTopologyOperation fun p hop hp => hmay p ⟨hop, hp⟩
  | save fails =>
    unfold Home.act
    dsimp only
    split <;> exact .refl
  | load fails => exact absurd rfl (hload fails)

theorem canonical_loadTopology (file : Option Graph) : (loadTopology file).pairs.Canonical := by
  cases file with
  | none => exact ⟨⟨nofun, List.nodup_nil⟩, ⟨nofun, List.nodup_nil⟩, ⟨nofun, List.nodup_nil⟩⟩
  | some topology => exact canonical_canonicalize topology

/-- Every reached topology consists of canonical pairs, each once. -/
theorem Reached.canonical (h : Reached file home) : home.memory.pairs.Canonical := by
  induction h with
  | loaded => exact canonical_loadTopology file
  | act action _ ih =>
    by_cases hload : ∃ fails, action = .load fails
    · obtain ⟨fails, rfl⟩ := hload
      exact canonical_loadTopology _
    · exact ih.steps (steps_act _ (fun _ => True) (not_exists.1 hload) fun _ _ => trivial)

variable {topology : Graph}

theorem apart_load_save (hcan : topology.pairs.Canonical)
    (h : topology.pairs.Apart) : (loadTopology (some (saveTopology topology))).pairs.Apart := by
  have hsvd : (saveTopology topology).pairs.Apart := h.canonicalize hcan
  exact hsvd.canonicalize (canonical_canonicalize topology)

theorem deleted_load_save (hcan : topology.pairs.Canonical) (h : topology.pairs.Deleted p) :
    (loadTopology (some (saveTopology topology))).pairs.Deleted p := by
  have hsvd : (saveTopology topology).pairs.Deleted p := h.canonicalize hcan
  exact hsvd.canonicalize (canonical_canonicalize topology)

/-- If the file links no pair that it suppresses, no reached topology does. -/
theorem Reached.apart (h : Reached file home) (hfile : (loadTopology file).pairs.Apart) :
    home.memory.pairs.Apart := by
  have hnone : (loadTopology none).pairs.Apart := fun _ hmem => by cases hmem
  suffices hboth : home.memory.pairs.Apart ∧ (loadTopology home.file).pairs.Apart from hboth.1
  induction h with
  | loaded => exact ⟨hfile, hfile⟩
  | @act home action hrchd ih =>
    by_cases hload : ∃ fails, action = .load fails
    · obtain ⟨fails, rfl⟩ := hload
      cases fails with
      | true => exact ⟨hnone, ih.2⟩
      | false => exact ⟨ih.2, ih.2⟩
    · refine ⟨ih.1.steps (steps_act home (fun _ => True) (not_exists.1 hload)
        fun _ _ => trivial), ?_⟩
      cases action with
      | save fails =>
        cases fails with
        | true => exact ih.2
        | false => exact apart_load_save hrchd.canonical ih.1
      | _ => exact ih.2

/-- **What is saved is what is loaded**, whatever a home has gone through: the topology that a load
of the file finds after a save has the same edges with their times, and the same ignored and suppressed pairs. -/
theorem Reached.load_save (h : Reached file home) :
    SameTopology ((home.act (.save false)).act (.load false)).memory home.memory := by
  have hsvd := canonical_canonicalize home.memory
  have hfst := sameTopology_canonicalize h.canonical
  have hsec := sameTopology_canonicalize hsvd
  exact ⟨hsec.edges.trans hfst.edges, hsec.ignoredPairs.trans hfst.ignoredPairs,
    hsec.suppressedSeedPairs.trans hfst.suppressedSeedPairs⟩

/-! ### After a deletion -/

variable {teams : List TeamMembership}

theorem deleted_of_removeEdge {a b : String} (hpair : IsCanonical (a, b))
    (hrem : (topology.removeEdgeAndSuppressSeedIfTeamPair a b teams).2 = true)
    (hcts : teamMembershipsContainPair teams a b = true) :
    (topology.removeEdgeAndSuppressSeedIfTeamPair a b teams).1.pairs.Deleted (a, b) := by
  have hcan : canonicalPair a b = some (a, b) := hpair
  have hunli : (topology.removeEdge a b).1.pairs =
      { topology.pairs with linked := remove (a, b) topology.pairs.linked } :=
    pairs_removeEdge hcan
  unfold Graph.removeEdgeAndSuppressSeedIfTeamPair at hrem ⊢
  rw [hcan] at hrem ⊢
  dsimp only at hrem ⊢
  rcases hedge : topology.removeEdge a b with ⟨unlinked, removed⟩
  rw [hedge] at hrem hunli
  cases removed with
  | false => simp at hrem
  | true =>
    simp only [hcts, Bool.and_self, if_true]
    rw [Pairs.Deleted, pairs_suppressSeedPair hcan, hunli]
    exact ⟨mem_insertNew.2 (.inr rfl), fun hlnk => (mem_remove.1 hlnk).2 rfl⟩

/-- An unlink that removed an edge of a team has deleted its pair. -/
theorem deleted_of_unlink {topology' : Graph} {a b x y createdAt : String}
    (h : applyTopologyOperation topology .unlink x y createdAt teams = (topology', some ⟨a, b, true⟩))
    (hteam : ∃ team ∈ teams, a ∈ team.agentIds ∧ b ∈ team.agentIds) : topology'.pairs.Deleted (a, b) := by
  have hcts : teamMembershipsContainPair teams a b = true := by
    obtain ⟨team, hmem, ha, hb⟩ := hteam
    simp only [teamMembershipsContainPair, List.any_eq_true, Bool.and_eq_true, beq_iff_eq]
    exact ⟨team, hmem, ⟨_, ha, rfl⟩, ⟨_, hb, rfl⟩⟩
  unfold applyTopologyOperation at h
  cases hpair : canonicalPair x y with
  | none => rw [hpair] at h; cases h
  | some q =>
    obtain ⟨a', b'⟩ := q
    have hcan := isCanonical_of_canonicalPair hpair
    rw [hpair] at h
    dsimp only at h
    injection h with htopo hout
    injection hout with hout
    injection hout with ha hb hchgd
    subst ha hb
    rw [← htopo]
    exact deleted_of_removeEdge hcan hchgd hcts

/-- A deleted pair stays deleted in memory, and in the file once it is saved. -/
theorem AfterDeletion.keeps_deleted {since : Bool} (h : AfterDeletion p home since home')
    (hcan : home.memory.pairs.Canonical) (hdele : home.memory.pairs.Deleted p) :
    home'.memory.pairs.Canonical ∧ home'.memory.pairs.Deleted p ∧
      (since = true → (loadTopology home'.file).pairs.Deleted p) := by
  induction h with
  | deleted => exact ⟨hcan, hdele, nofun⟩
  | saved _ ih => exact ⟨ih.1, ih.2.1, fun _ => deleted_load_save ih.1 ih.2.1⟩
  | loaded _ ih => exact ⟨canonical_loadTopology _, ih.2.2 rfl, fun _ => ih.2.2 rfl⟩
  | @act _ current action _ hlinks hload ih =>
    have hsteps := steps_act current (fun q => q ≠ p) hload
      fun q hq heq => hlinks (heq ▸ hq)
    refine ⟨ih.1.steps hsteps, ih.2.1.steps (fun hne => hne rfl) hsteps, fun hsince => ?_⟩
    cases action with
    | save fails =>
      cases fails with
      | true => exact ih.2.2 hsince
      | false => exact deleted_load_save ih.1 ih.2.1
    | load fails => exact absurd rfl (hload fails)
    | _ => exact ih.2.2 hsince

/-- **Deleted team edges stay deleted.**  In every topology reached from a loaded one, the pairs are
canonical, each occurs once, and none is both linked and suppressed if none was in the file; and a
team edge that was unlinked comes back only through a link of its pair, a load of an older file or a
load that cannot read the file. -/
theorem deletions_last (file : Option Graph) :
    (∀ home, Reached file home → home.memory.pairs.Canonical ∧
      ((loadTopology file).pairs.Apart → home.memory.pairs.Apart)) ∧
    (∀ home topology a b x y createdAt teams, Reached file home →
      applyTopologyOperation home.memory .unlink x y createdAt teams =
        (topology, some ⟨a, b, true⟩) →
      (∃ team ∈ teams, a ∈ team.agentIds ∧ b ∈ team.agentIds) →
      ∀ since home', AfterDeletion (a, b) ⟨topology, home.file⟩ since home' →
        (a, b) ∉ home'.memory.pairs.linked) := by
  refine ⟨fun home h => ⟨h.canonical, h.apart⟩, ?_⟩
  intro home topology a b x y createdAt teams hrchd hunlink hteam since home' haft
  have hcan : topology.pairs.Canonical := by
    have hact := (hrchd.act (.apply .unlink x y createdAt teams)).canonical
    simpa only [Home.act, hunlink] using hact
  exact (haft.keeps_deleted hcan (deleted_of_unlink hunlink hteam)).2.1.2

/-- A team of two. -/
def pairTeam : TeamMembership := ⟨"team-1", ["agent-b", "agent-a"]⟩

/-- A home where the team has seeded its edge. -/
def seededHome : Home :=
  Home.act ⟨loadTopology none, none⟩ (.seed pairTeam.agentIds "2026-07-02T00:00:00Z")

theorem load_save_seededHome :
    SameTopology ((seededHome.act (.save false)).act (.load false)).memory seededHome.memory :=
  Reached.load_save (.act _ .loaded)

/-- The topology in memory after the edge is unlinked. -/
@[irreducible] def unlinkedTopology : Graph :=
  (applyTopologyOperation seededHome.memory .unlink "agent-a" "agent-b" "2026-07-02T00:01:00Z"
    [pairTeam]).1

/-- Unlinked, saved, loaded and seeded again, the edge of the team stays away. -/
theorem deletions_last_pairTeam :
    ("agent-a", "agent-b") ∉ (((Home.act ⟨unlinkedTopology, none⟩ (.save false)).act (.load false)).act
      (.seed pairTeam.agentIds "2026-07-02T00:02:00Z")).memory.pairs.linked := by
  refine (deletions_last none).2 seededHome unlinkedTopology "agent-a" "agent-b" "agent-a" "agent-b"
    "2026-07-02T00:01:00Z" [pairTeam] (.act _ .loaded) ?_ ?_ true _
    (.act _ (.loaded (.saved .deleted)) nofun fun _ => nofun)
  · unfold unlinkedTopology
    decide
  · exact ⟨pairTeam, List.mem_singleton.2 rfl, by decide, by decide⟩

/-! ### A file that links what it suppresses -/

/-- A file with an edge between two agents whose pair it also suppresses. -/
def contradictoryFile : Graph where
  version := 3
  edges := [⟨"agent-a", "agent-b", "2026-07-02T00:00:00Z"⟩]
  ignoredPairs := []
  suppressedSeedPairs := [⟨"agent-a", "agent-b"⟩]

/-- **The contradictory file.**  Loading it gives a pair that is both linked and suppressed. -/
theorem loaded_linked_and_suppressed :
    ∃ home, Reached (some contradictoryFile) home ∧
      ("agent-a", "agent-b") ∈ home.memory.pairs.linked ∧
        ("agent-a", "agent-b") ∈ home.memory.pairs.suppressed :=
  ⟨_, .loaded, by decide +kernel, by decide +kernel⟩

end Wardian.Topology
