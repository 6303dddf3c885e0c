/-
Conversation leases: what a lease is and when it excludes another.

A lease names an agent and possibly a provider session, belongs to an owner and ends at an instant
written into it as text.  `parse_rfc3339_utc` is a parameter of the model: a partial function from
texts to instants.

Main results:

* `Leases.leaseConflicts_iff` — exclusion by a lease that is no hold;
* `Leases.findActiveConflict_eq_none` — no lease of the list excludes the agent or its session.
-/

import Wardian.Lib.Text
import Mathlib.Data.List.Pairwise

set_option autoImplicit false

namespace Wardian.Leases

/-- A lease on an agent's conversation. -/
structure ConversationLease where
  agentId : String
  provider : String
  resumeSession : String
  ownerKind : String
  ownerId : String
  /-- Unique for each successful acquisition. -/
  acquisitionId : String
  ownerNodeId : Option String
  mode : String
  startedAt : String
  heartbeatAt : String
  expiresAt : String
deriving DecidableEq

/-- The triple that identifies one acquisition. -/
structure ConversationLeaseOwner where
  ownerKind : String
  ownerId : String
  acquisitionId : String
deriving DecidableEq

def ConversationLease.owner (lease : ConversationLease) : ConversationLeaseOwner where
  ownerKind := lease.ownerKind
  ownerId := lease.ownerId
  acquisitionId := lease.acquisitionId

/-- The reading of a time stamp, as an instant. -/
abbrev ParseRfc3339Utc : Type := String → Option Int

/-! ### Validation -/

/-- The fields that may not be blank, with their names. -/
def requiredFields (lease : ConversationLease) : List (String × String) :=
  [("agent_id", lease.agentId), ("provider", lease.provider), ("owner_kind", lease.ownerKind),
    ("owner_id", lease.ownerId)]

/-- The time stamps, with their names. -/
def timestampFields (lease : ConversationLease) : List (String × String) :=
  [("started_at", lease.startedAt), ("heartbeat_at", lease.heartbeatAt),
    ("expires_at", lease.expiresAt)]

def knownModes : List String :=
  ["background_resume", "background_fresh", "lifecycle_transition", "uncertain_previous_provider"]

/-- What a lease that is stored or acquired must satisfy. -/
def validateLease (parse : ParseRfc3339Utc) (lease : ConversationLease) (index : Nat) :
    Except String Unit := do
  if let some (field, _) := (requiredFields lease).find? fun f => Text.isBlank f.2 then
    throw s!"conversation lease {index} has empty {field}"
  if !knownModes.contains lease.mode then
    throw s!"conversation lease {index} has unknown mode"
  if lease.mode == "background_resume" && Text.isBlank lease.resumeSession then
    throw s!"conversation lease {index} has empty resume_session"
  if lease.mode == "uncertain_previous_provider" &&
      (lease.ownerKind != "prior_provider_hold" || Text.isBlank lease.resumeSession) then
    throw s!"conversation lease {index} has invalid previous provider hold"
  if let some (field, _) := (timestampFields lease).find? fun f => (parse f.2).isNone then
    throw s!"conversation lease {index} has invalid {field}"

/-! ### Exclusion -/

variable {parse : ParseRfc3339Utc}

/-- Whether a text names an instant after `now`. -/
def endsAfter (parse : ParseRfc3339Utc) (expiresAt : String) (now : Int) : Bool :=
  match parse expiresAt with
  | some expires => decide (now < expires)
  | none => false

/-- Whether a lease excludes an agent and its session at an instant. -/
def leaseConflicts (parse : ParseRfc3339Utc) (lease : ConversationLease)
    (agentId resumeSession : String) (now : Int) : Bool :=
  -- A hold on a previous provider session outlives its time and names that session only.
  if lease.mode == "uncertain_previous_provider" then
    !Text.isBlank resumeSession && lease.resumeSession == resumeSession
  else
    endsAfter parse lease.expiresAt now &&
      (lease.agentId == agentId ||
        (!Text.isBlank resumeSession && lease.resumeSession == resumeSession))

/-- The first lease that excludes an agent and its session.  A time stamp that cannot be read is
replaced by the clock. -/
def findActiveConflict (parse : ParseRfc3339Utc) (clock : Int) (leases : List ConversationLease)
    (agentId resumeSession now : String) : Option ConversationLease :=
  let now := (parse now).getD clock
  leases.find? fun lease => leaseConflicts parse lease agentId resumeSession now

/-! ### Changing a list of leases -/

def releaseOwner (leases : List ConversationLease) (ownerKind ownerId : String) :
    List ConversationLease :=
  leases.filter fun lease => lease.ownerKind != ownerKind || lease.ownerId != ownerId

def addOrReplaceOwner (leases : List ConversationLease) (lease : ConversationLease) :
    List ConversationLease :=
  releaseOwner leases lease.ownerKind lease.ownerId ++ [lease]

def leaseMatchesOwner (lease : ConversationLease) (owner : ConversationLeaseOwner) : Bool :=
  lease.ownerKind == owner.ownerKind && lease.ownerId == owner.ownerId &&
    lease.acquisitionId == owner.acquisitionId

def releaseLeaseOwner (leases : List ConversationLease) (owner : ConversationLeaseOwner) :
    List ConversationLease :=
  leases.filter fun lease => !leaseMatchesOwner lease owner

/-! ### Reading the definitions -/

/-- A hold on a previous provider session. -/
def ConversationLease.IsHold (lease : ConversationLease) : Prop :=
  lease.mode = "uncertain_previous_provider"

instance (lease : ConversationLease) : Decidable lease.IsHold :=
  inferInstanceAs (Decidable (lease.mode = "uncertain_previous_provider"))

/-- A lease has not ended at an instant. -/
def ConversationLease.Active (parse : ParseRfc3339Utc) (lease : ConversationLease) (t : Int) :
    Prop :=
  endsAfter parse lease.expiresAt t = true

instance (lease : ConversationLease) (t : Int) : Decidable (lease.Active parse t) :=
  inferInstanceAs (Decidable (endsAfter parse lease.expiresAt t = true))

variable {lease : ConversationLease} {leases : List ConversationLease} {t now : Int}

theorem endsAfter_iff {text : String} :
    endsAfter parse text t = true ↔ ∃ expires, parse text = some expires ∧ t < expires := by
  unfold endsAfter
  cases parse text <;> simp

theorem ConversationLease.Active.mono (h : lease.Active parse t) (hle : now ≤ t) :
    lease.Active parse now := by
  obtain ⟨expires, hpar, hlt⟩ := endsAfter_iff.1 h
  exact endsAfter_iff.2 ⟨expires, hpar, Int.lt_of_le_of_lt hle hlt⟩

@[simp] theorem leaseMatchesOwner_iff {owner : ConversationLeaseOwner} :
    leaseMatchesOwner lease owner = true ↔ lease.owner = owner := by
  obtain ⟨kind, id, acquisition⟩ := owner
  simp [leaseMatchesOwner, ConversationLease.owner, and_assoc]

theorem leaseConflicts_iff (hhold : ¬lease.IsHold) {agentId resumeSession : String} :
    leaseConflicts parse lease agentId resumeSession now = true ↔
      lease.Active parse now ∧ (lease.agentId = agentId ∨
        (Text.isBlank resumeSession = false ∧ lease.resumeSession = resumeSession)) := by
  have hmode : (lease.mode == "uncertain_previous_provider") = false := by
    simpa [ConversationLease.IsHold] using hhold
  simp [leaseConflicts, hmode, ConversationLease.Active]

theorem findActiveConflict_eq_none {clock : Int} {agentId resumeSession text : String} :
    findActiveConflict parse clock leases agentId resumeSession text = none ↔
      ∀ lease ∈ leases,
        leaseConflicts parse lease agentId resumeSession ((parse text).getD clock) = false := by
  simp [findActiveConflict, List.find?_eq_none]

theorem mem_releaseOwner {kind id : String} :
    lease ∈ releaseOwner leases kind id ↔
      lease ∈ leases ∧ ¬(lease.ownerKind = kind ∧ lease.ownerId = id) := by
  simp only [releaseOwner, List.mem_filter, Bool.or_eq_true, bne_iff_ne, ne_eq, not_and_or]

theorem mem_addOrReplaceOwner {new : ConversationLease} :
    lease ∈ addOrReplaceOwner leases new ↔
      (lease ∈ leases ∧ ¬(lease.ownerKind = new.ownerKind ∧ lease.ownerId = new.ownerId)) ∨
        lease = new := by
  simp [addOrReplaceOwner, mem_releaseOwner]

theorem mem_releaseLeaseOwner {owner : ConversationLeaseOwner} :
    lease ∈ releaseLeaseOwner leases owner ↔ lease ∈ leases ∧ lease.owner ≠ owner := by
  rw [releaseLeaseOwner, List.mem_filter, Bool.not_eq_true', ← Bool.not_eq_true,
    leaseMatchesOwner_iff]

end Wardian.Leases
