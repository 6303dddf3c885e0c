/-
The lease file and the operations on it.

Each operation takes the lock of the file, reads the file, and writes it at most once; the write
replaces the whole file.  Any of the three may fail, which ends the operation with an error and the
file as it was.  An operation runs at an instant, its clock, and is given the time stamp that its
caller read before waiting for the lock.

Main results:

* `Leases.wp_lockAndLoad` — the leases that an operation reads;
* `Leases.wp_tryAcquireLease` and its siblings — one rule for each operation.
-/

import Wardian.Lib.Prog
import Wardian.Leases.Lease

set_option autoImplicit false

namespace Wardian.Leases

open Prog (Wp wp_bind wp_get wp_ite wp_ofExcept_of)

/-- The content of the lease file. -/
structure ConversationLeaseFile where
  schema : Nat
  leases : List ConversationLease
deriving DecidableEq

def defaultSchema : Nat := 1

/-- The file of a home; there may be none yet. -/
abbrev LeaseStore : Type := Option ConversationLeaseFile

/-- The leases on file. -/
def LeaseStore.leases (store : LeaseStore) : List ConversationLease :=
  (store.map ConversationLeaseFile.leases).getD []

/-- An operation on the lease file. -/
abbrev LeaseM (α : Type) : Type := Prog LeaseStore String α

/-- How the file system treats one call: the errors of locking, reading and writing, if any. -/
structure Access where
  lockError : Option String
  readError : Option String
  saveError : Option String

/-- Nothing fails. -/
def Access.fine : Access := ⟨none, none, none⟩

/-- Stop with an error, if there is one. -/
def failWith (error : Option String) (text : String → String) : LeaseM Unit :=
  match error with
  | some e => Prog.fail (text e)
  | none => return

variable (parse : ParseRfc3339Utc) (io : Access)

/-! ### Reading and writing -/

def acquireLeaseFileLock : LeaseM Unit :=
  failWith io.lockError fun e => "failed to lock conversation leases: " ++ e

/-- Validate the leases in order, counting from `index`. -/
def validateLeases (index : Nat) : List ConversationLease → Except String Unit
  | [] => .ok ()
  | lease :: leases => do
      validateLease parse lease index
      validateLeases (index + 1) leases

/-- The leases on file; what cannot be read is an error, not an empty list. -/
def loadLeasesChecked : LeaseM (List ConversationLease) := do
  failWith io.readError fun e => "failed to read conversation leases: " ++ e
  match ← Prog.get with
  | none => return []
  | some file =>
    let schema := file.schema
    if schema ≠ defaultSchema then
      Prog.fail s!"unsupported conversation lease schema {schema}"
    else
      Prog.ofExcept (validateLeases parse 0 file.leases)
      return file.leases

/-- Replace the leases on file. -/
def saveLeases (text : String) (leases : List ConversationLease) : LeaseM Unit := do
  failWith io.saveError fun e => text ++ e
  Prog.modify fun _ => some ⟨1, leases⟩

/-- Take the lock and read the file. -/
def lockAndLoad : LeaseM (List ConversationLease) := do
  acquireLeaseFileLock io
  loadLeasesChecked parse io

/-- The lock is taken and the leases on file are read. -/
structure Loads (store : LeaseStore) : Prop where
  lock : io.lockError = none
  read : io.readError = none
  valid : ∀ file ∈ store, file.schema = defaultSchema ∧ validateLeases parse 0 file.leases = .ok ()

/-- A call that takes the lock and reads the file can also save it. -/
structure GoesThrough (store : LeaseStore) : Prop extends Loads parse io store where
  save : io.saveError = none

/-! ### Acquiring -/

inductive ConversationLeaseAcquireOutcome
  | acquired
  | conflict (lease : ConversationLease)
deriving DecidableEq

def tryAcquireLease (clock : Int) (lease : ConversationLease) (nowRfc3339 : String) :
    LeaseM ConversationLeaseAcquireOutcome := do
  if Text.isBlank lease.acquisitionId then
    Prog.fail "conversation lease acquisition id is required"
  else
    Prog.ofExcept (validateLease parse lease 0)
    let leases ← lockAndLoad parse io
    match findActiveConflict parse clock leases lease.agentId lease.resumeSession nowRfc3339 with
    | some conflict => return .conflict conflict
    | none =>
      saveLeases io "failed to save conversation lease: " (addOrReplaceOwner leases lease)
      return .acquired

/-! ### Renewing and retargeting -/

/-- Extend one acquisition, unless it has ended. -/
def renewLeaseOwnerPersisted (owner : ConversationLeaseOwner) (heartbeatAt expiresAt : String) :
    LeaseM Bool := do
  match parse heartbeatAt with
  | none => Prog.fail "invalid conversation lease heartbeat_at"
  | some now =>
    if (parse expiresAt).isNone then
      Prog.fail "invalid conversation lease expires_at"
    else
      let leases ← lockAndLoad parse io
      match leases.findIdx? fun lease => leaseMatchesOwner lease owner with
      | none => return false
      | some index =>
        match leases[index]? with
        | none => return false
        | some lease =>
          if !endsAfter parse lease.expiresAt now then
            return false
          else
            saveLeases io "failed to save conversation lease renewal: "
              (leases.set index { lease with heartbeatAt, expiresAt })
            return true

inductive ConversationLeaseRetargetOutcome
  | retargeted
  | conflict (lease : ConversationLease)
  | notActive

/-- The first lease away from `index` that excludes an agent and its session. -/
def findOtherConflict (leases : List ConversationLease) (index : Nat)
    (agentId resumeSession : String) (now : Int) : Option ConversationLease :=
  (leases.zipIdx.find? fun p =>
    p.2 != index && leaseConflicts parse p.1 agentId resumeSession now).map Prod.fst

/-- Move a lifecycle acquisition to the session that was selected at spawn. -/
def retargetLifecycleLeasePersisted (owner : ConversationLeaseOwner)
    (agentId provider resumeSession heartbeatAt expiresAt : String) :
    LeaseM ConversationLeaseRetargetOutcome := do
  match parse heartbeatAt, parse expiresAt with
  | none, _ => Prog.fail "invalid conversation lease heartbeat_at"
  | some _, none => Prog.fail "invalid conversation lease expires_at"
  | some now, some expiry =>
    if expiry ≤ now then
      Prog.fail "conversation lease expiry must follow heartbeat"
    else
      let leases ← lockAndLoad parse io
      match leases.findIdx? fun lease => leaseMatchesOwner lease owner with
      | none => return .notActive
      | some index =>
        match leases[index]? with
        | none => return .notActive
        | some owned =>
          if owner.ownerKind != "agent_lifecycle" || owned.mode != "lifecycle_transition" ||
              owned.agentId != agentId || owned.provider != provider ||
              !endsAfter parse owned.expiresAt now then
            return .notActive
          else
            match findOtherConflict parse leases index agentId resumeSession now with
            | some conflict => return .conflict conflict
            | none =>
              saveLeases io "failed to save conversation lease retarget: "
                (leases.set index { owned with resumeSession, heartbeatAt, expiresAt })
              return .retargeted

/-! ### Holds and releases -/

/-- The hold on a previous provider session; its identifiers are fresh. -/
def previousProviderHold (agentId provider resumeSession nowRfc3339 holdId acquisitionId : String) :
    ConversationLease where
  agentId := agentId
  provider := provider
  resumeSession := resumeSession
  ownerKind := "prior_provider_hold"
  ownerId := holdId
  acquisitionId := acquisitionId
  ownerNodeId := none
  mode := "uncertain_previous_provider"
  startedAt := nowRfc3339
  heartbeatAt := nowRfc3339
  expiresAt := "9999-12-31T23:59:59Z"

/-- Fence a previous provider session before its runtime is stopped. -/
def holdPreviousProviderSessionPersisted (owner : ConversationLeaseOwner)
    (agentId provider resumeSession nowRfc3339 holdId acquisitionId : String) :
    LeaseM ConversationLeaseOwner := do
  match parse nowRfc3339 with
  | none => Prog.fail "invalid previous provider hold timestamp"
  | some now =>
    if Text.isBlank resumeSession then
      Prog.fail "previous provider hold requires a session identity"
    else
      let leases ← lockAndLoad parse io
      let owned := leases.find? fun lease => leaseMatchesOwner lease owner
      if !owned.any fun lease =>
          owner.ownerKind == "agent_lifecycle" && lease.mode == "lifecycle_transition" &&
            lease.agentId == agentId && lease.provider == provider &&
            lease.resumeSession == resumeSession && endsAfter parse lease.expiresAt now then
        Prog.fail "exact lifecycle lease no longer owns the previous provider session"
      else
        let hold := previousProviderHold agentId provider resumeSession nowRfc3339 holdId
          acquisitionId
        saveLeases io "failed to save previous provider hold: " (leases ++ [hold])
        return hold.owner

/-- Release whatever an owner holds. -/
def releaseOwnerPersisted (ownerKind ownerId : String) : LeaseM Unit := do
  let leases ← lockAndLoad parse io
  saveLeases io "failed to save conversation lease release: " (releaseOwner leases ownerKind ownerId)

/-- Release exactly one acquisition. -/
def releaseLeaseOwnerPersisted (owner : ConversationLeaseOwner) : LeaseM Unit := do
  let leases ← lockAndLoad parse io
  saveLeases io "failed to save conversation lease release: " (releaseLeaseOwner leases owner)

/-- Releases a lease when its owning operation ends or is cancelled. -/
structure PersistedConversationLeaseGuard where
  owner : ConversationLeaseOwner
  released : Bool
  retainOnDrop : Bool

namespace PersistedConversationLeaseGuard

def new (lease : ConversationLease) : PersistedConversationLeaseGuard := ⟨lease.owner, false, false⟩

/-- From now on a drop keeps the acquisition. -/
def retainingOnDrop (guard : PersistedConversationLeaseGuard) : PersistedConversationLeaseGuard :=
  { guard with retainOnDrop := true }

/-- Dropping the guard releases its acquisition, unless it is retained; errors are ignored. -/
def drop (guard : PersistedConversationLeaseGuard) : LeaseM Unit := fun store =>
  if !guard.released && !guard.retainOnDrop then
    (.ok (), (releaseLeaseOwnerPersisted parse io guard.owner store).2)
  else (.ok (), store)

end PersistedConversationLeaseGuard

/-! ### Rules -/

variable {parse io} {α : Type} {store : LeaseStore} {P : LeaseStore → Prop}

variable {Q : Unit → LeaseStore → Prop} {R : String → LeaseStore → Prop}

theorem wp_failWith {error : Option String} {text : String → String} (hfail : ∀ e, R e store)
    (hok : error = none → Q () store) : Wp (failWith error text) Q R store := by
  unfold failWith
  cases error with
  | some e => exact hfail _
  | none => exact hok rfl

/-- A write either fails, with the file as it was, or replaces the leases. -/
theorem wp_saveLeases {text : String} {leases : List ConversationLease} (hfail : ∀ e, R e store)
    (hok : io.saveError = none → Q () (some ⟨1, leases⟩)) :
    Wp (saveLeases io text leases) Q R store := by
  unfold saveLeases
  rw [wp_bind]
  exact wp_failWith hfail hok

theorem wp_lockAndLoad {Q : List ConversationLease → LeaseStore → Prop} (hfail : ∀ e, R e store)
    (hok : Loads parse io store → Q store.leases store) : Wp (lockAndLoad parse io) Q R store := by
  unfold lockAndLoad acquireLeaseFileLock loadLeasesChecked
  simp only [wp_bind, wp_get]
  refine wp_failWith hfail fun hlock => wp_failWith hfail fun hread => ?_
  cases store with
  | none => exact hok ⟨hlock, hread, fun _ hfile => by cases hfile⟩
  | some file =>
    refine wp_ite (fun _ => hfail _) fun hsch => ?_
    rw [wp_bind]
    refine wp_ofExcept_of (fun _ hval => hok ⟨hlock, hread, fun _ hfile => ?_⟩) fun _ _ => hfail _
    cases hfile
    exact ⟨not_not.1 hsch, hval⟩

variable {lease : ConversationLease}

theorem matches_of_findIdx? {leases : List ConversationLease} {p : ConversationLease → Bool} {index : Nat}
    (hidx : leases.findIdx? p = some index) (hls : leases[index]? = some lease) : p lease = true := by
  obtain ⟨h, hp, -⟩ := List.findIdx?_eq_some_iff_getElem.1 hidx
  rw [List.getElem?_eq_getElem h, Option.some.injEq] at hls
  exact hls ▸ hp

variable {agentId resumeSession : String}

/-- No lease away from `index` excludes the agent or the session. -/
theorem findOtherConflict_eq_none {leases : List ConversationLease} {index : Nat} {now : Int}
    (h : findOtherConflict parse leases index agentId resumeSession now = none) :
    ∀ i other, i ≠ index → leases[i]? = some other →
      leaseConflicts parse other agentId resumeSession now = false := by
  intro i other hne hoth
  simp only [findOtherConflict, Option.map_eq_none_iff, List.find?_eq_none] at h
  have hmem : (other, i) ∈ leases.zipIdx := List.mem_zipIdx_iff_getElem?.2 hoth
  simpa [hne] using h _ hmem

theorem wp_tryAcquireLease {clock : Int} {now : String}
    {Q : ConversationLeaseAcquireOutcome → LeaseStore → Prop} (hfail : ∀ e, R e store)
    (hconf : ∀ conflict, findActiveConflict parse clock store.leases lease.agentId
      lease.resumeSession now = some conflict → Q (.conflict conflict) store)
    (hok : GoesThrough parse io store → Text.isBlank lease.acquisitionId = false →
      validateLease parse lease 0 = .ok () →
      findActiveConflict parse clock store.leases lease.agentId lease.resumeSession now = none →
      Q .acquired (some ⟨1, addOrReplaceOwner store.leases lease⟩)) :
    Wp (tryAcquireLease parse io clock lease now) Q R store := by
  unfold tryAcquireLease
  refine wp_ite (fun _ => hfail _) fun hid => ?_
  simp only [wp_bind]
  refine wp_ofExcept_of (fun _ hval => wp_lockAndLoad hfail fun hlds => ?_) fun _ _ => hfail _
  cases hfind : findActiveConflict parse clock store.leases lease.agentId lease.resumeSession now with
  | some conflict => exact hconf conflict hfind
  | none =>
    dsimp only
    rw [wp_bind]
    exact wp_saveLeases hfail fun hsave =>
      hok ⟨hlds, hsave⟩ (Bool.eq_false_iff.2 hid) hval hfind

variable {owner : ConversationLeaseOwner}

/-- A renewal changes the times of the first lease of its owner, if that lease has not ended. -/
theorem wp_renewLeaseOwnerPersisted {heartbeatAt expiresAt : String} (hstay : P store)
    (hok : ∀ now index lease, GoesThrough parse io store → parse heartbeatAt = some now →
      (store.leases.findIdx? fun lease => leaseMatchesOwner lease owner) = some index →
      store.leases[index]? = some lease → lease.owner = owner → lease.Active parse now →
      P (some ⟨1, store.leases.set index { lease with heartbeatAt, expiresAt }⟩)) :
    Wp (renewLeaseOwnerPersisted parse io owner heartbeatAt expiresAt) (fun _ => P)
      (fun _ => P) store := by
  unfold renewLeaseOwnerPersisted
  cases hnow : parse heartbeatAt with
  | none => exact hstay
  | some now =>
    refine wp_ite (fun _ => hstay) fun _ => ?_
    rw [wp_bind]
    refine wp_lockAndLoad (fun _ => hstay) fun hlds => ?_
    cases hidx : store.leases.findIdx? fun lease => leaseMatchesOwner lease owner with
    | none => exact hstay
    | some index =>
      dsimp only
      cases hls : store.leases[index]? with
      | none => exact hstay
      | some lease =>
        have hown := leaseMatchesOwner_iff.1 (matches_of_findIdx? hidx hls)
        refine wp_ite (fun _ => hstay) fun hact => ?_
        rw [wp_bind]
        refine wp_saveLeases (fun _ => hstay) fun hsave => ?_
        exact hok now index lease ⟨hlds, hsave⟩ hnow hidx hls hown (by simpa [ConversationLease.Active] using hact)

/-- A retarget changes the times and the session of a lifecycle lease that has not ended, if no
other lease excludes the session. -/
theorem wp_retargetLifecycleLeasePersisted {provider heartbeatAt expiresAt : String} (hstay : P store)
    (hok : ∀ now index lease, parse heartbeatAt = some now → store.leases[index]? = some lease →
      lease.owner = owner → owner.ownerKind = "agent_lifecycle" →
      lease.mode = "lifecycle_transition" → lease.agentId = agentId → lease.Active parse now →
      (∀ i other, i ≠ index → store.leases[i]? = some other →
        leaseConflicts parse other agentId resumeSession now = false) →
      P (some ⟨1, store.leases.set index
        { lease with resumeSession, heartbeatAt, expiresAt }⟩)) :
    Wp (retargetLifecycleLeasePersisted parse io owner agentId provider resumeSession
      heartbeatAt expiresAt) (fun _ => P) (fun _ => P) store := by
  unfold retargetLifecycleLeasePersisted
  split
  · exact hstay
  · exact hstay
  rename_i now expiry hnow hexpiry
  refine wp_ite (fun _ => hstay) fun _ => ?_
  rw [wp_bind]
  refine wp_lockAndLoad (fun _ => hstay) fun _ => ?_
  cases hidx : store.leases.findIdx? fun lease => leaseMatchesOwner lease owner with
  | none => exact hstay
  | some index =>
    dsimp only
    cases hls : store.leases[index]? with
    | none => exact hstay
    | some lease =>
      have hown := leaseMatchesOwner_iff.1 (matches_of_findIdx? hidx hls)
      refine wp_ite (fun _ => hstay) fun hgrd => ?_
      simp only [Bool.or_eq_true, bne_iff_ne, not_or, ne_eq, not_not, Bool.not_eq_true',
        Bool.not_eq_false] at hgrd
      obtain ⟨⟨⟨⟨hkind, hmode⟩, hagt⟩, -⟩, hact⟩ := hgrd
      cases hfind : findOtherConflict parse store.leases index agentId resumeSession now with
      | some conflict => exact hstay
      | none =>
        dsimp only
        rw [wp_bind]
        exact wp_saveLeases (fun _ => hstay) fun _ => hok now index lease hnow hls hown hkind
          hmode hagt hact (findOtherConflict_eq_none hfind)

theorem wp_holdPreviousProviderSessionPersisted {provider now holdId acquisitionId : String} (hstay : P store)
    (hok : P (some ⟨1, store.leases ++
      [previousProviderHold agentId provider resumeSession now holdId acquisitionId]⟩)) :
    Wp (holdPreviousProviderSessionPersisted parse io owner agentId provider resumeSession now
      holdId acquisitionId) (fun _ => P) (fun _ => P) store := by
  unfold holdPreviousProviderSessionPersisted
  split
  · exact hstay
  refine wp_ite (fun _ => hstay) fun _ => ?_
  rw [wp_bind]
  refine wp_lockAndLoad (fun _ => hstay) fun _ => ?_
  refine wp_ite (fun _ => hstay) fun _ => ?_
  dsimp only
  rw [wp_bind]
  exact wp_saveLeases (fun _ => hstay) fun _ => hok

theorem wp_releaseOwnerPersisted {ownerKind ownerId : String} (hstay : P store)
    (hok : P (some ⟨1, releaseOwner store.leases ownerKind ownerId⟩)) :
    Wp (releaseOwnerPersisted parse io ownerKind ownerId) (fun _ => P) (fun _ => P) store := by
  unfold releaseOwnerPersisted
  rw [wp_bind]
  exact wp_lockAndLoad (fun _ => hstay) fun _ => wp_saveLeases (fun _ => hstay) fun _ => hok

theorem wp_releaseLeaseOwnerPersisted (hstay : P store)
    (hok : P (some ⟨1, releaseLeaseOwner store.leases owner⟩)) :
    Wp (releaseLeaseOwnerPersisted parse io owner) (fun _ => P) (fun _ => P) store := by
  unfold releaseLeaseOwnerPersisted
  rw [wp_bind]
  exact wp_lockAndLoad (fun _ => hstay) fun _ => wp_saveLeases (fun _ => hstay) fun _ => hok

/-- A guard that is retained or has released changes nothing when it is dropped. -/
theorem PersistedConversationLeaseGuard.wp_drop {guard : PersistedConversationLeaseGuard} (hstay : P store)
    (hok : guard.released = false → guard.retainOnDrop = false →
      P (some ⟨1, releaseLeaseOwner store.leases guard.owner⟩)) :
    Wp (guard.drop parse io) (fun _ => P) (fun _ => P) store := by
  unfold Wp PersistedConversationLeaseGuard.drop
  split
  · rename_i hgrd
    simp only [Bool.and_eq_true, Bool.not_eq_true'] at hgrd
    exact (wp_releaseLeaseOwnerPersisted hstay (hok hgrd.1 hgrd.2)).final
  · exact hstay

end Wardian.Leases
