/-
Histories of the lease file.

The processes that share a home call the operations in some order.  A call runs at an instant, and
the instants never go back; the time stamp that it carries was read no later than that instant, but
possibly long before it, so the order of the time stamps may differ from the order of the calls.

Main results:

* `Leases.change_after` — what one call can do to the leases on file;
* `Leases.Later.inv` — what every call keeps, a history keeps.
-/

import Wardian.Leases.Store

set_option autoImplicit false

namespace Wardian.Leases

/-- What a process asks of the lease file. -/
inductive Request
  | tryAcquire (lease : ConversationLease) (nowRfc3339 : String)
  | renew (owner : ConversationLeaseOwner) (heartbeatAt expiresAt : String)
  | retarget (owner : ConversationLeaseOwner)
      (agentId provider resumeSession heartbeatAt expiresAt : String)
  | hold (owner : ConversationLeaseOwner)
      (agentId provider resumeSession nowRfc3339 holdId acquisitionId : String)
  | releaseOwner (ownerKind ownerId : String)
  | releaseLeaseOwner (owner : ConversationLeaseOwner)
  | dropGuard (guard : PersistedConversationLeaseGuard)

/-- A request, the instant at which it runs, and how the file system treats it. -/
structure Call where
  clock : Int
  io : Access
  request : Request

/-- The time stamp that the caller read. -/
def Request.timestamp : Request → Option String
  | .tryAcquire _ now => some now
  | .renew _ heartbeatAt _ => some heartbeatAt
  | .retarget _ _ _ _ heartbeatAt _ => some heartbeatAt
  | .hold _ _ _ _ now _ _ => some now
  | .releaseOwner _ _ | .releaseLeaseOwner _ | .dropGuard _ => none

variable (parse : ParseRfc3339Utc)

/-- The time stamp was read no later than the call runs. -/
def Call.Timely (call : Call) : Prop :=
  ∀ now ∈ call.request.timestamp.bind parse, now ≤ call.clock

instance (call : Call) : Decidable (call.Timely parse) :=
  inferInstanceAs (Decidable (∀ now ∈ call.request.timestamp.bind parse, now ≤ call.clock))

/-- Run a call; its answer is left out. -/
def serve (call : Call) : LeaseM Unit :=
  match call.request with
  | .tryAcquire lease now => do let _ ← tryAcquireLease parse call.io call.clock lease now
  | .renew owner heartbeatAt expiresAt => do
      let _ ← renewLeaseOwnerPersisted parse call.io owner heartbeatAt expiresAt
  | .retarget owner agentId provider resumeSession heartbeatAt expiresAt => do
      let _ ← retargetLifecycleLeasePersisted parse call.io owner agentId provider resumeSession
        heartbeatAt expiresAt
  | .hold owner agentId provider resumeSession now holdId acquisitionId => do
      let _ ← holdPreviousProviderSessionPersisted parse call.io owner agentId provider
        resumeSession now holdId acquisitionId
  | .releaseOwner ownerKind ownerId => releaseOwnerPersisted parse call.io ownerKind ownerId
  | .releaseLeaseOwner owner => releaseLeaseOwnerPersisted parse call.io owner
  | .dropGuard guard => guard.drop parse call.io

/-- The file after a call. -/
def LeaseStore.after (store : LeaseStore) (call : Call) : LeaseStore := (serve parse call store).2

/-- One state of the file, at one instant, is reached from another by calls that are `allowed`. -/
inductive Later (allowed : LeaseStore → Call → Prop) (store : LeaseStore) (clock : Int) :
    LeaseStore → Int → Prop
  | refl : Later allowed store clock store clock
  | step {store' : LeaseStore} {clock' : Int} (call : Call) :
      Later allowed store clock store' clock' → clock' ≤ call.clock → call.Timely parse →
      allowed store' call → Later allowed store clock (store'.after parse call) call.clock

/-- A history of the file of a new home. -/
abbrev History (allowed : LeaseStore → Call → Prop) (start : Int) : LeaseStore → Int → Prop :=
  Later parse allowed none start

/-! ### What a call does -/

/-- What one call can do to the leases on file. -/
inductive Change (call : Call) (store : LeaseStore) : List ConversationLease → Prop
  | stay : Change call store store.leases
  | acquired {lease : ConversationLease} {now : String}
      (hreq : call.request = .tryAcquire lease now) (hthru : GoesThrough parse call.io store)
      (hid : Text.isBlank lease.acquisitionId = false)
      (hval : validateLease parse lease 0 = .ok ())
      (hfree : findActiveConflict parse call.clock store.leases lease.agentId lease.resumeSession
        now = none) :
      Change call store (addOrReplaceOwner store.leases lease)
  | renewed {owner : ConversationLeaseOwner} {heartbeatAt expiresAt : String} {now : Int}
      {index : Nat} {lease : ConversationLease}
      (hreq : call.request = .renew owner heartbeatAt expiresAt)
      (hthru : GoesThrough parse call.io store) (hnow : parse heartbeatAt = some now)
      (hidx : (store.leases.findIdx? fun lease => leaseMatchesOwner lease owner) = some index)
      (hls : store.leases[index]? = some lease) (hown : lease.owner = owner)
      (hact : lease.Active parse now) :
      Change call store (store.leases.set index { lease with heartbeatAt, expiresAt })
  | retargeted {owner : ConversationLeaseOwner}
      {agentId provider resumeSession heartbeatAt expiresAt : String} {now : Int} {index : Nat}
      {lease : ConversationLease}
      (hreq : call.request =
        .retarget owner agentId provider resumeSession heartbeatAt expiresAt)
      (hnow : parse heartbeatAt = some now) (hls : store.leases[index]? = some lease)
      (hown : lease.owner = owner) (hkind : owner.ownerKind = "agent_lifecycle")
      (hmode : lease.mode = "lifecycle_transition") (hagt : lease.agentId = agentId)
      (hact : lease.Active parse now)
      (hfree : ∀ i other, i ≠ index → store.leases[i]? = some other →
        leaseConflicts parse other agentId resumeSession now = false) :
      Change call store
        (store.leases.set index { lease with resumeSession, heartbeatAt, expiresAt })
  | held {owner : ConversationLeaseOwner}
      {agentId provider resumeSession now holdId acquisitionId : String}
      (hreq : call.request =
        .hold owner agentId provider resumeSession now holdId acquisitionId) :
      Change call store
        (store.leases ++ [previousProviderHold agentId provider resumeSession now holdId acquisitionId])
  | releasedOwner {ownerKind ownerId : String}
      (hreq : call.request = .releaseOwner ownerKind ownerId) :
      Change call store (releaseOwner store.leases ownerKind ownerId)
  | released {owner : ConversationLeaseOwner} (hreq : call.request = .releaseLeaseOwner owner) :
      Change call store (releaseLeaseOwner store.leases owner)
  | dropped {guard : PersistedConversationLeaseGuard} (hreq : call.request = .dropGuard guard)
      (hreld : guard.released = false) (hretain : guard.retainOnDrop = false) :
      Change call store (releaseLeaseOwner store.leases guard.owner)

variable {parse} {allowed : LeaseStore → Call → Prop} {store store' : LeaseStore}
  {clock clock' : Int}

theorem change_after (call : Call) (store : LeaseStore) :
    Change parse call store (store.after parse call).leases := by
  obtain ⟨clock, io, request⟩ := call
  let P : LeaseStore → Prop := fun store' =>
    Change parse ⟨clock, io, request⟩ store store'.leases
  refine Prog.Wp.final (P := P) ?_
  have hstay : P store := .stay
  unfold serve
  cases request with
  | tryAcquire lease now =>
    exact (Prog.wp_bind _ _ _ _ _).2
      (wp_tryAcquireLease (fun _ => hstay) (fun _ _ => hstay)
        fun hthru hid hval hfree => .acquired rfl hthru hid hval hfree)
  | renew owner heartbeatAt expiresAt =>
    exact (Prog.wp_bind _ _ _ _ _).2
      (wp_renewLeaseOwnerPersisted hstay fun _ _ _ hthru hnow hidx hls hown hact =>
        .renewed rfl hthru hnow hidx hls hown hact)
  | retarget owner agentId provider resumeSession heartbeatAt expiresAt =>
    exact (Prog.wp_bind _ _ _ _ _).2 (wp_retargetLifecycleLeasePersisted hstay
      fun _ _ _ hnow hls hown hkind hmode hagt hact hfree =>
        .retargeted rfl hnow hls hown hkind hmode hagt hact hfree)
  | hold owner agentId provider resumeSession now holdId acquisitionId =>
    exact (Prog.wp_bind _ _ _ _ _).2
      (wp_holdPreviousProviderSessionPersisted hstay (.held rfl))
  | releaseOwner ownerKind ownerId => exact wp_releaseOwnerPersisted hstay (.releasedOwner rfl)
  | releaseLeaseOwner owner => exact wp_releaseLeaseOwnerPersisted hstay (.released rfl)
  | dropGuard guard =>
    exact PersistedConversationLeaseGuard.wp_drop hstay fun hreld hretain =>
      .dropped rfl hreld hretain

theorem Later.inv {I : List ConversationLease → Int → Prop}
    (hstep : ∀ (store : LeaseStore) (call : Call) leases clock, clock ≤ call.clock →
      call.Timely parse → allowed store call → I store.leases clock →
      Change parse call store leases → I leases call.clock)
    (h : Later parse allowed store clock store' clock') (hstart : I store.leases clock) :
    I store'.leases clock' := by
  induction h with
  | refl => exact hstart
  | step call _ hle htimely halwd ih =>
    exact hstep _ call _ _ hle htimely halwd ih (change_after call _)

/-! ### A sample home -/

/-- A minute of an hour, as text. -/
def minute (m : Nat) : String :=
  "2026-06-01T00:" ++ (if m < 10 then "0" else "") ++ toString m ++ ":00Z"

/-- The same minute as an instant, in seconds. -/
def sampleInstant (m : Nat) : Int := 1780272000 + 60 * m

/-- The reading of the minutes of that hour. -/
def sampleParse : ParseRfc3339Utc := fun text =>
  ((List.range 60).find? fun m => minute m == text).map sampleInstant

/-- A lease of an automation run on an agent, from the start of the hour to minute 10. -/
def sampleLease (agentId acquisitionId : String) : ConversationLease where
  agentId := agentId
  provider := "gemini"
  resumeSession := "session-of-" ++ agentId
  ownerKind := "automation_run"
  ownerId := "wf/run-1"
  acquisitionId := acquisitionId
  ownerNodeId := none
  mode := "background_resume"
  startedAt := minute 0
  heartbeatAt := minute 0
  expiresAt := minute 10

/-- A call in a minute of that hour, with a file system that works. -/
def sampleCall (m : Nat) (request : Request) : Call := ⟨sampleInstant m, .fine, request⟩

/-- The file after several calls. -/
def LeaseStore.afterAll (parse : ParseRfc3339Utc) (store : LeaseStore) (calls : List Call) :
    LeaseStore :=
  calls.foldl (LeaseStore.after parse) store

end Wardian.Leases
