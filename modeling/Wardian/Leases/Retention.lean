/-
Retention of conversation leases.

A lease that is never released stays on file and keeps excluding its agent and its session, as long
as its owner's kind and identifier are not used for another acquisition that finds no conflict.
Such an acquisition replaces whatever the kind and the identifier hold, whatever its acquisition
identifier and whatever agent it is for.

Main results:

* `Leases.onFile_step` — what one call keeps;
* `Leases.acquired_remains` — **retention** without a displacing call;
* `Leases.displaced_by_own_run` — a run displaces its own lease by acquiring another agent.
-/

import Wardian.Leases.Exclusion

set_option autoImplicit false

namespace Wardian.Leases

variable (parse : ParseRfc3339Utc)

/-- The call is no release of whatever an owner holds, no release of this acquisition, and no drop
of a guard of it, unless the guard retains it. -/
def Retains (owner : ConversationLeaseOwner) (call : Call) : Prop :=
  match call.request with
  | .releaseOwner _ _ => False
  | .releaseLeaseOwner other => other ≠ owner
  | .dropGuard guard => guard.owner = owner → guard.released = true ∨ guard.retainOnDrop = true
  | _ => True

/-- The call goes through and acquires a valid lease under the kind and the identifier of `owner`, for
which it finds no conflict. -/
def Displaces (owner : ConversationLeaseOwner) (store : LeaseStore) (call : Call) : Prop :=
  GoesThrough parse call.io store ∧ ∃ lease now, call.request = .tryAcquire lease now ∧
    Text.isBlank lease.acquisitionId = false ∧ validateLease parse lease 0 = .ok () ∧
    lease.ownerKind = owner.ownerKind ∧ lease.ownerId = owner.ownerId ∧
    findActiveConflict parse call.clock store.leases lease.agentId lease.resumeSession now = none

/-- The acquisition is on file, for its agent; only a lifecycle lease may have been retargeted to
another session. -/
def OnFile (lease held : ConversationLease) : Prop :=
  held.owner = lease.owner ∧ held.agentId = lease.agentId ∧ held.mode = lease.mode ∧
    (held.resumeSession = lease.resumeSession ∨ lease.ownerKind = "agent_lifecycle")

/-- No acquisition at the instant `t` gets the agent or the session of the lease; a hold on a
previous provider session excludes its session only. -/
def Excludes (store : LeaseStore) (t : Int) (held : ConversationLease) : Prop :=
  ∀ io new now, Call.Timely parse ⟨t, io, .tryAcquire new now⟩ →
    (¬held.IsHold ∧ new.agentId = held.agentId) ∨
      (Text.isBlank new.resumeSession = false ∧ new.resumeSession = held.resumeSession) →
    (tryAcquireLease parse io t new now store).1 ≠ .ok .acquired ∧
      (tryAcquireLease parse io t new now store).2 = store

variable {parse} {store store' : LeaseStore} {clock clock' t : Int}
  {lease held : ConversationLease}

theorem onFile_self : OnFile lease lease := ⟨rfl, rfl, rfl, .inl rfl⟩

variable {leases : List ConversationLease} {new old : ConversationLease}

theorem mem_set_of_ne {index : Nat} (hold : leases[index]? = some old) (hmem : held ∈ leases)
    (hne : held ≠ old) : held ∈ leases.set index new := by
  obtain ⟨i, hi⟩ := List.getElem?_of_mem hmem
  refine List.mem_of_getElem? (i := i) ?_
  rw [List.getElem?_set_ne, hi]
  rintro rfl
  rw [hold, Option.some.injEq] at hi
  exact hne hi.symm

theorem mem_set_self {index : Nat} (hold : leases[index]? = some old) : new ∈ leases.set index new :=
  List.mem_set (List.getElem?_eq_some_iff.1 hold).1 new

/-- What one call keeps, if it neither releases nor displaces the acquisition. -/
theorem onFile_step (store : LeaseStore) (call : Call) (leases : List ConversationLease)
    (halwd : Retains lease.owner call ∧ ¬Displaces parse lease.owner store call)
    (hfile : ∃ held ∈ store.leases, OnFile lease held)
    (hchg : Change parse call store leases) : ∃ held ∈ leases, OnFile lease held := by
  obtain ⟨hreta, hdisp⟩ := halwd
  obtain ⟨held, hmem, hheld⟩ := hfile
  have hown := hheld.1
  unfold Retains at hreta
  cases hchg with
  | stay => exact ⟨held, hmem, hheld⟩
  | @acquired new now hreq hthru hid hval hfree =>
    refine ⟨held, mem_addOrReplaceOwner.2 (.inl ⟨hmem, fun hsame => hdisp ?_⟩), hheld⟩
    refine ⟨hthru, new, now, hreq, hid, hval, hsame.1.symm.trans ?_, hsame.2.symm.trans ?_, hfree⟩
    · exact congrArg ConversationLeaseOwner.ownerKind hown
    · exact congrArg ConversationLeaseOwner.ownerId hown
  | @renewed owner heartbeatAt expiresAt now index old hreq _ hnow hidx hold hown' hact =>
    by_cases hsame : held = old
    · subst hsame
      exact ⟨_, mem_set_self hold, hheld⟩
    · exact ⟨held, mem_set_of_ne hold hmem hsame, hheld⟩
  | @retargeted owner agentId provider session heartbeatAt expiresAt now index old hreq hnow
      hold hown' hkind hmode hagt hact hfree =>
      by_cases hsame : held = old
      · subst hsame
        refine ⟨_, mem_set_self hold, hown, hheld.2.1, hheld.2.2.1, .inr ?_⟩
        rw [← hkind, ← hown', hown]
        rfl
      · exact ⟨held, mem_set_of_ne hold hmem hsame, hheld⟩
  | held hreq => exact ⟨held, List.mem_append_left _ hmem, hheld⟩
  | releasedOwner hreq =>
    rw [hreq] at hreta
    exact hreta.elim
  | released hreq =>
    rw [hreq] at hreta
    exact ⟨held, mem_releaseLeaseOwner.2 ⟨hmem, fun h => hreta (h.symm.trans hown)⟩, hheld⟩
  | dropped hreq hreld hretain =>
    rw [hreq] at hreta
    refine ⟨held, mem_releaseLeaseOwner.2 ⟨hmem, fun h => ?_⟩, hheld⟩
    simp [hreld, hretain, h.symm.trans hown] at hreta

theorem excludes_of_active (hmem : held ∈ store.leases) (hact : held.Active parse t) :
    Excludes parse store t held := by
  intro io new now htimely hnms
  have hnow : (parse now).getD t ≤ t := by
    cases hpar : parse now with
    | none => exact Int.le_refl _
    | some n => exact htimely n hpar
  have hconf : leaseConflicts parse held new.agentId new.resumeSession
      ((parse now).getD t) = true := by
    by_cases hhold : held.IsHold
    · rcases hnms with ⟨hnot, -⟩ | ⟨hblk, hses⟩
      · exact absurd hhold hnot
      · have hmode : held.mode = "uncertain_previous_provider" := hhold
        simp [leaseConflicts, hmode, hses.symm, hblk]
    · refine (leaseConflicts_iff hhold).2 ⟨hact.mono hnow, hnms.imp ?_ ?_⟩
      · exact fun h => h.2.symm
      · exact fun h => ⟨h.1, h.2.symm⟩
  have hwp : Prog.Wp (tryAcquireLease parse io t new now)
      (fun outcome store' => outcome ≠ .acquired ∧ store' = store) (fun _ store' => store' = store)
      store := by
    refine wp_tryAcquireLease (fun _ => rfl) (fun _ _ => ⟨by simp, rfl⟩) fun _ _ _ hfree => ?_
    have hnone := findActiveConflict_eq_none.1 hfree held hmem
    rw [hconf] at hnone
    cases hnone
  rcases hrun : tryAcquireLease parse io t new now store with ⟨outcome | outcome, store'⟩
  · exact ⟨by simp, hwp.of_error hrun⟩
  · exact ⟨fun h => (hwp.of_ok hrun).1 (Except.ok.inj h), (hwp.of_ok hrun).2⟩

theorem onFile_of_acquired {io : Access} {now : String}
    (h : tryAcquireLease parse io clock lease now store = (.ok .acquired, store')) :
    ∃ held ∈ store'.leases, OnFile lease held := by
  have hwp : Prog.Wp (tryAcquireLease parse io clock lease now)
      (fun outcome store' => outcome = .acquired → lease ∈ store'.leases) (fun _ _ => True)
      store := by
    refine wp_tryAcquireLease (fun _ => trivial) (fun _ _ => nofun) fun _ _ _ _ _ => ?_
    exact mem_addOrReplaceOwner.2 (.inr rfl)
  exact ⟨lease, hwp.of_ok h rfl, onFile_self⟩

/-- **Retention.**  An acquisition that no later call releases or displaces stays on file, and while
it has not ended it excludes its agent and its session. -/
theorem acquired_remains {io : Access} {now : String}
    (hacqd : tryAcquireLease parse io clock lease now store = (.ok .acquired, store'))
    {final : LeaseStore}
    (h : Later parse (fun store call =>
      Retains lease.owner call ∧ ¬Displaces parse lease.owner store call) store' clock final clock') :
    ∃ held ∈ final.leases, OnFile lease held ∧
      ∀ t, held.Active parse t → Excludes parse final t held := by
  obtain ⟨held, hmem, hheld⟩ :=
    h.inv (I := fun leases _ => ∃ held ∈ leases, OnFile lease held)
      (fun store call leases _ _ _ halwd hfile => onFile_step store call leases halwd hfile)
      (onFile_of_acquired hacqd)
  exact ⟨held, hmem, hheld, fun t hact => excludes_of_active hmem hact⟩

/-! ### A run that acquires two agents -/

/-- The same run acquires another agent, while its first lease has not ended. -/
def runAcquiresOther : Call :=
  sampleCall 1 (.tryAcquire (sampleLease "agent-2" "other-acquisition") (minute 1))

@[irreducible] def oneLease : LeaseStore := LeaseStore.after sampleParse none runAcquires

@[irreducible] def otherLease : LeaseStore := oneLease.after sampleParse runAcquiresOther

theorem oneLease_acquired :
    tryAcquireLease sampleParse .fine (sampleInstant 0) (sampleLease "agent-1" "run-acquisition")
      (minute 0) none = (.ok .acquired, oneLease) := by
  unfold oneLease
  decide

/-- The guard of the first lease is told to retain it, and is dropped. -/
def guardDropped : Call :=
  sampleCall 2 (.dropGuard
    (PersistedConversationLeaseGuard.new (sampleLease "agent-1" "run-acquisition")).retainingOnDrop)

/-- The retained lease outlives its guard. -/
theorem acquired_remains_oneLease :
    ∃ held ∈ (oneLease.after sampleParse guardDropped).leases,
      OnFile (sampleLease "agent-1" "run-acquisition") held ∧
        ∀ t, held.Active sampleParse t →
          Excludes sampleParse (oneLease.after sampleParse guardDropped) t held := by
  refine acquired_remains oneLease_acquired
    (.step guardDropped .refl (by decide) (by decide) ⟨fun _ => .inr rfl, ?_⟩)
  rintro ⟨-, _, _, hreq, -⟩
  cases hreq

/-- **The displaced lease.**  By acquiring another agent, the run removes its first lease, which had
nine more minutes to go. -/
theorem displaced_by_own_run :
    tryAcquireLease sampleParse .fine (sampleInstant 0) (sampleLease "agent-1" "run-acquisition")
        (minute 0) none = (.ok .acquired, oneLease) ∧
      Later sampleParse
        (fun _ call => Retains (sampleLease "agent-1" "run-acquisition").owner call)
        oneLease (sampleInstant 0) otherLease (sampleInstant 1) ∧
      (sampleLease "agent-1" "run-acquisition").Active sampleParse (sampleInstant 1) ∧
      ∀ held ∈ otherLease.leases, held.owner ≠ (sampleLease "agent-1" "run-acquisition").owner := by
  refine ⟨oneLease_acquired, ?_, by decide +kernel, by decide +kernel⟩
  unfold otherLease
  exact .step runAcquiresOther .refl (by decide) (by decide) trivial

end Wardian.Leases
