/-
Mutual exclusion of conversation leases.

Two leases that have not ended never name the same agent or the same session, as long as no late
renewal revives a lease that another one has overtaken.  A renewal compares the end of its lease
with the time stamp that its caller read before it waited for the lock: the lease may have ended in
the meantime and another owner may have acquired the agent.  An acquisition and a retarget compare
the other leases with a time stamp that is too early, which excludes more leases, not fewer.

Main results:

* `Leases.separate_step` — what one call keeps;
* `Leases.History.mutual_exclusion` — **exclusion** over all histories without a reviving call;
* `Leases.renewed_past_competitor` — a late renewal breaks it.
-/

import Wardian.Leases.History

set_option autoImplicit false

namespace Wardian.Leases

open List

/-! ### Pairwise relations of lists -/

theorem pairwise_set {α : Type} {r : α → α → Prop} (hsymm : ∀ a b, r a b → r b a) {xs : List α} {i : Nat}
    {x : α} (h : xs.Pairwise r) (hx : ∀ j y, j ≠ i → xs[j]? = some y → r x y) : (xs.set i x).Pairwise r := by
  induction xs generalizing i with
  | nil => exact h
  | cons y ys ih =>
    obtain ⟨hy, hys⟩ := pairwise_cons.1 h
    cases i with
    | zero =>
      refine pairwise_cons.2 ⟨fun z hz => ?_, hys⟩
      obtain ⟨j, hj⟩ := getElem?_of_mem hz
      exact hx (j + 1) z (by omega) (by simpa using hj)
    | succ i =>
      refine pairwise_cons.2 ⟨fun z hz => ?_, ih hys fun j z hne hz => ?_⟩
      · rcases mem_or_eq_of_mem_set hz with hz | rfl
        · exact hy z hz
        · exact hsymm _ _ (hx 0 y (by omega) rfl)
      · exact hx (j + 1) z (by omega) (by simpa using hz)

/-- At most one element satisfies a predicate that no two elements satisfy. -/
theorem countP_le_one {α : Type} {p : α → Bool} {xs : List α}
    (h : xs.Pairwise fun a b => p a = true → p b = true → False) : xs.countP p ≤ 1 := by
  induction xs with
  | nil => simp
  | cons x xs ih =>
    obtain ⟨hx, hxs⟩ := pairwise_cons.1 h
    rw [countP_cons]
    by_cases hp : p x = true
    · have hnone : xs.countP p = 0 :=
        countP_eq_zero.2 fun y hy hpy => hx y hy hp hpy
      simp [hnone, hp]
    · simpa [hp] using ih hxs

/-! ### Exclusion -/

variable (parse : ParseRfc3339Utc)

/-- A lease that has not ended and is no hold on a previous provider session. -/
def ConversationLease.Counts (t : Int) (lease : ConversationLease) : Prop :=
  ¬lease.IsHold ∧ lease.Active parse t

instance (t : Int) (lease : ConversationLease) : Decidable (lease.Counts parse t) :=
  inferInstanceAs (Decidable (¬lease.IsHold ∧ lease.Active parse t))

/-- At most one lease that has not ended names an agent, and at most one names a session. -/
def Exclusive (leases : List ConversationLease) (t : Int) : Prop :=
  (∀ agentId, leases.countP
    (fun lease => decide (lease.Counts parse t) && lease.agentId == agentId) ≤ 1) ∧
  ∀ session, Text.isBlank session = false → leases.countP
    (fun lease => decide (lease.Counts parse t) && lease.resumeSession == session) ≤ 1

/-- Two leases name the same agent or the same session. -/
def ConversationLease.Shares (lease other : ConversationLease) : Prop :=
  other.agentId = lease.agentId ∨
    (Text.isBlank lease.resumeSession = false ∧ other.resumeSession = lease.resumeSession)

/-- Two leases do not exclude each other's owners. -/
def Apart (t : Int) (lease other : ConversationLease) : Prop :=
  ¬(lease.Counts parse t ∧ other.Counts parse t ∧ lease.Shares other)

/-- No two leases exclude each other's owners. -/
def Separate (leases : List ConversationLease) (t : Int) : Prop :=
  leases.Pairwise (Apart parse t)

/-- At the instant `t`, another lease that has not ended shares the agent or the session of the
lease at `index`. -/
def Contested (t : Int) (leases : List ConversationLease) (index : Nat)
    (lease : ConversationLease) : Prop :=
  ∃ i other, i ≠ index ∧ leases[i]? = some other ∧ other.Counts parse t ∧ lease.Shares other

/-- The call goes through and renews a lease beyond the instant at which it runs, while another lease
contests it.  The renewed lease had not ended at the heartbeat. -/
def Revives (store : LeaseStore) (call : Call) : Prop :=
  GoesThrough parse call.io store ∧ ∃ owner heartbeatAt expiresAt now index lease,
    call.request = .renew owner heartbeatAt expiresAt ∧ parse heartbeatAt = some now ∧
    (store.leases.findIdx? fun lease => leaseMatchesOwner lease owner) = some index ∧
    store.leases[index]? = some lease ∧ ¬lease.IsHold ∧ lease.Active parse now ∧
    endsAfter parse expiresAt call.clock = true ∧
    Contested parse call.clock store.leases index lease

variable {parse} {t t' : Int} {leases : List ConversationLease} {lease other : ConversationLease}

theorem ConversationLease.Shares.symm (h : lease.Shares other) : other.Shares lease := by
  rcases h with h | ⟨hblk, h⟩
  · exact .inl h.symm
  · exact .inr ⟨h ▸ hblk, h.symm⟩

theorem Apart.symm (h : Apart parse t lease other) : Apart parse t other lease :=
  fun ⟨hoth, hls, hshrs⟩ => h ⟨hls, hoth, hshrs.symm⟩

theorem ConversationLease.Counts.mono (h : lease.Counts parse t') (hle : t ≤ t') :
    lease.Counts parse t := ⟨h.1, h.2.mono hle⟩

theorem Separate.mono (h : Separate parse leases t) (hle : t ≤ t') : Separate parse leases t' :=
  h.imp fun hapart ⟨hls, hoth, hshrs⟩ =>
    hapart ⟨hls.mono hle, hoth.mono hle, hshrs⟩

theorem Separate.exclusive (h : Separate parse leases t) : Exclusive parse leases t := by
  constructor
  · intro agentId
    refine countP_le_one (h.imp fun hapart hls hoth => ?_)
    simp only [Bool.and_eq_true, decide_eq_true_eq, beq_iff_eq] at hls hoth
    exact hapart ⟨hls.1, hoth.1, .inl (hoth.2.trans hls.2.symm)⟩
  · intro session hses
    refine countP_le_one (h.imp fun hapart hls hoth => ?_)
    simp only [Bool.and_eq_true, decide_eq_true_eq, beq_iff_eq] at hls hoth
    exact hapart ⟨hls.1, hoth.1,
      .inr ⟨hls.2 ▸ hses, hoth.2.trans hls.2.symm⟩⟩

/-- A lease that excludes nobody from the agent and the session of `lease` is apart from it. -/
theorem apart_of_not_conflicts {now : Int} (hle : now ≤ t)
    (h : leaseConflicts parse other lease.agentId lease.resumeSession now = false) :
    Apart parse t lease other := by
  rintro ⟨-, hoth, hshrs⟩
  have hconf := (leaseConflicts_iff hoth.1).2 ⟨hoth.2.mono hle, hshrs⟩
  rw [h] at hconf
  cases hconf

theorem apart_of_isHold (h : other.IsHold) : Apart parse t lease other :=
  fun ⟨_, hoth, _⟩ => hoth.1 h

theorem previousProviderHold_isHold {agentId provider session now holdId acquisitionId : String} :
    (previousProviderHold agentId provider session now holdId acquisitionId).IsHold := rfl

theorem Separate.set {index : Nat} (h : Separate parse leases t)
    (hls : ∀ i other, i ≠ index → leases[i]? = some other → Apart parse t lease other) :
    Separate parse (leases.set index lease) t :=
  pairwise_set (fun _ _ => Apart.symm) h hls

theorem Separate.append (h : Separate parse leases t) (hls : ∀ other ∈ leases, Apart parse t lease other) :
    Separate parse (leases ++ [lease]) t :=
  pairwise_append.2 ⟨h, pairwise_singleton _ _,
    fun other hoth _ hlast => mem_singleton.1 hlast ▸ (hls other hoth).symm⟩

theorem separate_step (store : LeaseStore) (call : Call) (leases : List ConversationLease)
    (clock : Int) (hle : clock ≤ call.clock) (htimely : call.Timely parse)
    (halwd : ¬Revives parse store call) (hsepa : Separate parse store.leases clock)
    (hchg : Change parse call store leases) : Separate parse leases call.clock := by
  replace hsepa := hsepa.mono hle
  cases hchg with
  | stay => exact hsepa
  | @acquired lease now hreq _ _ _ hfree =>
    -- The caller's time stamp is too early, if anything, so the check was too strict.
    have hnow : (parse now).getD call.clock ≤ call.clock := by
      cases hpar : parse now with
      | none => exact Int.le_refl _
      | some n => exact htimely n (by rw [hreq]; exact hpar)
    rw [findActiveConflict_eq_none] at hfree
    refine Separate.append (hsepa.filter _) fun other hoth => ?_
    exact apart_of_not_conflicts hnow (hfree other (mem_releaseOwner.1 hoth).1)
  | @renewed owner heartbeatAt expiresAt now index lease hreq hthru hnow hidx hls _ hact =>
    refine hsepa.set fun i other hne hoth hboth => halwd ?_
    obtain ⟨hcounts, hothe, hshrs⟩ := hboth
    exact ⟨hthru, owner, heartbeatAt, expiresAt, now, index, lease, hreq, hnow, hidx, hls,
      hcounts.1, hact, hcounts.2, i, other, hne, hoth, hothe, hshrs⟩
  | @retargeted owner agentId provider session heartbeatAt expiresAt now index lease hreq hnow
      hls _ _ _ hagt _ hfree =>
      have hle := htimely now (by rw [hreq]; exact hnow)
      refine hsepa.set fun i other hne hoth => apart_of_not_conflicts hle ?_
      have hnone := hfree i other hne hoth
      rwa [← hagt] at hnone
  | held hreq =>
    exact hsepa.append fun _ _ => (apart_of_isHold previousProviderHold_isHold).symm
  | releasedOwner _ => exact hsepa.filter _
  | released _ => exact hsepa.filter _
  | dropped _ _ _ => exact hsepa.filter _

/-- **Mutual exclusion.**  In every history in which no call renews a contested lease, at every
instant, at most one lease that has not ended names an agent, and at most one names a session. -/
theorem History.mutual_exclusion {start clock : Int} {store : LeaseStore}
    (h : History parse (fun store call => ¬Revives parse store call) start store clock)
    (ht : clock ≤ t) : Exclusive parse store.leases t :=
  (Separate.mono (h.inv separate_step List.Pairwise.nil) ht).exclusive

/-! ### A late renewal -/

/-- A run holds agent-1 until minute 10 and reads minute 9 for its renewal; a delivery acquires the
agent at minute 11; the renewal gets the lock at minute 12. -/
def runAcquires : Call :=
  sampleCall 0 (.tryAcquire (sampleLease "agent-1" "run-acquisition") (minute 0))

def deliveryAcquires : Call :=
  sampleCall 11 (.tryAcquire { sampleLease "agent-1" "delivery-acquisition" with
    ownerKind := "message_delivery", expiresAt := minute 21 } (minute 11))

def runRenews : Call :=
  sampleCall 12
    (.renew (sampleLease "agent-1" "run-acquisition").owner (minute 9) (minute 19))

/-- The file before the late renewal, and after it. -/
@[irreducible] def beforeRenewal : LeaseStore :=
  LeaseStore.afterAll sampleParse none [runAcquires, deliveryAcquires]

@[irreducible] def afterRenewal : LeaseStore := beforeRenewal.after sampleParse runRenews

theorem history_beforeRenewal {allowed : LeaseStore → Call → Prop} (hfst : allowed none runAcquires)
    (hsec : allowed (LeaseStore.after sampleParse none runAcquires) deliveryAcquires) :
    History sampleParse allowed (sampleInstant 0) beforeRenewal (sampleInstant 11) := by
  unfold beforeRenewal
  exact .step deliveryAcquires (.step runAcquires .refl (by decide) (by decide)
    hfst) (by decide) (by decide) hsec

/-- Before the renewal, the delivery alone holds the agent. -/
theorem exclusive_beforeRenewal : Exclusive sampleParse beforeRenewal.leases (sampleInstant 12) := by
  refine History.mutual_exclusion (history_beforeRenewal ?_ ?_) (by decide)
  · rintro ⟨-, _, _, _, _, _, _, hreq, -⟩
    cases hreq
  · rintro ⟨-, _, _, _, _, _, _, hreq, -⟩
    cases hreq

/-- **The late renewal.**  Afterwards both the run and the delivery hold the agent. -/
theorem renewed_past_competitor :
    History sampleParse (fun _ _ => True) (sampleInstant 0) afterRenewal (sampleInstant 12) ∧
      ¬Exclusive sampleParse afterRenewal.leases (sampleInstant 12) := by
  constructor
  · unfold afterRenewal
    exact .step runRenews (history_beforeRenewal trivial trivial) (by decide)
      (by decide) trivial
  · intro h
    exact absurd (h.1 "agent-1") (by decide +kernel)

end Wardian.Leases
