/-
What becomes of the requests that were admitted.

A request that says something new is not settled before a claim is finished that was taken with it or
later.  Until then a claim is at work on its session, or the next request brings one.

Main results:

* `Pending.step`, `Pending.run` — what was admitted stays pending until a later claim is finished;
* `Retrying.reissued` — after a claim was dropped the next request brings another one;
* `capture_loses_nothing` — no observation is lost.
-/

import Wardian.Archive.BackgroundCapture

set_option autoImplicit false

namespace Wardian.BackgroundCapture

open Option
open List

/-! ### What is not settled -/

/-- Nothing that is on its way settles the count of an entry. -/
def Unsettled (live : List CaptureClaim) (sessionId : String) (entry : Entry) : Prop :=
  entry.servicedEpoch ≠ entry.epoch ∧ ∀ claim ∈ live, claim.request.sessionId = sessionId →
    entry.claim = some claim.nonce → claim.epoch ≠ entry.epoch

/-- What was admitted when the claims up to a number were out is not settled by one of those. -/
def EntryPending (k : Nat) (live : List CaptureClaim) (sessionId : String) (entry : Entry) : Prop :=
  (∃ n, entry.claim = some n ∧ k < n) ∨ entry.retry = true ∨ Unsettled live sessionId entry

def Pending (k : Nat) (sessionId : String) (s : State) : Prop :=
  ∀ entry, s.inner.entries[sessionId]? = some entry → EntryPending k s.live sessionId entry

variable {k : Nat} {sessionId : String} {entry : Entry}

theorem EntryPending.mono {live live' : List CaptureClaim} (h : EntryPending k live sessionId entry)
    (hlive : ∀ claim ∈ live', claim.request.sessionId = sessionId → claim ∈ live) :
    EntryPending k live' sessionId entry := by
  refine h.imp_right fun h => h.imp_right fun hun => ⟨hun.1, fun claim hclm hses => ?_⟩
  exact hun.2 claim (hlive claim hclm hses) hses

variable {s : State} {request : CaptureRequest} {force : Bool}

theorem unsettled_of_news (hinv : Inv s) (h : Observed s.inner request force entry)
    (hnews : ∀ old, s.inner.entries[request.sessionId]? = some old → old.News request force) :
    Unsettled s.live request.sessionId entry := by
  rcases h with ⟨old, hold, hobs⟩ | ⟨-, rfl⟩
  · rw [observe_of_news (hnews old hold)] at hobs
    obtain ⟨epoch, hepo, rfl⟩ := map_eq_some_iff.1 hobs
    obtain ⟨-, rfl⟩ := checkedSucc_eq_some.1 hepo
    have hent := hinv.entries _ old hold
    refine ⟨Nat.ne_of_lt (Nat.lt_succ_of_le hent.serviced), fun claim hclm hses hnonce => ?_⟩
    have hfnd : s.inner.entries[claim.request.sessionId]? = some old := by rwa [hses]
    exact Nat.ne_of_lt (Nat.lt_succ_of_le (hinv.epoch_le ⟨hclm, hfnd, hnonce⟩))
  · refine ⟨Nat.zero_ne_one, fun claim _ _ hnonce => ?_⟩
    cases hnonce

namespace Pending

variable {k : Nat} {sessionId : String} {s : State}

theorem change (h : Pending k sessionId s) {changed : String} {entry : Option Entry} {inner : Inner}
    {live : List CaptureClaim} (hputs : s.inner.Puts inner changed entry)
    (hlive : changed ≠ sessionId → ∀ claim ∈ live, claim.request.sessionId = sessionId → claim ∈ s.live)
    (hent : changed = sessionId → ∀ found, entry = some found → EntryPending k live sessionId found) :
    Pending k sessionId ⟨inner, live⟩ := by
  intro found hfnd
  change inner.entries[sessionId]? = some found at hfnd
  rw [hputs sessionId] at hfnd
  split at hfnd
  next heq => exact hent heq found hfnd
  next hne => exact (h found hfnd).mono (hlive hne)

theorem issue (h : Pending k sessionId s) (hk : k ≤ s.inner.nextClaim) {changed : String} {entry : Entry}
    {result : Inner × Option CaptureClaim} (hses : entry.request.sessionId = changed)
    (hiss : Issues s.inner changed entry result) : Pending k sessionId (s.handOut result) := by
  unfold State.handOut
  rw [hiss.claim]
  refine h.change hiss.puts ?_ ?_
  · intro hne claim hclm hsame
    rcases mem_cons.1 hclm with rfl | hclm
    · exact absurd (hses.symm.trans hsame) hne
    · exact hclm
  · intro _ found hfnd
    rw [← Option.some.inj hfnd]
    exact .inl ⟨_, rfl, Nat.lt_succ_of_le hk⟩

/-- What is pending when an owner gives its claim back that is older. -/
theorem unsettled_of_owner (h : Pending k sessionId s) (hinv : Inv s) {claim : CaptureClaim} {entry : Entry}
    (howns : Owns s claim entry) (hses : claim.request.sessionId = sessionId) (hle : claim.nonce ≤ k) :
    claim.epoch ≠ entry.epoch := by
  have hfnd := howns.found
  rw [hses] at hfnd
  rcases h entry hfnd with ⟨n, hn, hlt⟩ | hretry | hun
  · rw [howns.nonce] at hn
    obtain rfl := Option.some.inj hn
    exact absurd hle (Nat.not_le.2 hlt)
  · have hnone := (hinv.entries _ entry hfnd).quiet hretry
    rw [howns.nonce] at hnone
    cases hnone
  · exact hun.2 claim howns.live hses howns.nonce

/-- What was admitted stays pending until a later claim of its session is finished. -/
theorem step (h : Pending k sessionId s) (hinv : Inv s) (hk : k ≤ s.inner.nextClaim) {call : Call} {s' : State}
    (hstep : BackgroundCapture.step s call = some s')
    (hfin : ∀ claim stop, call = .finish claim stop → claim.request.sessionId = sessionId →
      claim.nonce ≤ k) : Pending k sessionId s' := by
  cases call with
  | admitCapture request force =>
    obtain rfl := Option.some.inj hstep
    rcases admit_cases s.inner request force with ⟨-, hres⟩ | ⟨entry, hobsd, hcs⟩
    · rw [hres]
      exact h
    · rcases hcs with ⟨-, hclm, hnext, hputs⟩ | ⟨-, hiss⟩
      · unfold State.handOut
        rw [hclm]
        refine h.change hputs (fun _ claim hclm _ => hclm) ?_
        rintro rfl found hfnd
        obtain rfl := Option.some.inj hfnd
        by_cases hnews : ∀ old, s.inner.entries[request.sessionId]? = some old → old.News request force
        · exact .inr (.inr (unsettled_of_news hinv hobsd hnews))
        · -- the entry is as it was before
          obtain ⟨old, hnews⟩ := not_forall.1 hnews
          obtain ⟨hold, hnews⟩ := Classical.not_imp.1 hnews
          rcases hobsd with ⟨other, hoth, hobs⟩ | ⟨hnone, -⟩
          · obtain rfl := Option.some.inj (hold.symm.trans hoth)
            rw [observe_of_not_news hnews] at hobs
            exact Option.some.inj hobs ▸ h old hold
          · rw [hold] at hnone
            cases hnone
      · exact h.issue hk (observed_inv hinv.entries hobsd).session hiss
  | takePending session =>
    obtain rfl := Option.some.inj hstep
    rcases takePending_cases s.inner session with hres | ⟨entry, hfnd, -, -, hiss⟩
    · rw [hres]
      exact h
    · exact h.issue hk (hinv.entries _ entry hfnd).session hiss
  | finish claim stop =>
    rw [BackgroundCapture.step, ite_none_right_eq_some] at hstep
    obtain ⟨hlive, heq⟩ := hstep
    obtain rfl := Option.some.inj heq
    rcases finish_cases s.inner claim stop with ⟨-, hres⟩ | ⟨entry, hfnd, hnonce, -, hputs⟩
    · rw [hres]
      exact fun entry hent => (h entry hent).mono fun other hoth _ => mem_of_mem_erase hoth
    · refine h.change hputs (fun _ other hoth _ => mem_of_mem_erase hoth) ?_
      intro hses left hleft
      have hne := h.unsettled_of_owner hinv ⟨hlive, hfnd, hnonce⟩ hses
        (hfin claim stop rfl hses)
      obtain ⟨hepo, hserv, hclm, -, -⟩ := Inv.finished_left hleft
      refine .inr (.inr ⟨?_, fun other _ _ hoth => ?_⟩)
      · rwa [hepo, hserv]
      · rw [hclm] at hoth
        cases hoth
  | drop claim =>
    rw [BackgroundCapture.step, ite_none_right_eq_some] at hstep
    obtain ⟨-, heq⟩ := hstep
    obtain rfl := Option.some.inj heq
    rcases dropClaim_cases s.inner claim with ⟨-, hres⟩ | ⟨entry, -, -, -, hputs⟩
    · rw [hres]
      exact fun entry hent => (h entry hent).mono fun other hoth _ => mem_of_mem_erase hoth
    · refine h.change hputs (fun _ other hoth _ => mem_of_mem_erase hoth) ?_
      intro _ left hleft
      rw [← Option.some.inj hleft]
      exact .inr (.inl rfl)
  | retainAgents sessions =>
    obtain rfl := Option.some.inj hstep
    intro entry hent
    change (retainAgents s.inner sessions).entries[sessionId]? = some entry at hent
    rw [retainAgents_entries, filter_eq_some_iff] at hent
    exact h entry hent.1

end Pending

variable {s' : State}

theorem nextClaim_le {call : Call} (hstep : step s call = some s') :
    s.inner.nextClaim ≤ s'.inner.nextClaim := by
  cases call with
  | admitCapture request force =>
    obtain rfl := Option.some.inj hstep
    change _ ≤ (admitCapture s.inner request force).1.nextClaim
    rcases admit_cases s.inner request force with ⟨-, hres⟩ | ⟨entry, -, ⟨-, -, hnext, -⟩ | ⟨-, hiss⟩⟩
    · rw [hres]
    · exact Nat.le_of_eq hnext.symm
    · rw [hiss.next]
      exact Nat.le_succ _
  | takePending session =>
    obtain rfl := Option.some.inj hstep
    change _ ≤ (takePending s.inner session).1.nextClaim
    rcases takePending_cases s.inner session with hres | ⟨entry, -, -, -, hiss⟩
    · rw [hres]
    · rw [hiss.next]
      exact Nat.le_succ _
  | finish claim stop =>
    rw [step, ite_none_right_eq_some] at hstep
    obtain rfl := Option.some.inj hstep.2
    change _ ≤ (finish s.inner claim stop).nextClaim
    rcases finish_cases s.inner claim stop with ⟨-, hres⟩ | ⟨entry, -, -, hnext, -⟩
    · rw [hres]
    · exact Nat.le_of_eq hnext.symm
  | drop claim =>
    rw [step, ite_none_right_eq_some] at hstep
    obtain rfl := Option.some.inj hstep.2
    change _ ≤ (dropClaim s.inner claim).nextClaim
    rcases dropClaim_cases s.inner claim with ⟨-, hres⟩ | ⟨entry, -, -, hnext, -⟩
    · rw [hres]
    · exact Nat.le_of_eq hnext.symm
  | retainAgents sessions =>
    obtain rfl := Option.some.inj hstep
    exact Nat.le_refl _

theorem Pending.run {calls : List Call} (h : Pending k sessionId s) (hinv : Inv s)
    (hk : k ≤ s.inner.nextClaim) (hrun : BackgroundCapture.run s calls = some s')
    (hfin : ∀ claim stop, .finish claim stop ∈ calls → claim.request.sessionId = sessionId →
      claim.nonce ≤ k) : Pending k sessionId s' := by
  induction calls generalizing s with
  | nil =>
    obtain rfl := Option.some.inj hrun
    exact h
  | cons call calls ih =>
    obtain ⟨middle, hstep, hrest⟩ := bind_eq_some_iff.1 hrun
    refine ih (h.step hinv hk hstep ?_) (hinv.step hstep) (Nat.le_trans hk (nextClaim_le hstep)) hrest ?_
    · exact fun claim stop heq => hfin claim stop (heq ▸ mem_cons_self ..)
    · exact fun claim stop hmem => hfin claim stop (mem_cons_of_mem _ hmem)

/-! ### Nothing is lost -/

/-- The counters of a session are not used up. -/
def HasRoom (inner : Inner) (sessionId : String) : Prop :=
  inner.nextClaim < u64Max ∧ ∀ entry, inner.entries[sessionId]? = some entry → entry.epoch < u64Max

/-- A request says something that the entry of its session does not know, and the entry can count it. -/
def HasNews (inner : Inner) (request : CaptureRequest) (force : Bool) : Prop :=
  ∀ entry, inner.entries[request.sessionId]? = some entry →
    entry.News request force ∧ entry.epoch < u64Max

/-- A claim is at work on a session, or the next request of the session brings one. -/
def Guarded (s : State) (sessionId : String) : Prop :=
  (∃ claim entry, Owns s claim entry ∧ claim.request.sessionId = sessionId) ∨
    ∀ (request : CaptureRequest) (force : Bool), request.sessionId = sessionId →
      ∃ claim, (admitCapture s.inner request force).2 = some claim ∧ claim.request.sessionId = sessionId

/-- An entry that waits for the next request after its claim was dropped. -/
def Retrying (s : State) (sessionId : String) (request : CaptureRequest) : Prop :=
  ∀ entry, s.inner.entries[sessionId]? = some entry →
    entry.retry = true ∧ entry.claim = none ∧ entry.request = request

theorem pending_of_news (hinv : Inv s) (hnews : HasNews s.inner request force)
    (hstep : step s (.admitCapture request force) = some s') : Pending s.inner.nextClaim request.sessionId s' := by
  obtain rfl := Option.some.inj hstep
  unfold State.handOut
  rcases admit_cases s.inner request force with ⟨⟨old, hold, hfull⟩, -⟩ | ⟨entry, hobsd, hcs⟩
  · exact absurd (hnews old hold).2 (Nat.not_lt.2 hfull)
  · have hunse := unsettled_of_news hinv hobsd fun old hold => (hnews old hold).1
    rcases hcs with ⟨-, hclm, -, hputs⟩ | ⟨-, hiss⟩
    · rw [hclm]
      intro found hfnd
      change (admitCapture s.inner request force).1.entries[request.sessionId]? = some found at hfnd
      rw [hputs, if_pos rfl] at hfnd
      rw [← Option.some.inj hfnd]
      exact .inr (.inr hunse)
    · intro found hfnd
      change (admitCapture s.inner request force).1.entries[request.sessionId]? = some found at hfnd
      rw [hiss.puts, if_pos rfl] at hfnd
      rw [← Option.some.inj hfnd]
      exact .inl ⟨_, rfl, Nat.lt_succ_self _⟩

/-- A request that finds its entry open is answered with a claim. -/
theorem admit_issues {inner : Inner} (hroom : HasRoom inner request.sessionId)
    (hopen : ∀ entry, Observed inner request force entry → entry.Open) :
    ∃ entry, Observed inner request force entry ∧
      Issues inner request.sessionId entry (admitCapture inner request force) := by
  rcases admit_cases inner request force with ⟨⟨old, hold, hfull⟩, -⟩ | ⟨entry, hobsd, hcs⟩
  · exact absurd (hroom.2 old hold) (Nat.not_lt.2 hfull)
  · rcases hcs with ⟨hnot | hfull, -⟩ | ⟨-, hiss⟩
    · exact absurd (hopen entry hobsd) hnot
    · exact absurd hroom.1 (Nat.not_lt.2 hfull)
    · exact ⟨entry, hobsd, hiss⟩

theorem fresh_open (request : CaptureRequest) : (Entry.fresh request).Open :=
  ⟨rfl, .inr Nat.zero_ne_one⟩

theorem open_of_observe (hinv : Inv s) {old : Entry} (hold : s.inner.entries[request.sessionId]? = some old)
    (hopen : old.Open) (h : old.observe request force = some entry) : entry.Open := by
  rcases observe_eq_some h with rfl | ⟨-, rfl⟩
  · exact hopen
  · exact ⟨hopen.free, .inr (Nat.ne_of_lt (Nat.lt_succ_of_le (hinv.entries _ old hold).serviced))⟩

theorem guarded_of_pending (hinv : Inv s)
    (h : Pending k sessionId s) (hroom : HasRoom s.inner sessionId) : Guarded s sessionId := by
  by_cases howned : ∃ entry n, s.inner.entries[sessionId]? = some entry ∧ entry.claim = some n
  · obtain ⟨entry, n, hfnd, hclm⟩ := howned
    obtain ⟨claim, hlive, rfl, hses, -⟩ := (hinv.entries _ entry hfnd).owner n hclm
    exact .inl ⟨claim, entry, ⟨hlive, by rwa [hses], hclm⟩, hses⟩
  · refine .inr fun request force hreq => ?_
    subst hreq
    have hopen : ∀ entry, Observed s.inner request force entry → entry.Open := by
      rintro entry (⟨old, hold, hobs⟩ | ⟨-, rfl⟩)
      · have hfree : old.claim = none := by
          refine eq_none_iff_forall_ne_some.2 fun n hn => howned ⟨old, n, hold, hn⟩
        refine open_of_observe hinv hold ⟨hfree, ?_⟩ hobs
        rcases h old hold with ⟨n, hn, -⟩ | hretry | hun
        · rw [hfree] at hn
          cases hn
        · exact .inl hretry
        · exact .inr hun.1
      · exact fresh_open request
    obtain ⟨entry, hobsd, hiss⟩ := admit_issues hroom hopen
    exact ⟨_, hiss.claim, (observed_inv hinv.entries hobsd).session⟩

namespace Retrying

variable {s s' : State} {sessionId : String} {request : CaptureRequest}

theorem step (h : Retrying s sessionId request) {call : Call}
    (hstep : BackgroundCapture.step s call = some s')
    (hadm : ∀ other force, call = .admitCapture other force → other.sessionId ≠ sessionId) :
    Retrying s' sessionId request := by
  have hputs : ∀ {changed : String} {entry : Option Entry} {inner : Inner},
      s.inner.Puts inner changed entry → changed ≠ sessionId →
        ∀ found, inner.entries[sessionId]? = some found → found.retry = true ∧ found.claim = none ∧
          found.request = request := by
    intro changed entry inner hputs hne found hfnd
    rw [hputs, if_neg hne] at hfnd
    exact h found hfnd
  cases call with
  | admitCapture other force =>
    obtain rfl := Option.some.inj hstep
    have hne := hadm other force rfl
    rcases admit_cases s.inner other force with ⟨-, hres⟩ | ⟨entry, -, ⟨-, -, -, hput⟩ | ⟨-, hiss⟩⟩
    · rw [hres]
      exact h
    · exact hputs hput hne
    · exact hputs hiss.puts hne
  | takePending session =>
    obtain rfl := Option.some.inj hstep
    rcases takePending_cases s.inner session with hres | ⟨entry, hfnd, -, hretry, hiss⟩
    · rw [hres]
      exact h
    · refine hputs hiss.puts ?_
      rintro rfl
      rw [(h entry hfnd).1] at hretry
      cases hretry
  | finish claim stop =>
    rw [BackgroundCapture.step, ite_none_right_eq_some] at hstep
    obtain rfl := Option.some.inj hstep.2
    rcases finish_cases s.inner claim stop with ⟨-, hres⟩ | ⟨entry, hfnd, hnonce, -, hput⟩
    · rw [hres]
      exact h
    · refine hputs hput ?_
      rintro rfl
      rw [(h entry hfnd).2.1] at hnonce
      cases hnonce
  | drop claim =>
    rw [BackgroundCapture.step, ite_none_right_eq_some] at hstep
    obtain rfl := Option.some.inj hstep.2
    rcases dropClaim_cases s.inner claim with ⟨-, hres⟩ | ⟨entry, hfnd, hnonce, -, hput⟩
    · rw [hres]
      exact h
    · refine hputs hput ?_
      rintro rfl
      rw [(h entry hfnd).2.1] at hnonce
      cases hnonce
  | retainAgents sessions =>
    obtain rfl := Option.some.inj hstep
    intro entry hent
    change (retainAgents s.inner sessions).entries[sessionId]? = some entry at hent
    rw [retainAgents_entries, filter_eq_some_iff] at hent
    exact h entry hent.1

theorem run {calls : List Call} (h : Retrying s sessionId request)
    (hrun : BackgroundCapture.run s calls = some s')
    (hadm : ∀ other force, .admitCapture other force ∈ calls → other.sessionId ≠ sessionId) :
    Retrying s' sessionId request := by
  induction calls generalizing s with
  | nil =>
    obtain rfl := Option.some.inj hrun
    exact h
  | cons call calls ih =>
    obtain ⟨middle, hstep, hrest⟩ := bind_eq_some_iff.1 hrun
    refine ih (h.step hstep ?_) hrest ?_
    · exact fun other force heq => hadm other force (heq ▸ mem_cons_self ..)
    · exact fun other force hmem => hadm other force (mem_cons_of_mem _ hmem)

/-- The next request is answered with a claim, which carries it or the request that was kept. -/
theorem reissued (h : Retrying s sessionId request) (hinv : Inv s) (hroom : HasRoom s.inner sessionId)
    (other : CaptureRequest) (force : Bool) (hses : other.sessionId = sessionId) :
    ∃ claim, (admitCapture s.inner other force).2 = some claim ∧
      (claim.request = request ∨ claim.request = other) := by
  subst hses
  have hopen : ∀ entry, Observed s.inner other force entry → entry.Open := by
    rintro entry (⟨old, hold, hobs⟩ | ⟨-, rfl⟩)
    · obtain ⟨hretry, hfree, -⟩ := h old hold
      exact open_of_observe hinv hold ⟨hfree, .inl hretry⟩ hobs
    · exact fresh_open other
  obtain ⟨entry, hobsd, hiss⟩ := admit_issues hroom hopen
  refine ⟨_, hiss.claim, ?_⟩
  rcases hobsd with ⟨old, hold, hobs⟩ | ⟨-, rfl⟩
  · rcases observe_eq_some hobs with rfl | ⟨-, rfl⟩
    · exact .inl (h entry hold).2.2
    · exact .inr rfl
  · exact .inr rfl

end Retrying

theorem retrying_of_drop {claim : CaptureClaim} (howns : Owns s claim entry)
    (hstep : step s (.drop claim) = some s') : Retrying s' claim.request.sessionId entry.request := by
  rw [step, ite_none_right_eq_some] at hstep
  obtain rfl := Option.some.inj hstep.2
  rcases dropClaim_cases s.inner claim with ⟨hnot, -⟩ | ⟨other, hfnd, -, -, hputs⟩
  · exact absurd howns.nonce (hnot entry howns.found)
  · obtain rfl := Option.some.inj (howns.found.symm.trans hfnd)
    intro found hfnd'
    change (dropClaim s.inner claim).entries[claim.request.sessionId]? = some found at hfnd'
    rw [hputs, if_pos rfl] at hfnd'
    rw [← Option.some.inj hfnd']
    exact ⟨rfl, rfl, rfl⟩

/-! ### Only the owner settles -/

/-- What one change of the entries does to an entry that is there before and after it. -/
theorem puts_cases {inner inner' : Inner} {k : String} {put : Option Entry} {entry' : Entry}
    (hputs : inner.Puts inner' sessionId put) (hfnd : inner.entries[k]? = some entry)
    (hfnd' : inner'.entries[k]? = some entry') : entry' = entry ∨ (sessionId = k ∧ put = some entry') := by
  rw [hputs] at hfnd'
  split at hfnd'
  next heq => exact .inr ⟨heq, hfnd'⟩
  next => exact .inl (Option.some.inj (hfnd'.symm.trans hfnd))

/-- What a call does to an entry that is there before and after it. -/
theorem kept_cases {call : Call} (hstep : step s call = some s') {k : String} {entry' : Entry}
    (hfnd : s.inner.entries[k]? = some entry) (hfnd' : s'.inner.entries[k]? = some entry') :
    (entry'.servicedEpoch = entry.servicedEpoch ∧ entry'.awaitObservation = entry.awaitObservation ∧
        (entry'.claim = entry.claim ∨ entry.claim = none ∨
          ∃ claim, call = .drop claim ∧ Owns s claim entry)) ∨
      ∃ claim stop, call = .finish claim stop ∧ Owns s claim entry := by
  have hsame : entry' = entry → (entry'.servicedEpoch = entry.servicedEpoch ∧
      entry'.awaitObservation = entry.awaitObservation ∧ (entry'.claim = entry.claim ∨ entry.claim = none ∨
        ∃ claim, call = .drop claim ∧ Owns s claim entry)) ∨
      ∃ claim stop, call = .finish claim stop ∧ Owns s claim entry := by
    rintro rfl
    exact .inl ⟨rfl, rfl, .inl rfl⟩
  have hsameInner : s'.inner = s.inner → entry' = entry := by
    intro heq
    rw [heq] at hfnd'
    exact Option.some.inj (hfnd'.symm.trans hfnd)
  cases call with
  | admitCapture request force =>
    obtain rfl := Option.some.inj hstep
    -- what the request does to its entry leaves all but the count and the request
    have hobs : ∀ found, request.sessionId = k → Observed s.inner request force found →
        found.servicedEpoch = entry.servicedEpoch ∧ found.awaitObservation = entry.awaitObservation ∧
          found.claim = entry.claim := by
      rintro found rfl (⟨old, hold, hobs⟩ | ⟨hnone, -⟩)
      · obtain rfl := Option.some.inj (hfnd.symm.trans hold)
        rcases observe_eq_some hobs with rfl | ⟨-, rfl⟩
        · exact ⟨rfl, rfl, rfl⟩
        · exact ⟨rfl, rfl, rfl⟩
      · rw [hfnd] at hnone
        cases hnone
    rcases admit_cases s.inner request force with
      ⟨-, hres⟩ | ⟨found, hobsd, ⟨-, -, -, hputs⟩ | ⟨hopen, hiss⟩⟩
    · exact hsame (hsameInner (congrArg Prod.fst hres))
    · rcases puts_cases hputs hfnd hfnd' with heq | ⟨hk, hput⟩
      · exact hsame heq
      · obtain rfl := Option.some.inj hput
        obtain ⟨hserv, hawait, hclm⟩ := hobs _ hk hobsd
        exact .inl ⟨hserv, hawait, .inl hclm⟩
    · rcases puts_cases hiss.puts hfnd hfnd' with heq | ⟨hk, hput⟩
      · exact hsame heq
      · obtain ⟨hserv, hawait, hclm⟩ := hobs _ hk hobsd
        rw [← Option.some.inj hput]
        exact .inl ⟨hserv, hawait, .inr (.inl (hclm.symm.trans hopen.free))⟩
  | takePending session =>
    obtain rfl := Option.some.inj hstep
    rcases takePending_cases s.inner session with hres | ⟨found, hold, hfree, -, hiss⟩
    · exact hsame (hsameInner (congrArg Prod.fst hres))
    · rcases puts_cases hiss.puts hfnd hfnd' with heq | ⟨rfl, hput⟩
      · exact hsame heq
      · obtain rfl := Option.some.inj (hfnd.symm.trans hold)
        rw [← Option.some.inj hput]
        exact .inl ⟨rfl, rfl, .inr (.inl hfree)⟩
  | finish claim stop =>
    rw [step, ite_none_right_eq_some] at hstep
    obtain ⟨hlive, heq⟩ := hstep
    obtain rfl := Option.some.inj heq
    rcases finish_cases s.inner claim stop with ⟨-, hres⟩ | ⟨found, hold, hnonce, -, hputs⟩
    · exact hsame (hsameInner hres)
    · rcases puts_cases hputs hfnd hfnd' with heq | ⟨rfl, -⟩
      · exact hsame heq
      · obtain rfl := Option.some.inj (hfnd.symm.trans hold)
        exact .inr ⟨claim, stop, rfl, hlive, hold, hnonce⟩
  | drop claim =>
    rw [step, ite_none_right_eq_some] at hstep
    obtain ⟨hlive, heq⟩ := hstep
    obtain rfl := Option.some.inj heq
    rcases dropClaim_cases s.inner claim with ⟨-, hres⟩ | ⟨found, hold, hnonce, -, hputs⟩
    · exact hsame (hsameInner hres)
    · rcases puts_cases hputs hfnd hfnd' with heq | ⟨rfl, hput⟩
      · exact hsame heq
      · obtain rfl := Option.some.inj (hfnd.symm.trans hold)
        rw [← Option.some.inj hput]
        exact .inl ⟨rfl, rfl, .inr (.inr ⟨claim, rfl, hlive, hold, hnonce⟩)⟩
  | retainAgents sessions =>
    obtain rfl := Option.some.inj hstep
    change (retainAgents s.inner sessions).entries[k]? = some entry' at hfnd'
    rw [retainAgents_entries, filter_eq_some_iff] at hfnd'
    exact hsame (Option.some.inj (hfnd'.1.symm.trans hfnd))

/-- What the coordinator promises from a state on. -/
structure LosesNothing (s : State) : Prop where
  owner : ∀ claim other entry, Owns s claim entry → Owns s other entry → claim = other
  settled : ∀ call s', step s call = some s' → ∀ (k : String) (entry entry' : Entry),
    s.inner.entries[k]? = some entry → s'.inner.entries[k]? = some entry' →
      entry'.servicedEpoch ≠ entry.servicedEpoch ∨ entry'.awaitObservation ≠ entry.awaitObservation →
        ∃ claim stop, call = .finish claim stop ∧ Owns s claim entry
  released : ∀ call s', step s call = some s' → ∀ (k : String) (entry entry' : Entry) (n : Nat),
    s.inner.entries[k]? = some entry → s'.inner.entries[k]? = some entry' → entry.claim = some n →
      entry'.claim ≠ some n →
        ∃ claim, Owns s claim entry ∧ (call = .drop claim ∨ ∃ stop, call = .finish claim stop)
  pending : ∀ request force s₁ later s₂, HasNews s.inner request force →
    step s (.admitCapture request force) = some s₁ → run s₁ later = some s₂ →
      (∀ claim stop, .finish claim stop ∈ later → claim.request.sessionId = request.sessionId →
        claim.nonce ≤ s.inner.nextClaim) →
      HasRoom s₂.inner request.sessionId → Guarded s₂ request.sessionId
  dropped : ∀ claim entry s₁ later s₂, Owns s claim entry → step s (.drop claim) = some s₁ →
    run s₁ later = some s₂ →
      (∀ request force, .admitCapture request force ∈ later → request.sessionId ≠ claim.request.sessionId) →
      HasRoom s₂.inner claim.request.sessionId → ∀ request force,
        request.sessionId = claim.request.sessionId →
          ∃ other, (admitCapture s₂.inner request force).2 = some other ∧
            (other.request = entry.request ∨ other.request = request)

/-- No observation is lost, whatever is called in whatever order. -/
theorem capture_loses_nothing {calls : List Call} {s : State} (hrun : run State.empty calls = some s) :
    LosesNothing s := by
  have hinv : Inv s := Inv.empty.run hrun
  constructor
  case owner =>
    intro claim other entry howns howns'
    refine hinv.distinct claim howns.live other howns'.live ?_
    exact Option.some.inj (howns.nonce.symm.trans howns'.nonce)
  case settled =>
    intro call s' hstep k entry entry' hfnd hfnd' hchgd
    rcases kept_cases hstep hfnd hfnd' with ⟨hserv, hawait, -⟩ | hown
    · rcases hchgd with h | h
      · exact absurd hserv h
      · exact absurd hawait h
    · exact hown
  case released =>
    intro call s' hstep k entry entry' n hfnd hfnd' hclm hchgd
    rcases kept_cases hstep hfnd hfnd' with ⟨-, -, hsame | hnone | ⟨claim, hcall, howns⟩⟩ | ⟨claim, stop, hcall, howns⟩
    · exact absurd (hsame.trans hclm) hchgd
    · rw [hclm] at hnone
      cases hnone
    · exact ⟨claim, howns, .inl hcall⟩
    · exact ⟨claim, howns, .inr ⟨stop, hcall⟩⟩
  case pending =>
    intro request force s₁ later s₂ hnews hstep hltr hfin hroom
    have hadm := pending_of_news hinv hnews hstep
    have hinv₁ := hinv.step hstep
    have hpend := hadm.run hinv₁ (nextClaim_le hstep) hltr hfin
    exact guarded_of_pending (hinv₁.run hltr) hpend hroom
  case dropped =>
    intro claim entry s₁ later s₂ howns hstep hltr hadm hroom request force hses
    have hretr := (retrying_of_drop howns hstep).run hltr hadm
    exact hretr.reissued ((hinv.step hstep).run hltr) hroom request force hses

/-! ### Where a request is not answered -/

def sampleRequest (loggingEnabled : Bool) : CaptureRequest where
  sessionId := "agent"
  incarnation := 0
  provider := "codex"
  conversation := some "conversation"
  sourcePath := some "provider.jsonl"
  source := none
  loggingEnabled := loggingEnabled

def sampleClaim (nonce : Nat) : CaptureClaim := ⟨sampleRequest true, 1, nonce⟩

/-- A capture that found logging disabled, and the request that says so. -/
def disabledCalls : List Call :=
  [.admitCapture (sampleRequest true) false, .finish (sampleClaim 1) .disabled, .admitCapture (sampleRequest false) false]

/-- A claim that is dropped when its agent left and came back. -/
def replacedCalls : List Call :=
  [.admitCapture (sampleRequest true) false, .retainAgents [], .admitCapture (sampleRequest true) false,
    .finish (sampleClaim 2) .more, .drop (sampleClaim 1)]

theorem loses_nothing_replaced : ∃ s, run State.empty replacedCalls = some s ∧ LosesNothing s := by
  have hsome : (run State.empty replacedCalls).isSome = true := by decide +kernel
  obtain ⟨s, hrun⟩ := isSome_iff_exists.1 hsome
  exact ⟨s, hrun, capture_loses_nothing hrun⟩

/-- What the next request brings. -/
def answer (calls : List Call) (request : CaptureRequest) (force : Bool) :
    Option (List CaptureClaim × Option CaptureClaim) :=
  (run State.empty calls).map fun s => (s.live, (admitCapture s.inner request force).2)

theorem run_concat (s : State) (calls : List Call) (call : Call) :
    run s (calls ++ [call]) = (run s calls).bind fun s' => step s' call := by
  unfold run
  rw [foldlM_append]
  refine Option.bind_congr fun s' _ => ?_
  rw [foldlM_cons]
  cases step s' call with
  | none => rfl
  | some _ => rfl

theorem run_forced (n : Nat) (h : n < u64Max) :
    ∃ s, run State.empty (replicate (n + 1) (.admitCapture (sampleRequest true) true)) = some s ∧
      s.live = [sampleClaim 1] ∧
      s.inner.entries["agent"]? = some ⟨sampleRequest true, n + 1, 0, some 1, false, false⟩ := by
  induction n with
  | zero =>
    exact ⟨State.empty.handOut (admitCapture Inner.empty (sampleRequest true) true), rfl, by decide,
      by decide⟩
  | succ n ih =>
    obtain ⟨s, hrun, hlive, hent⟩ := ih (Nat.lt_of_succ_lt h)
    rw [replicate_succ', run_concat, hrun]
    have hobsd : Observed s.inner (sampleRequest true) true
        ⟨sampleRequest true, n + 2, 0, some 1, false, false⟩ := by
      refine .inl ⟨_, hent, ?_⟩
      rw [observe_of_news (.inl rfl), checkedSucc_eq_some.2 ⟨h, rfl⟩]
      rfl
    refine ⟨_, rfl, ?_, ?_⟩
    · unfold State.handOut
      rw [admit_of_observed hobsd]
      exact hlive
    · unfold State.handOut
      rw [admit_of_observed hobsd]
      exact (Table.lookup_insert ..).trans (if_pos rfl)

/-- Requests are not answered where the entry knows the policy that they bring, where another claim stands in
for the one that was dropped, and where the count is used up. -/
theorem requests_unanswered :
    ((sampleRequest true).sameObservation (sampleRequest false) = false ∧
        answer disabledCalls (sampleRequest false) false = some ([], none)) ∧
      answer replacedCalls (sampleRequest true) false = some ([], none) ∧
      ∃ calls, answer calls (sampleRequest true) true = some ([], none) := by
  refine ⟨⟨by decide, by decide +kernel⟩, by decide +kernel, ?_⟩
  obtain ⟨n, hn⟩ : ∃ n, u64Max = n + 1 := ⟨2 ^ 64 - 2, by decide⟩
  obtain ⟨s, hrun, hlive, hent⟩ := run_forced n (by omega)
  have hmem : sampleClaim 1 ∈ s.live := by
    rw [hlive]
    exact mem_singleton_self _
  have hstep : step s (.finish (sampleClaim 1) .more) = some ⟨finish s.inner (sampleClaim 1) .more, []⟩ := by
    rw [step, if_pos hmem, hlive]
    rfl
  have hfind : (finish s.inner (sampleClaim 1) .more).entries["agent"]? =
      some ⟨sampleRequest true, n + 1, 1, none, false, false⟩ := by
    rcases finish_cases s.inner (sampleClaim 1) .more with ⟨hnot, -⟩ | ⟨entry, hfnd, -, -, hputs⟩
    · exact absurd rfl (hnot _ hent)
    · obtain rfl := Option.some.inj (hent.symm.trans hfnd)
      exact (hputs "agent").trans (if_pos rfl)
  have hrfsd : (⟨sampleRequest true, n + 1, 1, none, false, false⟩ : Entry).observe (sampleRequest true)
      true = none := by
    rw [observe_of_news (.inl rfl), checkedSucc_eq_none.2 (Nat.le_of_eq hn)]
    rfl
  have hadm : admitCapture (finish s.inner (sampleClaim 1) .more) (sampleRequest true) true =
      (finish s.inner (sampleClaim 1) .more, none) := by
    have hlook : (finish s.inner (sampleClaim 1) .more).entries[(sampleRequest true).sessionId]? =
        some ⟨sampleRequest true, n + 1, 1, none, false, false⟩ := hfind
    unfold admitCapture
    rw [hlook]
    dsimp only
    rw [hrfsd]
  refine ⟨replicate (n + 1) (.admitCapture (sampleRequest true) true) ++ [.finish (sampleClaim 1) .more], ?_⟩
  unfold answer
  rw [run_concat, hrun, bind_some, hstep, map_some, hadm]

end Wardian.BackgroundCapture
