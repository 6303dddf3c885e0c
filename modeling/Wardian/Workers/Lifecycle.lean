/-
The life of a child of Codex, as it is observed.

An update keeps a row coherent: it is in a terminal state exactly when it has something of a completion.
The insertion does not see to it: a running child is inserted with the outcome and the time that the
observation has.  Of terminal observations the row shows the newest, in whatever order they come.

Main results:

* `Workers.coherent_update`, `Workers.coherent_new` — the rows of the update and of the insertion;
* `Workers.shows_update` — a terminal observation is shown when it is newer;
* `Workers.lifecycle` — the rows are coherent in every run that inserts a sound row, another owner changes
  nothing, and the newest completion is shown.
-/

import Mathlib.Data.List.Induction
import Wardian.Lib.Newest
import Wardian.Workers.Child

set_option autoImplicit false

namespace Wardian.Workers

open List

/-! ### Coherent rows -/

/-- The state is not terminal exactly when nothing of a completion is there. -/
def Coherent (row : TemporaryWorkerRecord) : Prop :=
  row.state.isTerminal = false ↔
    row.outcome = none ∧ row.terminalAt = none ∧ row.resumableUntil = none ∧
      row.detailRetainedUntil = none

theorem not_completion_iff {outcome terminalAt detail : Option String} {resumable : String} :
    true = false ↔ outcome = none ∧ terminalAt = none ∧ some resumable = none ∧ detail = none := by
  constructor
  · intro h
    cases h
  · rintro ⟨-, -, h, -⟩
    cases h

section

variable {Instant : Type} (chrono : Chrono Instant)

/-- A running child is observed without an outcome and without a valid time of completion. -/
def Sound (input : RegisterProviderChild) : Prop :=
  input.state = .running → input.outcome = none ∧ validProviderTimestamp chrono input.terminalAt = none

instance (input : RegisterProviderChild) : Decidable (Sound chrono input) :=
  inferInstanceAs (Decidable (_ → _))

variable {chrono}

/-- The observations that are accepted: pending without a completion, running, or terminal. -/
theorem accepted_cases {input : ObserveCodexProviderChild} {clear : Bool}
    (h : validateCodexProviderChildObservation input = .ok clear) :
    (clear = true ∧ input.registration.state = .unknown ∧ input.registration.outcome = none ∧
        input.registration.terminalAt = none) ∨
      (clear = false ∧ input.qualification = .qualified ∧ input.registration.state = .running) ∨
        (clear = false ∧ input.qualification = .qualified ∧
          input.registration.state.isTerminal = true) := by
  have hprov := provider_of_accepted h
  simp only [validateCodexProviderChildObservation, hprov, ne_eq, not_true, if_false] at h
  split at h
  · split at h
    · cases h
    · rename_i hpend
      simp only [not_or, not_not, Bool.not_eq_true, Option.isSome_eq_false_iff,
        Option.isNone_iff_eq_none] at hpend
      exact .inl ⟨(Except.ok.inj h).symm, hpend.1, hpend.2.1, hpend.2.2.1⟩
  · rename_i hqual
    split at h
    · cases h
    · rename_i hst
      by_cases hrunn : input.registration.state = .running
      · exact .inr (.inl ⟨(Except.ok.inj h).symm, hqual, hrunn⟩)
      · have hterm := fun hfls => hst ⟨hrunn, hfls⟩
        exact .inr (.inr ⟨(Except.ok.inj h).symm, hqual, by simpa using hterm⟩)

variable {state : TemporaryWorkerState}

theorem not_running_of_terminal (h : state.isTerminal = true) :
    decide (state = .running) = false ∧ decide (state = .unknown) = false := by
  cases state <;> first | exact ⟨rfl, rfl⟩ | cases h

theorem retentionDates_terminal (chrono : Chrono Instant)
    (h : state.isTerminal = true) (now : Instant) (observedAt : String) :
    ∃ terminalAt resumableUntil detailRetainedUntil,
      retentionDates chrono now state observedAt =
        (some terminalAt, some resumableUntil, some detailRetainedUntil) := by
  unfold retentionDates
  rw [h, if_neg Bool.noConfusion]
  exact ⟨_, _, _, rfl⟩

variable [LinearOrder Instant] {now : Instant} {input : ObserveCodexProviderChild} {clear : Bool}
  {existing : TemporaryWorkerRecord}

/-- An observation that clears leaves nothing of a completion. -/
theorem lifecycleUpdate_clears (chrono : Chrono Instant) (now : Instant) (existing : TemporaryWorkerRecord)
    (hclrs : input.registration.state = .running ∨ clear = true) (turnStartedAt : Option String) :
    let row := lifecycleUpdate chrono now existing input.registration turnStartedAt clear existing
    row.state = input.registration.state ∧ row.outcome = none ∧ row.terminalAt = none ∧
      row.resumableUntil = none ∧ row.detailRetainedUntil = none := by
  have hclear : (decide (input.registration.state = .running) || clear) = true := by
    rcases hclrs with h | h
    · rw [decide_eq_true h, Bool.true_or]
    · rw [h, Bool.or_true]
  simp only [lifecycleUpdate, hclear, Bool.not_true, Bool.and_false, Bool.false_and, if_true,
    Bool.false_eq_true, if_false, and_self]

/-- A terminal observation that is newer replaces the completion. -/
theorem lifecycleUpdate_replaces (now : Instant) (hterm : input.registration.state.isTerminal = true)
    (hnewer : terminalObservationIsNewer chrono
      (validProviderTimestamp chrono input.registration.terminalAt) existing.terminalAt
      existing.state.isTerminal = true) (turnStartedAt : Option String) :
    let row := lifecycleUpdate chrono now existing input.registration turnStartedAt false existing
    let dates := retentionDates chrono now input.registration.state
      ((validProviderTimestamp chrono input.registration.terminalAt).getD (chrono.toRfc3339 now))
    row.state = input.registration.state ∧ row.outcome = input.registration.outcome ∧
      row.terminalAt = validProviderTimestamp chrono input.registration.terminalAt ∧
        row.resumableUntil = dates.2.1 ∧ row.detailRetainedUntil = dates.2.2 := by
  obtain ⟨hrunn, hunkn⟩ := not_running_of_terminal hterm
  simp only [lifecycleUpdate, hterm, hnewer, hrunn, hunkn, Bool.or_self, Bool.not_true,
    Bool.and_false, Bool.and_self, Bool.false_eq_true, if_false, if_true, and_self]

theorem lifecycleUpdate_preserves (now : Instant) (hterm : input.registration.state.isTerminal = true)
    (hexi : existing.state.isTerminal = true)
    (hnewer : terminalObservationIsNewer chrono
      (validProviderTimestamp chrono input.registration.terminalAt) existing.terminalAt
      existing.state.isTerminal = false) (turnStartedAt : Option String) :
    let row := lifecycleUpdate chrono now existing input.registration turnStartedAt false existing
    row.state = existing.state ∧ row.outcome = existing.outcome ∧
      row.terminalAt = existing.terminalAt ∧ row.resumableUntil = existing.resumableUntil ∧
        row.detailRetainedUntil = existing.detailRetainedUntil := by
  obtain ⟨hrunn, hunkn⟩ := not_running_of_terminal hterm
  rw [hexi] at hnewer
  simp only [lifecycleUpdate, hterm, hexi, hnewer, hrunn, hunkn, Bool.or_self,
    Bool.not_false, Bool.and_false, Bool.and_self, Bool.or_true, Bool.false_eq_true, if_false, if_true,
    and_self]

/-- Where there is no completion, every terminal observation is newer. -/
theorem newer_of_open (incoming : Option String) :
    terminalObservationIsNewer chrono incoming none false = true := by
  unfold terminalObservationIsNewer
  cases incoming.bind chrono.parseFromRfc3339 <;> rfl

theorem coherent_update (hval : validateCodexProviderChildObservation input = .ok clear)
    (hexi : Coherent existing) (turnStartedAt : Option String) :
    Coherent (lifecycleUpdate chrono now existing input.registration turnStartedAt clear existing) := by
  have hclrs : input.registration.state = .running ∨ clear = true →
      input.registration.state.isTerminal = false →
        Coherent (lifecycleUpdate chrono now existing input.registration turnStartedAt clear
          existing) := by
    intro hclrs hst
    obtain ⟨hst', hrest⟩ := lifecycleUpdate_clears chrono now existing hclrs turnStartedAt
    unfold Coherent
    rw [hst']
    exact ⟨fun _ => hrest, fun _ => hst⟩
  rcases accepted_cases hval with ⟨rfl, hst, -⟩ | ⟨-, -, hst⟩ | ⟨rfl, -, hterm⟩
  · exact hclrs (.inr rfl) (by rw [hst]; rfl)
  · exact hclrs (.inl hst) (by rw [hst]; rfl)
  · cases hnewer : terminalObservationIsNewer chrono
      (validProviderTimestamp chrono input.registration.terminalAt) existing.terminalAt
      existing.state.isTerminal with
    | true =>
      obtain ⟨hst, -, -, hresu, -⟩ :=
        lifecycleUpdate_replaces now hterm hnewer turnStartedAt
      obtain ⟨_, _, _, hdates⟩ := retentionDates_terminal chrono hterm now
        ((validProviderTimestamp chrono input.registration.terminalAt).getD (chrono.toRfc3339 now))
      unfold Coherent
      rw [hst, hresu, hdates, hterm]
      exact not_completion_iff
    | false =>
      have hend : existing.state.isTerminal = true := by
        by_contra hopen
        have hopen' : existing.state.isTerminal = false := by simpa using hopen
        rw [(hexi.mp hopen').2.1, hopen', newer_of_open] at hnewer
        cases hnewer
      obtain ⟨hst, hout, hat, hresu, hdet⟩ :=
        lifecycleUpdate_preserves now hterm hend hnewer turnStartedAt
      unfold Coherent
      rw [hst, hout, hat, hresu, hdet]
      exact hexi

omit [LinearOrder Instant] in
/-- The row of a new child is coherent exactly when the observation is sound. -/
theorem coherent_new (now : Instant) (hval : validateCodexProviderChildObservation input = .ok clear)
    (workerId : String) (turnStartedAt : Option String) :
    Coherent (newChildRecord chrono now workerId input.registration turnStartedAt true) ↔
      Sound chrono input.registration := by
  have hopen : input.registration.state.isTerminal = false →
      (Coherent (newChildRecord chrono now workerId input.registration turnStartedAt true) ↔
        input.registration.outcome = none ∧
          validProviderTimestamp chrono input.registration.terminalAt = none) := by
    intro hst
    simp only [Coherent, newChildRecord, retentionDates, hst, if_true, true_iff, and_true]
  unfold Sound
  rcases accepted_cases hval with ⟨-, hst, hout, hat⟩ | ⟨-, -, hst⟩ | ⟨-, -, hterm⟩
  · rw [hopen (by rw [hst]; rfl), hst, hout, hat]
    refine ⟨fun _ hrunn => ?_, fun _ => ⟨rfl, rfl⟩⟩
    cases hrunn
  · rw [hopen (by rw [hst]; rfl), hst]
    exact ⟨fun h _ => h, fun h => h rfl⟩
  · obtain ⟨_, _, _, hdates⟩ := retentionDates_terminal chrono hterm now
      ((validProviderTimestamp chrono input.registration.terminalAt).getD (chrono.toRfc3339 now))
    simp only [Coherent, newChildRecord, hdates, hterm]
    refine ⟨fun _ hrunn => ?_, fun _ => not_completion_iff⟩
    rw [hrunn] at hterm
    cases hterm

end

/-! ### The calls for one child -/

def rowOf (store : Store) (session : String) : Option TemporaryWorkerRecord :=
  store.findByProviderSession "codex" session

structure Call (Instant : Type) where
  env : Env Instant
  input : ObserveCodexProviderChild

section

variable {Instant : Type}

/-- The call is for the child and passes the validation. -/
def Call.Accepted (session : String) (call : Call Instant) : Prop :=
  call.input.registration.providerSessionId = session ∧
    ∃ clear, validateCodexProviderChildObservation call.input = .ok clear

variable [LinearOrder Instant] (chrono : Chrono Instant)

def run (store : Store) (calls : List (Call Instant)) : Store :=
  calls.foldl (fun store call => (observeCodexProviderChild chrono call.env store call.input).2) store

theorem run_append (store : Store) (calls more : List (Call Instant)) :
    run chrono store (calls ++ more) = run chrono (run chrono store calls) more := foldl_append

theorem run_concat (store : Store) (calls : List (Call Instant)) (call : Call Instant) :
    run chrono store (calls ++ [call]) =
      (observeCodexProviderChild chrono call.env (run chrono store calls) call.input).2 :=
  run_append chrono store calls [call]

/-- The observations that insert the row of the child are sound. -/
def InsertsSound (session : String) (store : Store) (calls : List (Call Instant)) : Prop :=
  ∀ before call after, calls = before ++ call :: after →
    rowOf (run chrono store before) session = none →
      (run chrono store before).Insertable call.env.newId call.input.registration.parentWorkerId →
        Sound chrono call.input.registration

variable {chrono} {session : String} {store : Store} {call : Call Instant}

/-- A call leaves the table, or inserts the row of the child, or updates it. -/
theorem observe_cases (chrono : Chrono Instant) (store : Store) {clear : Bool}
    (hses : call.input.registration.providerSessionId = session)
    (hval : validateCodexProviderChildObservation call.input = .ok clear) :
    let after := (observeCodexProviderChild chrono call.env store call.input).2
    after = store ∨
      (rowOf store session = none ∧
        store.Insertable call.env.newId call.input.registration.parentWorkerId ∧
        rowOf after session = some (newChildRecord chrono call.env.now call.env.newId
          call.input.registration call.input.turnStartedAt true)) ∨
      ∃ existing, rowOf store session = some existing ∧
        rowOf after session = some (lifecycleUpdate chrono call.env.now existing
          call.input.registration call.input.turnStartedAt clear existing) := by
  subst hses
  cases hrow : rowOf store call.input.registration.providerSessionId with
  | none =>
    by_cases hinsr :
      store.Insertable call.env.newId call.input.registration.parentWorkerId
    · exact .inr (.inl ⟨rfl, hinsr, (observe_new _ _ hval hrow hinsr).2⟩)
    · exact .inl (observe_not_insertable hval hrow hinsr)
  | some existing =>
    cases hown : conflictingOwnership existing call.input.registration with
    | true =>
      refine .inl ?_
      rw [observe_conflict hval hrow hown]
    | false =>
      by_cases hpar : store.Known call.input.registration.parentWorkerId
      · exact .inr (.inr ⟨existing, rfl, (observe_row _ _ hval hrow hown hpar).2⟩)
      · exact .inl (observe_unknown_parent hval hrow hpar)

variable {calls : List (Call Instant)}

theorem coherent_run (hnew : rowOf store session = none) (haccd : ∀ call ∈ calls, call.Accepted session)
    (hsnd : InsertsSound chrono session store calls) (before after : List (Call Instant))
    (hcalls : calls = before ++ after) (row : TemporaryWorkerRecord)
    (hrow : rowOf (run chrono store before) session = some row) : Coherent row := by
  -- The induction is on the calls made so far, from the last one back.
  induction before using reverseRecOn generalizing after row with
  | nil => cases hnew.symm.trans hrow
  | append_singleton before call ih =>
    have hspl : calls = before ++ call :: after := by
      rw [hcalls, append_assoc]
      rfl
    have hmem : call ∈ calls := by
      rw [hspl]
      exact mem_append_right _ mem_cons_self
    obtain ⟨hses, clear, hval⟩ := haccd call hmem
    rw [run_concat] at hrow
    rcases observe_cases chrono (run chrono store before) hses hval with
      hsame | ⟨hnone, hinsr, hinse⟩ | ⟨existing, hexi, hupda⟩
    · rw [hsame] at hrow
      exact ih (call :: after) hspl row hrow
    · obtain rfl := Option.some.inj (hinse.symm.trans hrow)
      exact (coherent_new _ hval _ _).mpr (hsnd before call after hspl hnone hinsr)
    · obtain rfl := Option.some.inj (hupda.symm.trans hrow)
      exact coherent_update hval (ih (call :: after) hspl existing hexi) _

theorem sound_of_coherent (haccd : ∀ call ∈ calls, call.Accepted session)
    (hcohe : ∀ before after, calls = before ++ after → ∀ row,
      rowOf (run chrono store before) session = some row → Coherent row) :
    InsertsSound chrono session store calls := by
  intro before call after hcalls hnone hinsr
  have hmem : call ∈ calls := by
    rw [hcalls]
    exact mem_append_right _ mem_cons_self
  obtain ⟨rfl, clear, hval⟩ := haccd call hmem
  refine (coherent_new call.env.now hval call.env.newId call.input.turnStartedAt).mp ?_
  refine hcohe (before ++ [call]) after ?_ _ ?_
  · rw [hcalls, append_assoc]
    rfl
  · rw [run_concat]
    exact (observe_new _ _ hval hnone hinsr).2

end

/-! ### The completions of one child -/

section

variable {Instant : Type} (chrono : Chrono Instant)

/-- A qualified terminal observation of the child, with the instant that its time is. -/
structure Completion (session : String) where
  input : ObserveCodexProviderChild
  instant : Instant
  ofCodex : input.registration.provider = "codex"
  ofSession : input.registration.providerSessionId = session
  qualified : input.qualification = .qualified
  terminal : input.registration.state.isTerminal = true
  parses : input.registration.terminalAt.bind chrono.parseFromRfc3339 = some instant

variable {chrono} {session : String}

theorem Completion.accepted (completion : Completion chrono session) :
    validateCodexProviderChildObservation completion.input = .ok false := by
  simp only [validateCodexProviderChildObservation, completion.ofCodex, ne_eq, not_true, if_false,
    completion.qualified, completion.terminal, Bool.true_eq_false, and_false]

theorem Completion.valid (completion : Completion chrono session) :
    validProviderTimestamp chrono completion.input.registration.terminalAt =
      completion.input.registration.terminalAt := by
  have hparses := completion.parses
  unfold validProviderTimestamp
  cases hat : completion.input.registration.terminalAt with
  | none => rfl
  | some value =>
    rw [hat, Option.bind_some] at hparses
    rw [Option.filter_some, hparses]
    rfl

/-- The row has the completion: its state, outcome and time, and the times that follow from it. -/
def Face (row : TemporaryWorkerRecord) (completion : Completion chrono session) : Prop :=
  row.state = completion.input.registration.state ∧
    row.outcome = completion.input.registration.outcome ∧
      row.terminalAt = completion.input.registration.terminalAt ∧
        row.resumableUntil =
          some (chrono.toRfc3339 (chrono.addDays completion.instant resumeEligibilityDays)) ∧
          row.detailRetainedUntil =
            some (chrono.toRfc3339 (chrono.addDays completion.instant detailRetentionDays))

/-- What the row of the child shows: the completion, or that it has none so far. -/
def Shows (row? : Option TemporaryWorkerRecord) : Option (Completion chrono session) → Prop
  | none => ∀ row ∈ row?, row.state.isTerminal = false ∧ row.terminalAt = none
  | some completion => ∃ row ∈ row?, Face row completion

theorem retentionDates_completion (completion : Completion chrono session) (now : Instant) :
    (retentionDates chrono now completion.input.registration.state
      (completion.input.registration.terminalAt.getD (chrono.toRfc3339 now))).2 =
        (some (chrono.toRfc3339 (chrono.addDays completion.instant resumeEligibilityDays)),
          some (chrono.toRfc3339 (chrono.addDays completion.instant detailRetentionDays))) := by
  obtain ⟨value, hat, hparses⟩ := Option.bind_eq_some_iff.mp completion.parses
  simp only [retentionDates, completion.terminal, Bool.true_eq_false, if_false, hat, Option.getD_some,
    hparses]

theorem face_new (completion : Completion chrono session) (now : Instant) (workerId : String) :
    Face (newChildRecord chrono now workerId completion.input.registration
      completion.input.turnStartedAt true) completion := by
  have hdates := retentionDates_completion completion now
  simp only [Face, newChildRecord, completion.valid, if_true, hdates, and_self]

variable [LinearOrder Instant]

variable {existing : TemporaryWorkerRecord}

theorem face_replaces (completion : Completion chrono session)
    (hnewer : terminalObservationIsNewer chrono completion.input.registration.terminalAt
      existing.terminalAt existing.state.isTerminal = true) (now : Instant) :
    Face (lifecycleUpdate chrono now existing completion.input.registration
      completion.input.turnStartedAt false existing) completion := by
  rw [← completion.valid] at hnewer
  obtain ⟨hst, hout, hat, hresu, hdet⟩ :=
    lifecycleUpdate_replaces now completion.terminal hnewer completion.input.turnStartedAt
  rw [completion.valid] at hat hresu hdet
  rw [retentionDates_completion] at hresu hdet
  exact ⟨hst, hout, hat, hresu, hdet⟩

/-- The row takes a completion as a register of the newest does. -/
theorem shows_update {shown : Option (Completion chrono session)}
    (hshw : Shows (some existing) shown) (completion : Completion chrono session) (now : Instant) :
    Shows (some (lifecycleUpdate chrono now existing completion.input.registration
      completion.input.turnStartedAt false existing))
      (Newest.take Completion.instant shown completion) := by
  cases shown with
  | none =>
    obtain ⟨hopen, hat⟩ := hshw existing rfl
    refine ⟨_, rfl, face_replaces completion ?_ now⟩
    rw [hat, hopen]
    exact newer_of_open _
  | some last =>
    obtain ⟨row, hrow, hface⟩ := hshw
    obtain rfl := Option.some.inj hrow
    obtain ⟨hst, hout, hat, hresu, hdet⟩ := hface
    have hnewer : terminalObservationIsNewer chrono completion.input.registration.terminalAt
        existing.terminalAt existing.state.isTerminal = decide (last.instant < completion.instant) := by
      unfold terminalObservationIsNewer
      rw [hat, completion.parses, last.parses]
    by_cases hless : last.instant < completion.instant
    · have htake : Newest.take Completion.instant (some last) completion = some completion := if_pos hless
      rw [htake]
      exact ⟨_, rfl, face_replaces completion (hnewer.trans (decide_eq_true hless)) now⟩
    · have htake : Newest.take Completion.instant (some last) completion = some last := if_neg hless
      rw [htake]
      rw [decide_eq_false hless, ← completion.valid] at hnewer
      have hend : existing.state.isTerminal = true := by
        rw [hst]
        exact last.terminal
      obtain ⟨hst', hout', hat', hresu', hdet'⟩ :=
        lifecycleUpdate_preserves now completion.terminal hend hnewer
          completion.input.turnStartedAt
      exact ⟨_, rfl, hst'.trans hst, hout'.trans hout, hat'.trans hat,
        hresu'.trans hresu, hdet'.trans hdet⟩

/-! ### Deliveries in any order -/

/-- Two observations name one owner. -/
def SameOwner (a b : RegisterProviderChild) : Prop :=
  a.rootAgentId = b.rootAgentId ∧ a.parentProviderSessionId = b.parentProviderSessionId ∧
    a.automationOrigin = b.automationOrigin ∧
      ∀ p ∈ a.parentWorkerId, ∀ q ∈ b.parentWorkerId, p = q

omit [LinearOrder Instant] in
theorem not_conflicting_iff {input : RegisterProviderChild} :
    conflictingOwnership existing input = false ↔
      existing.rootAgentId = input.rootAgentId ∧
        existing.parentProviderSessionId = some input.parentProviderSessionId ∧
          existing.origin = input.automationOrigin ∧
            ∀ p ∈ existing.parentWorkerId, ∀ q ∈ input.parentWorkerId, p = q := by
  unfold conflictingOwnership
  rw [Bool.or_eq_false_iff, Bool.or_eq_false_iff, Bool.or_eq_false_iff, and_assoc, and_assoc]
  simp only [decide_eq_false_iff_not, not_not, ne_eq]
  cases existing.parentWorkerId <;> cases input.parentWorkerId <;> simp

omit [LinearOrder Instant] in
/-- The row of a new child is of the owner that its observation names. -/
theorem owned_new {a b : RegisterProviderChild} (h : SameOwner a b) (now : Instant) (workerId : String)
    (turnStartedAt : Option String) :
    conflictingOwnership (newChildRecord chrono now workerId a turnStartedAt true) b = false := by
  refine not_conflicting_iff.mpr ⟨h.1, congrArg some h.2.1, ?_, h.2.2.2⟩
  rw [← h.2.2.1]
  cases horig : a.automationOrigin <;>
    simp [newChildRecord, TemporaryWorkerRecord.origin, horig]

theorem owned_update {existing : TemporaryWorkerRecord} {a b : RegisterProviderChild}
    (h : SameOwner a b) (hb : conflictingOwnership existing b = false) (now : Instant)
    (turnStartedAt : Option String) (clear : Bool) :
    conflictingOwnership (lifecycleUpdate chrono now existing a turnStartedAt clear existing) b =
      false := by
  obtain ⟨hroot, hpar, horig, hworker⟩ := not_conflicting_iff.mp hb
  refine not_conflicting_iff.mpr ⟨hroot, hpar, horig, ?_⟩
  intro p hp
  rcases Option.or_eq_some_iff.mp hp with ha | ⟨-, hexi⟩
  · exact h.2.2.2 p ha
  · exact hworker p hexi

/-- A completion and what the call with it reads. -/
structure Delivery (chrono : Chrono Instant) (session : String) where
  env : Env Instant
  completion : Completion chrono session

def Delivery.call (delivery : Delivery chrono session) : Call Instant :=
  { env := delivery.env, input := delivery.completion.input }

def Delivery.registration (delivery : Delivery chrono session) : RegisterProviderChild :=
  delivery.completion.input.registration

/-- The table takes every delivery: the row is of their owner, their parents are rows, and where the
child has no row their identifiers are new. -/
structure Ready (store : Store) (deliveries : List (Delivery chrono session)) : Prop where
  owned : ∀ row, rowOf store session = some row → ∀ d ∈ deliveries,
    conflictingOwnership row d.registration = false
  known : ∀ d ∈ deliveries, store.Known d.registration.parentWorkerId
  fresh : rowOf store session = none → ∀ d ∈ deliveries, d.env.newId ∉ store.ids

/-- One delivery: the table still takes all of them, and the row shows the newer completion. -/
theorem Ready.observe {store : Store} {deliveries : List (Delivery chrono session)}
    {delivery : Delivery chrono session} {shown : Option (Completion chrono session)}
    (hrdy : Ready store deliveries) (hmem : delivery ∈ deliveries)
    (howner : ∀ d ∈ deliveries, SameOwner delivery.registration d.registration)
    (hshw : Shows (rowOf store session) shown) :
    let after := (observeCodexProviderChild chrono delivery.env store delivery.completion.input).2
    Ready after deliveries ∧
      Shows (rowOf after session) (Newest.take Completion.instant shown delivery.completion) := by
  have hval := delivery.completion.accepted
  have hses := delivery.completion.ofSession
  cases hrow : rowOf store session with
  | none =>
    have hinsr : store.Insertable delivery.env.newId
        delivery.completion.input.registration.parentWorkerId :=
      ⟨hrdy.fresh hrow delivery hmem, fun p hp => .inl (hrdy.known delivery hmem p hp)⟩
    obtain ⟨hids, haft⟩ := observe_new chrono delivery.env hval
      (hses.symm ▸ hrow) hinsr
    rw [hses] at haft
    refine ⟨⟨?_, ?_, ?_⟩, ?_⟩
    · intro row hrow' d hd
      obtain rfl := Option.some.inj (haft.symm.trans hrow')
      exact owned_new (howner d hd) _ _ _
    · intro d hd p hp
      rw [hids]
      exact mem_append_left _ (hrdy.known d hd p hp)
    · intro hnone
      cases haft.symm.trans hnone
    · have hshown : shown = none := by
        cases shown with
        | none => rfl
        | some last =>
          obtain ⟨row, hsome, -⟩ := hshw
          cases hrow.symm.trans hsome
      subst hshown
      exact ⟨_, haft, face_new _ _ _⟩
  | some existing =>
    have hown := hrdy.owned existing hrow delivery hmem
    obtain ⟨hids, haft⟩ := observe_row chrono delivery.env hval
      (hses.symm ▸ hrow) hown (hrdy.known delivery hmem)
    rw [hses] at haft
    refine ⟨⟨?_, ?_, ?_⟩, ?_⟩
    · intro row hrow' d hd
      obtain rfl := Option.some.inj (haft.symm.trans hrow')
      exact owned_update (howner d hd) (hrdy.owned existing hrow d hd) _ _ _
    · intro d hd p hp
      rw [hids]
      exact hrdy.known d hd p hp
    · intro hnone
      cases haft.symm.trans hnone
    · rw [hrow] at hshw
      have hupdate := shows_update hshw delivery.completion delivery.env.now
      have haft' : rowOf (observeCodexProviderChild chrono delivery.env store
          delivery.completion.input).2 session = _ := haft
      rw [haft']
      exact hupdate

/-- After any deliveries the row shows what a register of the newest has. -/
theorem Ready.run {store : Store} {deliveries : List (Delivery chrono session)}
    (hrdy : Ready store deliveries)
    (howner : ∀ d ∈ deliveries, ∀ e ∈ deliveries, SameOwner d.registration e.registration)
    (some? : List (Delivery chrono session)) (hsome : ∀ d ∈ some?, d ∈ deliveries)
    {shown : Option (Completion chrono session)} (hshw : Shows (rowOf store session) shown) :
    Shows (rowOf (run chrono store (some?.map Delivery.call)) session)
      (Newest.run Completion.instant shown (some?.map Delivery.completion)) := by
  induction some? generalizing store shown with
  | nil => exact hshw
  | cons delivery rest ih =>
    have hmem := hsome delivery mem_cons_self
    obtain ⟨hrdy', hshw'⟩ := hrdy.observe hmem (howner delivery hmem) hshw
    exact ih hrdy' (fun d hd => hsome d (mem_cons_of_mem _ hd)) hshw'

/-- The deliveries are of distinct instants and of one owner, to a child whose row has no completion. -/
structure Deliverable (store : Store) (deliveries : List (Delivery chrono session)) : Prop
    extends Ready store deliveries where
  unended : ∀ row, rowOf store session = some row → row.state.isTerminal = false ∧ row.terminalAt = none
  oneOwner : ∀ d ∈ deliveries, ∀ e ∈ deliveries, SameOwner d.registration e.registration
  distinct : ∀ d ∈ deliveries, ∀ e ∈ deliveries, d.completion.instant = e.completion.instant →
    d.completion.input = e.completion.input

omit [LinearOrder Instant] in
theorem Completion.eq_of {a b : Completion chrono session} (hinp : a.input = b.input)
    (hinst : a.instant = b.instant) : a = b := by
  cases a
  cases b
  cases hinp
  cases hinst
  rfl

/-- Whatever the order and the repetitions, the row has the latest completion in the end. -/
theorem face_latest {store : Store} {deliveries : List (Delivery chrono session)}
    (h : Deliverable store deliveries) {last : Delivery chrono session} (hlast : last ∈ deliveries)
    (hlat : ∀ d ∈ deliveries, d.completion.instant ≤ last.completion.instant) :
    ∃ row, rowOf (run chrono store (deliveries.map Delivery.call)) session = some row ∧
      Face row last.completion := by
  have hshw : Shows (rowOf store session) (none : Option (Completion chrono session)) := h.unended
  have hrun := h.toReady.run h.oneOwner deliveries (fun _ hd => hd) hshw
  have hnewest : Newest.run Completion.instant none (deliveries.map Delivery.completion) =
      some last.completion := by
    refine Newest.run_eq Completion.instant (mem_map_of_mem hlast) ?_ ?_
    · intro completion hcomp
      obtain ⟨d, hd, rfl⟩ := mem_map.mp hcomp
      exact hlat d hd
    · intro completion hcomp hinst
      obtain ⟨d, hd, rfl⟩ := mem_map.mp hcomp
      exact Completion.eq_of (h.distinct d hd last hlast hinst) hinst
  rw [hnewest] at hrun
  exact hrun

/-- For one child: its row is coherent after every call exactly when the observations that insert it are
sound, a call that names another owner is an error and changes nothing, and of completions of distinct
instants the row has the latest in the end, whatever their order and repetitions. -/
theorem lifecycle (chrono : Chrono Instant) (session : String) (store : Store)
    (hnew : rowOf store session = none) :
    (∀ calls : List (Call Instant), (∀ call ∈ calls, call.Accepted session) →
      ((∀ before after, calls = before ++ after → ∀ row,
          rowOf (run chrono store before) session = some row → Coherent row) ↔
        InsertsSound chrono session store calls)) ∧
    (∀ (current : Store) (call : Call Instant) (row : TemporaryWorkerRecord), call.Accepted session →
      rowOf current session = some row → conflictingOwnership row call.input.registration = true →
        ∃ error, observeCodexProviderChild chrono call.env current call.input =
          (.error error, current)) ∧
    (∀ (current : Store) (deliveries : List (Delivery chrono session)) (last : Delivery chrono session),
      Deliverable current deliveries → last ∈ deliveries →
        (∀ d ∈ deliveries, d.completion.instant ≤ last.completion.instant) →
          ∃ row, rowOf (run chrono current (deliveries.map Delivery.call)) session = some row ∧
            Face row last.completion) := by
  refine ⟨?_, ?_, ?_⟩
  · intro calls haccd
    refine ⟨sound_of_coherent haccd, ?_⟩
    intro hsnd
    exact coherent_run hnew haccd hsnd
  · rintro current call row ⟨rfl, clear, hval⟩ hrow hconf
    exact ⟨_, observe_conflict hval hrow hconf⟩
  · intro current deliveries last hdeli hlast hlat
    exact face_latest hdeli hlast hlat

end

/-! ### A child with two completions -/

/-- Times, in seconds, as the library reads and writes them. -/
def sampleTimes : List (String × Nat) :=
  [("2026-10-04T21:00:00+00:00", 1791147600), ("2026-10-04T21:14:15+00:00", 1791148455),
    ("2026-10-04T21:55:17+00:00", 1791150917), ("2026-10-04T22:00:00+00:00", 1791151200),
    ("2026-10-11T21:14:15+00:00", 1791753255), ("2026-10-11T21:55:17+00:00", 1791755717),
    ("2026-11-03T21:14:15+00:00", 1793740455), ("2026-11-03T21:55:17+00:00", 1793742917),
    ("2026-10-04T21:00:00Z", 1791147600), ("2026-10-04T23:55:17+02:00", 1791150917)]

def sampleChrono : Chrono Nat where
  parseFromRfc3339 := fun text => (sampleTimes.find? (·.1 = text)).map (·.2)
  toRfc3339 := fun time => ((sampleTimes.find? (·.2 = time)).map (·.1)).getD ""
  addDays := fun time days => time + days * 86400

def sampleEnv : Env Nat := { now := 1791151200, newId := "7c0b6f3e" }

def sampleObservation (state : TemporaryWorkerState) (outcome terminalAt : Option String) :
    ObserveCodexProviderChild :=
  { registration :=
      { provider := "codex", workspace := "/work", rootAgentId := some "root", parentWorkerId := none
        parentProviderSessionId := "parent-session", runtimeSessionId := "root"
        providerSessionId := "child-session", automationOrigin := none, state := state
        outcome := outcome, sourcePath := "/sessions/rollout.jsonl"
        coverage := "codex_parent_thread_id_verified", requestedAt := some "2026-10-04T21:00:00Z"
        terminalAt := terminalAt }
    qualification := .qualified
    turnStartedAt := none }

theorem sampleEarlier_parses :
    (some "2026-10-04T21:14:15+00:00").bind sampleChrono.parseFromRfc3339 = some 1791148455 := by
  decide

theorem sampleLater_parses :
    (some "2026-10-04T23:55:17+02:00").bind sampleChrono.parseFromRfc3339 = some 1791150917 := by
  decide

def sampleEarlier : Delivery sampleChrono "child-session" where
  env := sampleEnv
  completion :=
    { input := sampleObservation .failed (some "error") (some "2026-10-04T21:14:15+00:00")
      instant := 1791148455
      ofCodex := rfl
      ofSession := rfl
      qualified := rfl
      terminal := rfl
      parses := sampleEarlier_parses }

def sampleLater : Delivery sampleChrono "child-session" where
  env := sampleEnv
  completion :=
    { input := sampleObservation .succeeded (some "completed") (some "2026-10-04T23:55:17+02:00")
      instant := 1791150917
      ofCodex := rfl
      ofSession := rfl
      qualified := rfl
      terminal := rfl
      parses := sampleLater_parses }

theorem mem_sample {delivery : Delivery sampleChrono "child-session"}
    (h : delivery ∈ [sampleLater, sampleEarlier, sampleLater]) :
    delivery = sampleLater ∨ delivery = sampleEarlier := by
  simp only [mem_cons, not_mem_nil, or_false] at h
  rcases h with h | h | h
  · exact .inl h
  · exact .inr h
  · exact .inl h

theorem deliverable_sample : Deliverable { workers := [] } [sampleLater, sampleEarlier, sampleLater] where
  owned := by
    intro row hrow
    cases hrow
  known := by
    intro d hd p hp
    rcases mem_sample hd with rfl | rfl <;> cases hp
  fresh := fun _ _ _ => not_mem_nil
  unended := by
    intro row hrow
    cases hrow
  oneOwner := by
    intro d hd e he
    have howner : ∀ q ∈ e.registration.parentWorkerId, ∀ p ∈ d.registration.parentWorkerId, p = q := by
      intro q _ p hp
      rcases mem_sample hd with rfl | rfl <;> cases hp
    refine ⟨?_, ?_, ?_, fun p hp q hq => howner q hq p hp⟩ <;>
      rcases mem_sample hd with rfl | rfl <;> rcases mem_sample he with rfl | rfl <;> rfl
  distinct := by
    intro d hd e he hinst
    rcases mem_sample hd with rfl | rfl <;> rcases mem_sample he with rfl | rfl <;>
      first | rfl | cases hinst

/-- The later of two completions, delivered before and after the earlier one. -/
theorem lifecycle_sample : ∃ row, rowOf (run sampleChrono { workers := [] }
      ([sampleLater, sampleEarlier, sampleLater].map Delivery.call)) "child-session" = some row ∧
        Face row sampleLater.completion := by
  refine (lifecycle sampleChrono "child-session" { workers := [] } rfl).2.2 _ _ sampleLater
    deliverable_sample mem_cons_self ?_
  intro d hd
  rcases mem_sample hd with rfl | rfl <;> decide

/-- A running child that is first observed with an outcome has a row with that outcome. -/
theorem not_coherent_always :
    ¬ ∀ calls : List (Call Nat), (∀ call ∈ calls, call.Accepted "child-session") →
      ∀ before after, calls = before ++ after → ∀ row,
        rowOf (run sampleChrono { workers := [] } before) "child-session" = some row →
          Coherent row := by
  intro h
  have hcohe := h [⟨sampleEnv, sampleObservation .running (some "completed") none⟩]
    (by
      intro call hcall
      obtain rfl := mem_singleton.mp hcall
      exact ⟨rfl, false, rfl⟩)
    [⟨sampleEnv, sampleObservation .running (some "completed") none⟩] [] rfl _ rfl
  exact absurd (hcohe.mp rfl).1 (by decide)

end Wardian.Workers
