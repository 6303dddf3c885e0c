/-
The rows of the temporary workers, and the children that a provider spawns.

A child is found by its provider and session.  The first observation inserts its row, every later one
updates it, and both refuse an observation that names another owner.

Main results:

* `Workers.observe_new`, `Workers.observe_row` — what an observation does.
-/

import Mathlib.Order.Lattice
import Mathlib.Tactic.Common

set_option autoImplicit false

namespace Wardian.Workers

open List

/-! ### Times -/

/-- The library for dates: the instant of a text, the text of an instant, and an instant days later. -/
structure Chrono (Instant : Type) where
  parseFromRfc3339 : String → Option Instant
  toRfc3339 : Instant → String
  addDays : Instant → Nat → Instant

def resumeEligibilityDays : Nat := 7

def detailRetentionDays : Nat := 30

/-! ### The rows -/

inductive TemporaryWorkerKind
  | automation
  | providerChild

inductive TemporaryWorkerState
  | requested
  | running
  | waiting
  | succeeded
  | failed
  | cancelled
  | unknown
  deriving DecidableEq

def TemporaryWorkerState.isTerminal : TemporaryWorkerState → Bool
  | .succeeded | .failed | .cancelled => true
  | _ => false

structure AutomationWorkerOrigin where
  blueprintId : String
  runId : String
  nodeId : String
  deriving DecidableEq

structure TemporaryWorkerCapabilities where
  inspection : Bool
  followUp : Bool
  interruption : Bool
  resume : Bool
  source : String

def TemporaryWorkerCapabilities.observeOnly (reason : String) : TemporaryWorkerCapabilities :=
  { inspection := true, followUp := false, interruption := false, resume := false, source := reason }

structure TemporaryWorkerRecord where
  workerId : String
  kind : TemporaryWorkerKind
  provider : String
  workspace : String
  rootAgentId : Option String
  parentWorkerId : Option String
  parentProviderSessionId : Option String
  blueprintId : Option String
  runId : Option String
  nodeId : Option String
  attempt : Option Nat
  runtimeSessionId : String
  providerSessionId : Option String
  runtimeGeneration : Option Nat
  ownerInstanceId : Option String
  state : TemporaryWorkerState
  outcome : Option String
  capabilities : TemporaryWorkerCapabilities
  coverage : String
  sourceKey : Option String
  sourcePath : Option String
  requestedAt : String
  startedAt : Option String
  terminalAt : Option String
  lastObservedAt : String
  lastFollowUpAcceptedAt : Option String
  resumableUntil : Option String
  detailRetainedUntil : Option String
  error : Option String

structure RegisterProviderChild where
  provider : String
  workspace : String
  rootAgentId : Option String
  parentWorkerId : Option String
  parentProviderSessionId : String
  runtimeSessionId : String
  providerSessionId : String
  automationOrigin : Option AutomationWorkerOrigin
  state : TemporaryWorkerState
  outcome : Option String
  sourcePath : String
  coverage : String
  requestedAt : Option String
  terminalAt : Option String

inductive CodexChildObservationQualification
  | qualified
  | pendingOrUnqualified

structure ObserveCodexProviderChild where
  registration : RegisterProviderChild
  qualification : CodexChildObservationQualification
  turnStartedAt : Option String

/-- Whether the terminal state may be cleared, or why the observation is refused. -/
def validateCodexProviderChildObservation (input : ObserveCodexProviderChild) : Except String Bool :=
  let registration := input.registration
  if registration.provider ≠ "codex" then
    .error "Codex lifecycle observations require provider=codex"
  else
    match input.qualification with
    | .pendingOrUnqualified =>
      if registration.state ≠ .unknown ∨ registration.outcome.isSome ∨ registration.terminalAt.isSome ∨
          input.turnStartedAt.isSome then
        .error "pending Codex observations must publish Unknown without terminal fields"
      else .ok true
    | .qualified =>
      if registration.state ≠ .running ∧ registration.state.isTerminal = false then
        .error "qualified Codex observations require Running or a terminal state"
      else .ok false

/-! ### The table -/

/-- The rows in the order of their insertion. -/
structure Store where
  workers : List TemporaryWorkerRecord

namespace Store

def ids (store : Store) : List String := store.workers.map (·.workerId)

def findByProviderSession (store : Store) (provider session : String) :
    Option TemporaryWorkerRecord :=
  store.workers.find? fun row =>
    decide (row.provider = provider) && decide (row.providerSessionId = some session)

def load (store : Store) (workerId : String) : Option TemporaryWorkerRecord :=
  store.workers.find? fun row => decide (row.workerId = workerId)

/-- The insertion needs a new identifier and a parent that is a row. -/
def insertRecord (store : Store) (row : TemporaryWorkerRecord) : Except String Store :=
  if row.workerId ∈ store.ids then .error "UNIQUE constraint failed: temporary_workers.worker_id"
  else if ∀ parent ∈ row.parentWorkerId, parent ∈ store.ids ∨ parent = row.workerId then
    .ok { workers := store.workers ++ [row] }
  else .error "FOREIGN KEY constraint failed"

/-- The update of the row with the identifier; the parent that it may set has to be a row. -/
def update (store : Store) (workerId : String) (parent : Option String)
    (set : TemporaryWorkerRecord → TemporaryWorkerRecord) : Except String Store :=
  if ∀ p ∈ parent, p ∈ store.ids then
    .ok { workers := store.workers.map fun row => if row.workerId = workerId then set row else row }
  else .error "FOREIGN KEY constraint failed"

end Store

/-! ### The registration -/

section

variable {Instant : Type} [LinearOrder Instant] (chrono : Chrono Instant)

/-- The times of a terminal state: when it was reached, until when the child can be resumed, and until
when its detail is kept. -/
def retentionDates (now : Instant) (state : TemporaryWorkerState) (observedAt : String) :
    Option String × Option String × Option String :=
  if state.isTerminal = false then (none, none, none)
  else
    let observed := (chrono.parseFromRfc3339 observedAt).getD now
    (some (chrono.toRfc3339 observed),
      some (chrono.toRfc3339 (chrono.addDays observed resumeEligibilityDays)),
      some (chrono.toRfc3339 (chrono.addDays observed detailRetentionDays)))

def validProviderTimestamp (value : Option String) : Option String :=
  value.filter fun value => (chrono.parseFromRfc3339 value).isSome

def terminalObservationIsNewer (incoming existing : Option String) (existingIsTerminal : Bool) : Bool :=
  match incoming.bind chrono.parseFromRfc3339, existing.bind chrono.parseFromRfc3339 with
  | some incoming, some existing => decide (existing < incoming)
  | some _, none => true
  | none, some _ => false
  | none, none => !existingIsTerminal

end

def sourceKey (provider sessionId sourcePath : String) : String :=
  if provider = "codex" ∨ provider = "claude" then provider ++ "|" ++ sourcePath
  else provider ++ "|" ++ sessionId ++ "|" ++ sourcePath

/-- The origin of a row, when it has all of it. -/
def TemporaryWorkerRecord.origin (row : TemporaryWorkerRecord) : Option AutomationWorkerOrigin :=
  row.blueprintId.bind fun blueprintId =>
    row.runId.bind fun runId =>
      row.nodeId.map fun nodeId => { blueprintId := blueprintId, runId := runId, nodeId := nodeId }

def conflictingOwnership (existing : TemporaryWorkerRecord) (input : RegisterProviderChild) : Bool :=
  decide (existing.rootAgentId ≠ input.rootAgentId) ||
  decide (existing.parentProviderSessionId ≠ some input.parentProviderSessionId) ||
  decide (existing.origin ≠ input.automationOrigin) ||
  existing.parentWorkerId.any fun parent =>
    input.parentWorkerId.any fun expected => decide (parent ≠ expected)

section

variable {Instant : Type} [LinearOrder Instant] (chrono : Chrono Instant)

/-- What the historical registration writes: it keeps what the row has. -/
def legacyUpdate (now : Instant) (existing : TemporaryWorkerRecord) (input : RegisterProviderChild)
    (row : TemporaryWorkerRecord) : TemporaryWorkerRecord :=
  let observed := chrono.toRfc3339 now
  let retentionBaseline := (validProviderTimestamp chrono input.terminalAt).getD observed
  let dates := retentionDates chrono now input.state retentionBaseline
  { row with
    state := if input.state = .unknown ∧ row.state.isTerminal then row.state else input.state
    outcome := input.outcome.or row.outcome
    parentWorkerId := input.parentWorkerId.or row.parentWorkerId
    sourcePath := some input.sourcePath
    sourceKey := some (sourceKey input.provider existing.workerId input.sourcePath)
    coverage := input.coverage
    lastObservedAt := observed
    terminalAt := row.terminalAt.or dates.1
    resumableUntil := row.resumableUntil.or dates.2.1
    detailRetainedUntil := row.detailRetainedUntil.or dates.2.2 }

/-- What an observation of Codex writes. -/
def lifecycleUpdate (now : Instant) (existing : TemporaryWorkerRecord) (input : RegisterProviderChild)
    (turnStartedAt : Option String) (allowPendingClear : Bool) (row : TemporaryWorkerRecord) :
    TemporaryWorkerRecord :=
  let observed := chrono.toRfc3339 now
  let incomingTerminalAt := validProviderTimestamp chrono input.terminalAt
  let replacesTerminal := input.state.isTerminal &&
    terminalObservationIsNewer chrono incomingTerminalAt existing.terminalAt existing.state.isTerminal
  let clearsTerminal := decide (input.state = .running) || allowPendingClear
  let preserveTerminal := existing.state.isTerminal && !clearsTerminal &&
    (decide (input.state = .unknown) || (input.state.isTerminal && !replacesTerminal))
  let state := if preserveTerminal then existing.state else input.state
  let outcome :=
    if clearsTerminal then none
    else if preserveTerminal then existing.outcome
    else if input.state.isTerminal then input.outcome
    else input.outcome.or existing.outcome
  let times : Option String × Option String × Option String :=
    if clearsTerminal then (none, none, none)
    else if replacesTerminal then
      (incomingTerminalAt,
        (retentionDates chrono now input.state (incomingTerminalAt.getD observed)).2)
    else if preserveTerminal then
      (existing.terminalAt, existing.resumableUntil, existing.detailRetainedUntil)
    else (none, none, none)
  let startedAt :=
    if clearsTerminal || replacesTerminal then
      (validProviderTimestamp chrono turnStartedAt).or existing.startedAt
    else existing.startedAt
  { row with
    state := state
    outcome := outcome
    parentWorkerId := input.parentWorkerId.or row.parentWorkerId
    sourcePath := some input.sourcePath
    sourceKey := some (sourceKey input.provider existing.workerId input.sourcePath)
    coverage := input.coverage
    lastObservedAt := observed
    startedAt := startedAt
    terminalAt := times.1
    resumableUntil := times.2.1
    detailRetainedUntil := times.2.2 }

/-- The row of a child that has none. -/
def newChildRecord (now : Instant) (workerId : String) (input : RegisterProviderChild)
    (turnStartedAt : Option String) (providerTimestampOnly : Bool) : TemporaryWorkerRecord :=
  let observed := chrono.toRfc3339 now
  let requestedAt := (validProviderTimestamp chrono input.requestedAt).getD observed
  let incomingTerminalAt := validProviderTimestamp chrono input.terminalAt
  let dates := retentionDates chrono now input.state (incomingTerminalAt.getD observed)
  { workerId := workerId
    kind := .providerChild
    provider := input.provider
    workspace := input.workspace
    rootAgentId := input.rootAgentId
    parentWorkerId := input.parentWorkerId
    parentProviderSessionId := some input.parentProviderSessionId
    blueprintId := input.automationOrigin.map (·.blueprintId)
    runId := input.automationOrigin.map (·.runId)
    nodeId := input.automationOrigin.map (·.nodeId)
    attempt := none
    runtimeSessionId := input.runtimeSessionId
    providerSessionId := some input.providerSessionId
    runtimeGeneration := none
    ownerInstanceId := none
    state := input.state
    outcome := input.outcome
    capabilities := .observeOnly "codex child adapter is observe-only"
    coverage := input.coverage
    sourceKey := some (sourceKey input.provider workerId input.sourcePath)
    sourcePath := some input.sourcePath
    requestedAt := requestedAt
    startedAt := (validProviderTimestamp chrono turnStartedAt).or (some requestedAt)
    terminalAt := if providerTimestampOnly then incomingTerminalAt else dates.1
    lastObservedAt := observed
    lastFollowUpAcceptedAt := none
    resumableUntil := dates.2.1
    detailRetainedUntil := dates.2.2
    error := none }

/-- The clock and the identifier generator, as one call reads them. -/
structure Env (Instant : Type) where
  now : Instant
  newId : String

/-- The result of a call and the table after it. -/
def registerProviderChildWithConn (env : Env Instant) (store : Store) (input : RegisterProviderChild)
    (turnStartedAt : Option String) (allowPendingClear providerTimestampOnly : Bool) :
    Except String TemporaryWorkerRecord × Store :=
  match store.findByProviderSession input.provider input.providerSessionId with
  | some existing =>
    if conflictingOwnership existing input then
      (.error ("conflicting verified ownership for " ++ input.provider ++ " session " ++
        input.providerSessionId), store)
    else
      let set :=
        if providerTimestampOnly then
          lifecycleUpdate chrono env.now existing input turnStartedAt allowPendingClear
        else legacyUpdate chrono env.now existing input
      match store.update existing.workerId input.parentWorkerId set with
      | .error error => (.error error, store)
      | .ok updated =>
        match updated.load existing.workerId with
        | some row => (.ok row, updated)
        | none => (.error "updated worker disappeared", updated)
  | none =>
    let row := newChildRecord chrono env.now env.newId input turnStartedAt providerTimestampOnly
    match store.insertRecord row with
    | .error error => (.error error, store)
    | .ok inserted => (.ok row, inserted)

def observeCodexProviderChild (env : Env Instant) (store : Store) (input : ObserveCodexProviderChild) :
    Except String TemporaryWorkerRecord × Store :=
  match validateCodexProviderChildObservation input with
  | .error error => (.error error, store)
  | .ok allowPendingClear =>
    registerProviderChildWithConn chrono env store input.registration input.turnStartedAt
      allowPendingClear true

/-! ### What a call does -/

end

namespace Store

variable {store updated : Store} {provider session workerId : String} {parent : Option String}
  {set : TemporaryWorkerRecord → TemporaryWorkerRecord}

/-- The parents that a row can have. -/
def Known (store : Store) (parent : Option String) : Prop := ∀ p ∈ parent, p ∈ store.ids

/-- The table takes the row of a new child. -/
def Insertable (store : Store) (workerId : String) (parent : Option String) : Prop :=
  workerId ∉ store.ids ∧ ∀ p ∈ parent, p ∈ store.ids ∨ p = workerId

instance (store : Store) (parent : Option String) : Decidable (store.Known parent) :=
  inferInstanceAs (Decidable (∀ p ∈ parent, p ∈ store.ids))

instance (store : Store) (workerId : String) (parent : Option String) :
    Decidable (store.Insertable workerId parent) :=
  inferInstanceAs (Decidable (_ ∧ _))

theorem update_ok (h : store.Known parent) :
    store.update workerId parent set =
      .ok { workers := store.workers.map fun row => if row.workerId = workerId then set row else row } :=
  if_pos h

theorem update_error (h : ¬ store.Known parent) :
    store.update workerId parent set = .error "FOREIGN KEY constraint failed" := if_neg h

variable {row : TemporaryWorkerRecord}

theorem insertRecord_ok (h : store.Insertable row.workerId row.parentWorkerId) :
    store.insertRecord row = .ok { workers := store.workers ++ [row] } := by
  unfold insertRecord
  rw [if_neg h.1, if_pos h.2]

theorem insertRecord_error (row : TemporaryWorkerRecord)
    (h : ¬ store.Insertable row.workerId row.parentWorkerId) :
    ∃ error, store.insertRecord row = .error error := by
  unfold insertRecord
  by_cases hid : row.workerId ∈ store.ids
  · exact ⟨_, if_pos hid⟩
  · rw [if_neg hid]
    exact ⟨_, if_neg fun hpar => h ⟨hid, hpar⟩⟩

variable {f : TemporaryWorkerRecord → TemporaryWorkerRecord}

theorem find_map
    (hf : ∀ row, (f row).provider = row.provider ∧ (f row).providerSessionId = row.providerSessionId) :
    Store.findByProviderSession { workers := store.workers.map f } provider session =
      (store.findByProviderSession provider session).map f := by
  unfold findByProviderSession
  rw [find?_map]
  refine congrArg (Option.map f) (congrArg (fun p => find? p store.workers) (funext fun row => ?_))
  rw [Function.comp_apply, (hf row).1, (hf row).2]

theorem find_append (h : store.findByProviderSession provider session = none)
    (hprov : row.provider = provider) (hses : row.providerSessionId = some session) :
    Store.findByProviderSession { workers := store.workers ++ [row] } provider session = some row := by
  unfold findByProviderSession at h ⊢
  rw [find?_append, h, Option.none_or, find?_cons_of_pos]
  rw [decide_eq_true hprov, decide_eq_true hses]
  rfl

theorem ids_map (hf : ∀ row, (f row).workerId = row.workerId) :
    Store.ids { workers := store.workers.map f } = store.ids := by
  unfold ids
  rw [map_map]
  exact map_congr_left fun row _ => hf row

end Store

section

variable {Instant : Type} [LinearOrder Instant] {chrono : Chrono Instant} {env : Env Instant}
  {store : Store} {input : ObserveCodexProviderChild} {existing : TemporaryWorkerRecord} {clear : Bool}

theorem provider_of_accepted (h : validateCodexProviderChildObservation input = .ok clear) :
    input.registration.provider = "codex" := by
  by_contra hprov
  simp only [validateCodexProviderChildObservation, ne_eq, hprov, not_false_eq_true, if_true] at h
  cases h

/-- An observation that names another owner is an error and changes nothing. -/
theorem observe_conflict (hval : validateCodexProviderChildObservation input = .ok clear)
    (hrow : store.findByProviderSession "codex" input.registration.providerSessionId = some existing)
    (hconf : conflictingOwnership existing input.registration = true) :
    observeCodexProviderChild chrono env store input =
      (.error ("conflicting verified ownership for codex session " ++
        input.registration.providerSessionId), store) := by
  have hprov := provider_of_accepted hval
  unfold observeCodexProviderChild registerProviderChildWithConn
  rw [hval]
  simp only [hprov, hrow, hconf, if_true]
  rfl

theorem observe_row (chrono : Chrono Instant) (env : Env Instant)
    (hval : validateCodexProviderChildObservation input = .ok clear)
    (hrow : store.findByProviderSession "codex" input.registration.providerSessionId = some existing)
    (hown : conflictingOwnership existing input.registration = false)
    (hpar : store.Known input.registration.parentWorkerId) :
    let after := (observeCodexProviderChild chrono env store input).2
    after.ids = store.ids ∧
      after.findByProviderSession "codex" input.registration.providerSessionId =
        some (lifecycleUpdate chrono env.now existing input.registration input.turnStartedAt clear
          existing) := by
  have hprov := provider_of_accepted hval
  have haft : (observeCodexProviderChild chrono env store input).2 =
      { workers := store.workers.map fun row =>
          if row.workerId = existing.workerId then
            lifecycleUpdate chrono env.now existing input.registration input.turnStartedAt clear row
          else row } := by
    unfold observeCodexProviderChild registerProviderChildWithConn
    rw [hval]
    simp only [hprov, hrow, hown, Bool.false_eq_true, if_false, if_true, Store.update_ok hpar]
    split <;> rfl
  refine ⟨?_, ?_⟩
  · rw [haft]
    refine Store.ids_map fun row => ?_
    split <;> rfl
  · rw [haft, Store.find_map, hrow, Option.map_some, if_pos rfl]
    intro row
    split <;> exact ⟨rfl, rfl⟩

theorem observe_unknown_parent (hval : validateCodexProviderChildObservation input = .ok clear)
    (hrow : store.findByProviderSession "codex" input.registration.providerSessionId = some existing)
    (hpar : ¬ store.Known input.registration.parentWorkerId) :
    (observeCodexProviderChild chrono env store input).2 = store := by
  have hprov := provider_of_accepted hval
  unfold observeCodexProviderChild registerProviderChildWithConn
  rw [hval]
  simp only [hprov, hrow, if_true, Store.update_error hpar]
  split <;> rfl

theorem observe_new (chrono : Chrono Instant) (env : Env Instant)
    (hval : validateCodexProviderChildObservation input = .ok clear)
    (hrow : store.findByProviderSession "codex" input.registration.providerSessionId = none)
    (hinsr : store.Insertable env.newId input.registration.parentWorkerId) :
    let after := (observeCodexProviderChild chrono env store input).2
    after.ids = store.ids ++ [env.newId] ∧
      after.findByProviderSession "codex" input.registration.providerSessionId =
        some (newChildRecord chrono env.now env.newId input.registration input.turnStartedAt true) := by
  have hprov := provider_of_accepted hval
  have haft : (observeCodexProviderChild chrono env store input).2 =
      { workers := store.workers ++
          [newChildRecord chrono env.now env.newId input.registration input.turnStartedAt true] } := by
    unfold observeCodexProviderChild registerProviderChildWithConn
    rw [hval]
    simp only [hprov, hrow]
    rw [Store.insertRecord_ok hinsr]
  refine ⟨?_, ?_⟩
  · rw [haft]
    unfold Store.ids
    rw [map_append]
    rfl
  · rw [haft]
    exact Store.find_append hrow hprov rfl

theorem observe_not_insertable (hval : validateCodexProviderChildObservation input = .ok clear)
    (hrow : store.findByProviderSession "codex" input.registration.providerSessionId = none)
    (hinsr : ¬ store.Insertable env.newId input.registration.parentWorkerId) :
    (observeCodexProviderChild chrono env store input).2 = store := by
  have hprov := provider_of_accepted hval
  obtain ⟨error, herr⟩ := Store.insertRecord_error
    (newChildRecord chrono env.now env.newId input.registration input.turnStartedAt true) hinsr
  unfold observeCodexProviderChild registerProviderChildWithConn
  rw [hval]
  simp only [hprov, hrow, herr]

end

end Wardian.Workers
