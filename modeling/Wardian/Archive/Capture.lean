/-
Which observations of a provider are archived.

While logging is disabled nothing is archived.  What was observed then may be observed again later,
so for each source of a provider it is kept since when and until when logging was last disabled, when
that was last confirmed, and which observations were seen at that time.  A row of the provider's
database is judged by the time at which it was created.

Main results:

* `Reaches.tracks` — what is kept of the intervals in every run;
* `shouldSkipEvent_iff` — which observations from such an interval are left out;
* `Reaches.logging_off` — nothing from such an interval is archived in a run that appends only
  observations that are caught.
-/

import Mathlib.Data.String.Basic
import Wardian.ProviderLog.Transcript

set_option autoImplicit false

namespace Wardian.Archive

open List
open ProviderLog (AgentChatEvent AgentChatEventKind)

/-! ### Times -/

/-- How times are read, and the texts of times in UTC with milliseconds: such texts are ordered as
their times are. -/
structure Rfc3339 where
  /-- `DateTime::parse_from_rfc3339` -/
  parse : String → Option Int
  UtcMillis : String → Prop
  ordered : ∀ s t, UtcMillis s → UtcMillis t →
    ∃ a b, parse s = some a ∧ parse t = some b ∧ (s ≤ t ↔ a ≤ b)

/-! ### What is kept -/

structure ConversationCaptureEventScope where
  providerSourceKey : Option String
  skipEventsAtOrBefore : Option String
  disabledFrom : Option String
  disabledUntil : Option String
  eventIds : List String

structure ConversationCaptureState where
  skipEventsAtOrBefore : Option String
  skipEventIds : List String
  skipEventScopes : List ConversationCaptureEventScope

/-- `ConversationCaptureState::default`. -/
def ConversationCaptureState.default : ConversationCaptureState := ⟨none, [], []⟩

def eventIdentityIds (event : AgentChatEvent) : List String :=
  event.id ::
    match event.metadata.get? "legacy_event_ids" with
    | some (.array aliases) => aliases.filterMap Value.asStr
    | _ => []

def isCanonicalOpencodeDbEvent (event : AgentChatEvent) : Bool :=
  event.source = some "opencode_db" && ((event.metadata.get? "part_id").bind Value.asStr).isSome

/-! ### What is left out -/

def timestampIsInDisabledWindow (time : Rfc3339) (createdAt disabledFrom disabledUntil : String) :
    Bool :=
  match time.parse createdAt, time.parse disabledFrom, time.parse disabledUntil with
  | some createdAt, some disabledFrom, some disabledUntil =>
    disabledFrom < createdAt && createdAt ≤ disabledUntil
  | _, _, _ => false

/-- A row of the database is not judged by the cutoff when the interval is known. -/
def ConversationCaptureEventScope.cutoffMatch (scope : ConversationCaptureEventScope)
    (event : AgentChatEvent) : Bool :=
  match scope.skipEventsAtOrBefore, event.createdAt with
  | some cutoff, some createdAt =>
    decide (createdAt ≤ cutoff) && (!isCanonicalOpencodeDbEvent event ||
      scope.disabledFrom.isNone || scope.disabledUntil.isNone)
  | _, _ => false

def ConversationCaptureEventScope.disabledWindowMatch (time : Rfc3339)
    (scope : ConversationCaptureEventScope) (event : AgentChatEvent) : Bool :=
  match scope.disabledFrom, scope.disabledUntil, event.createdAt with
  | some disabledFrom, some disabledUntil, some createdAt =>
    timestampIsInDisabledWindow time createdAt disabledFrom disabledUntil
  | _, _, _ => false

def ConversationCaptureEventScope.matchesEvent (time : Rfc3339)
    (scope : ConversationCaptureEventScope) (event : AgentChatEvent)
    (providerSourceKey : Option String) : Bool :=
  scope.providerSourceKey = providerSourceKey &&
    ((eventIdentityIds event).any (scope.eventIds.contains ·) || scope.cutoffMatch event ||
      scope.disabledWindowMatch time event)

def shouldSkipEvent (time : Rfc3339) (state : ConversationCaptureState) (event : AgentChatEvent)
    (providerSourceKey : Option String) : Bool :=
  (providerSourceKey.isNone && (eventIdentityIds event).any (state.skipEventIds.contains ·)) ||
    state.skipEventScopes.any (·.matchesEvent time event providerSourceKey) ||
    (providerSourceKey.isNone &&
      match state.skipEventsAtOrBefore, event.createdAt with
      | some cutoff, some createdAt => decide (createdAt ≤ cutoff)
      | _, _ => false)

/-! ### Logging is disabled and enabled -/

/-- The identities of observations are kept once each, and blank ones are not kept. -/
def addEventIds (eventIds : List String) (events : List AgentChatEvent) : List String :=
  (events.flatMap eventIdentityIds).foldl (fun seen eventId =>
    if Text.isBlank eventId || seen.contains eventId then seen else seen ++ [eventId]) eventIds

def ConversationCaptureEventScope.discard (scope : ConversationCaptureEventScope) (cutoff : String)
    (events : List AgentChatEvent) : ConversationCaptureEventScope :=
  let opens := scope.disabledFrom.isNone || scope.disabledUntil.isSome
  { scope with
    skipEventsAtOrBefore := some cutoff
    disabledFrom := if opens then some cutoff else scope.disabledFrom
    disabledUntil := if opens then none else scope.disabledUntil
    eventIds := addEventIds scope.eventIds events }

/-- The first scope of the source is changed, and there is one if there was none. -/
def discardScopes (providerSourceKey : String) (cutoff : String) (events : List AgentChatEvent) :
    List ConversationCaptureEventScope → List ConversationCaptureEventScope
  | [] => [ConversationCaptureEventScope.discard ⟨some providerSourceKey, none, none, none, []⟩
      cutoff events]
  | scope :: scopes =>
    if scope.providerSourceKey = some providerSourceKey then scope.discard cutoff events :: scopes
    else scope :: discardScopes providerSourceKey cutoff events scopes

def discardAgentCapture (state : ConversationCaptureState) (providerSourceKey : Option String)
    (events : List AgentChatEvent) (cutoff : String) : ConversationCaptureState :=
  match providerSourceKey with
  | some providerSourceKey =>
    { state with
      skipEventScopes := discardScopes providerSourceKey cutoff events state.skipEventScopes }
  | none =>
    { state with
      skipEventsAtOrBefore := some cutoff
      skipEventIds := addEventIds state.skipEventIds events }

def ConversationCaptureEventScope.close (scope : ConversationCaptureEventScope) (now : String) :
    ConversationCaptureEventScope :=
  if scope.disabledFrom.isSome && scope.disabledUntil.isNone then
    { scope with disabledUntil := some now }
  else scope

def closeScopes (providerSourceKey : String) (now : String) :
    List ConversationCaptureEventScope → List ConversationCaptureEventScope
  | [] => []
  | scope :: scopes =>
    if scope.providerSourceKey = some providerSourceKey then scope.close now :: scopes
    else scope :: closeScopes providerSourceKey now scopes

def closeAgentCaptureDisabledWindow (state : ConversationCaptureState)
    (providerSourceKey : Option String) (now : String) : ConversationCaptureState :=
  match providerSourceKey with
  | some providerSourceKey =>
    { state with skipEventScopes := closeScopes providerSourceKey now state.skipEventScopes }
  | none => state

/-! ### What is archived -/

inductive ConversationRecordKind
  | message
  | toolCall
  | toolResult
  | approval
  | error
  | lifecycle
  | status
  deriving DecidableEq

def recordKindFromChatEventKind : AgentChatEventKind → Option ConversationRecordKind
  | .message => some .message
  | .toolCall => some .toolCall
  | .toolResult => some .toolResult
  | .approval => some .approval
  | .status => none
  | .error => some .error
  | .terminalOutput => none
  | .memory => none

def recordable (event : AgentChatEvent) : Bool := (recordKindFromChatEventKind event.kind).isSome

/-- The observations that an append goes on with. -/
def activeEvents (time : Rfc3339) (state : ConversationCaptureState) (providerSourceKey : String)
    (events : List AgentChatEvent) : List AgentChatEvent :=
  events.filter fun event => !shouldSkipEvent time state event (some providerSourceKey)

/-- Those of them that a narrative has records of. -/
def archivedEvents (time : Rfc3339) (state : ConversationCaptureState) (providerSourceKey : String)
    (events : List AgentChatEvent) : List AgentChatEvent :=
  (activeEvents time state providerSourceKey events).filter recordable

/-! ### Runs -/

/-- An interval in which logging was disabled. -/
structure Interval where
  start : String
  stop : String

/-- Logging is disabled in an interval that has ended, or in one that has not. -/
def Disabled (closed : List Interval) (opened : Option String) (createdAt : String) : Prop :=
  (∃ interval ∈ closed, interval.start < createdAt ∧ createdAt ≤ interval.stop) ∨
    ∃ start ∈ opened, start < createdAt

/-- An observation that was archived, and the intervals that there were then. -/
structure Recording where
  event : AgentChatEvent
  closed : List Interval
  opened : Option String

/-- What is kept, the intervals of one source so far, when logging was last said to be disabled, the
identities that were seen then, and what was archived of the source. -/
structure System where
  state : ConversationCaptureState
  now : String
  closed : List Interval
  opened : Option String
  cutoff : Option String
  listed : List String
  recorded : List Recording

/-- The source has another interval, or goes on with the one that has not ended. -/
def System.disable (σ : System) (cutoff : String) (events : List AgentChatEvent) : System :=
  { σ with
    opened := some (σ.opened.getD cutoff)
    cutoff := some cutoff
    listed := σ.listed ++ events.flatMap eventIdentityIds }

def System.enable (σ : System) (stop : String) : System :=
  match σ.opened with
  | some start => { σ with closed := σ.closed ++ [⟨start, stop⟩], opened := none }
  | none => σ

/-- One step, also of another source.  `Meets` is what the observations of an append are like. -/
inductive Step (time : Rfc3339) (providerSourceKey : String)
    (Meets : System → AgentChatEvent → Prop) (σ : System) : System → Prop
  | discard (source : Option String) (events : List AgentChatEvent) {cutoff : String}
      (hnow : σ.now ≤ cutoff) (hmil : time.UtcMillis cutoff) :
      Step time providerSourceKey Meets σ
        { (if source = some providerSourceKey then σ.disable cutoff events else σ) with
          state := discardAgentCapture σ.state source events cutoff
          now := cutoff }
  | close (source : Option String) {stop : String} (hnow : σ.now ≤ stop)
      (hmil : time.UtcMillis stop) :
      Step time providerSourceKey Meets σ
        { (if source = some providerSourceKey then σ.enable stop else σ) with
          state := closeAgentCaptureDisabledWindow σ.state source stop
          now := stop }
  | append (events : List AgentChatEvent) (hmeets : ∀ event ∈ events, Meets σ event) :
      Step time providerSourceKey Meets σ
        { σ with
          recorded := σ.recorded ++ (archivedEvents time σ.state providerSourceKey events).map
            fun event => ⟨event, σ.closed, σ.opened⟩ }

/-- The runs of an archive that has kept nothing. -/
inductive Reaches (time : Rfc3339) (providerSourceKey : String)
    (Meets : System → AgentChatEvent → Prop) : System → Prop
  | initial (now : String) (hmil : time.UtcMillis now) :
      Reaches time providerSourceKey Meets ⟨.default, now, [], none, none, [], []⟩
  | step {σ σ' : System} (h : Reaches time providerSourceKey Meets σ)
      (hstep : Step time providerSourceKey Meets σ σ') : Reaches time providerSourceKey Meets σ'

/-- The observation was seen when logging was disabled. -/
def System.Listed (σ : System) (event : AgentChatEvent) : Prop :=
  ∃ eventId ∈ eventIdentityIds event, eventId ∈ σ.listed ∧ Text.isBlank eventId = false

/-- What is left out of the observations from an interval: those that were seen then, those that are
not newer than the last time at which logging was said to be disabled while it still is, and when it
is enabled again those that are no rows of the database, and those from the last interval. -/
def System.Caught (σ : System) (event : AgentChatEvent) (createdAt : String) : Prop :=
  σ.Listed event ∨
    match σ.opened with
    | some _ => ∃ cutoff ∈ σ.cutoff, createdAt ≤ cutoff
    | none => isCanonicalOpencodeDbEvent event = false ∨
        ∃ interval ∈ σ.closed.getLast?, interval.start < createdAt ∧ createdAt ≤ interval.stop

/-! ### What is kept of the intervals -/

/-- One scope keeps the last interval, and the cutoff in it. -/
inductive Scoped (time : Rfc3339) (σ : System) (scope : ConversationCaptureEventScope) : Prop
  | opened {start cutoff : String} (hfrom : scope.disabledFrom = some start)
      (hunt : scope.disabledUntil = none) (hscp : scope.skipEventsAtOrBefore = some cutoff)
      (hopnd : σ.opened = some start) (hcut : σ.cutoff = some cutoff)
      (hstart : time.UtcMillis start) (hord : start ≤ cutoff)
      (hearl : ∀ interval ∈ σ.closed, interval.stop ≤ start)
  | closed {earlier : List Interval} {start stop cutoff : String}
      (hfrom : scope.disabledFrom = some start) (hunt : scope.disabledUntil = some stop)
      (hscp : scope.skipEventsAtOrBefore = some cutoff) (hopnd : σ.opened = none)
      (hclsd : σ.closed = earlier ++ [⟨start, stop⟩])
      (hstart : time.UtcMillis start) (hstop : time.UtcMillis stop) (hord : start ≤ cutoff)
      (hcut : cutoff ≤ stop) (hearl : ∀ interval ∈ earlier, interval.stop ≤ start)

/-- The scopes of a source. -/
def scopesOf (providerSourceKey : String) (scopes : List ConversationCaptureEventScope) :
    List ConversationCaptureEventScope :=
  scopes.filter (·.providerSourceKey = some providerSourceKey)

/-- What is kept of the intervals. -/
structure Tracks (time : Rfc3339) (providerSourceKey : String) (σ : System) : Prop where
  now : time.UtcMillis σ.now
  ended : ∀ interval ∈ σ.closed, interval.stop ≤ σ.now
  started : ∀ cutoff ∈ σ.cutoff, cutoff ≤ σ.now
  kept : (scopesOf providerSourceKey σ.state.skipEventScopes = [] ∧ σ.closed = [] ∧
      σ.opened = none ∧ σ.listed = []) ∨
    ∃ scope, scopesOf providerSourceKey σ.state.skipEventScopes = [scope] ∧ Scoped time σ scope ∧
      ∀ eventId, eventId ∈ scope.eventIds ↔ eventId ∈ σ.listed ∧ Text.isBlank eventId = false

section Runs

variable {time : Rfc3339} {providerSourceKey : String} {Meets : System → AgentChatEvent → Prop}
  {σ σ' : System} {scopes : List ConversationCaptureEventScope} {event : AgentChatEvent}
  {createdAt cutoff : String} {events : List AgentChatEvent}

/-- The scope that a source has is discarded, and no other one. -/
theorem scopesOf_discardScopes {source : String} :
    scopesOf providerSourceKey (discardScopes source cutoff events scopes) =
      if source = providerSourceKey then
        match scopesOf providerSourceKey scopes with
        | [] => [ConversationCaptureEventScope.discard ⟨some source, none, none, none, []⟩ cutoff
            events]
        | scope :: rest => scope.discard cutoff events :: rest
      else scopesOf providerSourceKey scopes := by
  induction scopes with
  | nil =>
    by_cases hsrc : source = providerSourceKey
    · subst hsrc
      simp [discardScopes, scopesOf, ConversationCaptureEventScope.discard]
    · simp [discardScopes, scopesOf, ConversationCaptureEventScope.discard, hsrc]
  | cons scope scopes ih =>
    unfold scopesOf at ih ⊢
    by_cases hscp : scope.providerSourceKey = some source
    · by_cases hsrc : source = providerSourceKey
      · subst hsrc
        simp [discardScopes, hscp, ConversationCaptureEventScope.discard]
      · simp [discardScopes, hscp, ConversationCaptureEventScope.discard, hsrc]
    · by_cases hsrc : source = providerSourceKey
      · subst hsrc
        simp only [discardScopes, hscp, if_false, if_true, filter_cons, decide_false,
          Bool.false_eq_true] at ih ⊢
        exact ih
      · simp only [discardScopes, hscp, hsrc, if_false, filter_cons] at ih ⊢
        rw [ih]

variable {stop : String}

theorem scopesOf_closeScopes {source : String} :
    scopesOf providerSourceKey (closeScopes source stop scopes) =
      if source = providerSourceKey then
        match scopesOf providerSourceKey scopes with
        | [] => []
        | scope :: rest => scope.close stop :: rest
      else scopesOf providerSourceKey scopes := by
  have hkey : ∀ scope : ConversationCaptureEventScope,
      (scope.close stop).providerSourceKey = scope.providerSourceKey := by
    intro scope
    unfold ConversationCaptureEventScope.close
    split <;> rfl
  induction scopes with
  | nil => simp [closeScopes, scopesOf]
  | cons scope scopes ih =>
    unfold scopesOf at ih ⊢
    by_cases hscp : scope.providerSourceKey = some source
    · by_cases hsrc : source = providerSourceKey
      · subst hsrc
        simp [closeScopes, hscp, hkey]
      · simp [closeScopes, hscp, hkey, hsrc]
    · by_cases hsrc : source = providerSourceKey
      · subst hsrc
        simp only [closeScopes, hscp, if_false, if_true, filter_cons, decide_false,
          Bool.false_eq_true] at ih ⊢
        exact ih
      · simp only [closeScopes, hscp, hsrc, if_false, filter_cons] at ih ⊢
        rw [ih]

/-- The identities that are kept are those that were kept and those that are not blank. -/
theorem mem_addEventIds {eventIds : List String} {eventId : String} :
    eventId ∈ addEventIds eventIds events ↔
      eventId ∈ eventIds ∨ (eventId ∈ events.flatMap eventIdentityIds ∧
        Text.isBlank eventId = false) := by
  unfold addEventIds
  generalize events.flatMap eventIdentityIds = seen
  induction seen generalizing eventIds with
  | nil => simp
  | cons first seen ih =>
    rw [foldl_cons, ih, mem_cons]
    by_cases hskip : (Text.isBlank first || eventIds.contains first) = true
    · rw [if_pos hskip]
      rw [Bool.or_eq_true, contains_iff_mem] at hskip
      constructor
      · exact Or.imp id fun h => ⟨.inr h.1, h.2⟩
      · rintro (h | ⟨rfl | h, hnot⟩)
        · exact .inl h
        · rcases hskip with hblk | hmem
          · rw [hblk] at hnot
            cases hnot
          · exact .inl hmem
        · exact .inr ⟨h, hnot⟩
    · rw [if_neg hskip, mem_append, mem_singleton]
      rw [Bool.or_eq_true, not_or, Bool.not_eq_true] at hskip
      constructor
      · rintro ((h | rfl) | h)
        · exact .inl h
        · exact .inr ⟨.inl rfl, hskip.1⟩
        · exact .inr ⟨.inr h.1, h.2⟩
      · rintro (h | ⟨rfl | h, hnot⟩)
        · exact .inl (.inl h)
        · exact .inl (.inr rfl)
        · exact .inr ⟨h, hnot⟩

variable {scope : ConversationCaptureEventScope}

/-- Another discard of the interval, or the first one of the next. -/
theorem Scoped.discard (h : Scoped time σ scope)
    (hend : ∀ interval ∈ σ.closed, interval.stop ≤ σ.now)
    (hstrd : ∀ cutoff ∈ σ.cutoff, cutoff ≤ σ.now) (hnow : σ.now ≤ cutoff)
    (hmil : time.UtcMillis cutoff) : Scoped time (σ.disable cutoff events)
      (scope.discard cutoff events) := by
  cases h with
  | @opened start last hfrom hunt hscp hopnd hcut hstart hord hearl =>
    have hlast := hstrd last hcut
    refine .opened ?_ ?_ rfl ?_ rfl hstart
      (le_trans hord (le_trans hlast hnow)) hearl
    · simp [ConversationCaptureEventScope.discard, hfrom, hunt]
    · simp [ConversationCaptureEventScope.discard, hfrom, hunt]
    · simp [System.disable, hopnd]
  | @closed earlier start stop last hfrom hunt hscp hopnd hclsd hstart hstop hord hcut
      hearl =>
      refine .opened ?_ ?_ rfl ?_ rfl hmil le_rfl ?_
      · simp [ConversationCaptureEventScope.discard, hunt]
      · simp [ConversationCaptureEventScope.discard, hunt]
      · simp [System.disable, hopnd]
      · exact fun interval hintv => le_trans (hend interval hintv) hnow

theorem Scoped.close (h : Scoped time σ scope) (hstrd : ∀ cutoff ∈ σ.cutoff, cutoff ≤ σ.now)
    (hnow : σ.now ≤ stop) (hmil : time.UtcMillis stop) :
    Scoped time (σ.enable stop) (scope.close stop) := by
  unfold ConversationCaptureEventScope.close System.enable
  cases h with
  | opened hfrom hunt hscp hopnd hcut hstart hord hearl =>
    have hlast := hstrd _ hcut
    simp only [hfrom, hunt, hopnd, Option.isSome_some, Option.isNone_none, Bool.and_self,
      if_true]
    exact .closed rfl rfl hscp rfl rfl hstart hmil hord (le_trans hlast hnow) hearl
  | closed hfrom hunt hscp hopnd hclsd hstart hstop hord hcut hearl =>
    simp only [hunt, hopnd, Option.isNone_some, Bool.and_false, Bool.false_eq_true, if_false]
    exact .closed hfrom hunt hscp hopnd hclsd hstart hstop hord hcut hearl

theorem Scoped.congr {scope : ConversationCaptureEventScope} (h : Scoped time σ scope)
    (hclsd : σ'.closed = σ.closed) (hopnd : σ'.opened = σ.opened)
    (hcut : σ'.cutoff = σ.cutoff) : Scoped time σ' scope := by
  cases h with
  | opened hfrom hunt hscp hopen hlast hstart hord hearl =>
    exact .opened hfrom hunt hscp (hopnd.trans hopen) (hcut.trans hlast) hstart hord
      (hclsd ▸ hearl)
  | closed hfrom hunt hscp hopen hends hstart hstop hord hlast hearl =>
    exact .closed hfrom hunt hscp (hopnd.trans hopen) (hclsd.trans hends) hstart hstop
      hord hlast hearl

variable {source : Option String}

theorem Tracks.discard (h : Tracks time providerSourceKey σ)
    (hnow : σ.now ≤ cutoff) (hmil : time.UtcMillis cutoff) :
    Tracks time providerSourceKey
      { (if source = some providerSourceKey then σ.disable cutoff events else σ) with
        state := discardAgentCapture σ.state source events cutoff
        now := cutoff } := by
  by_cases hsrc : source = some providerSourceKey
  · subst hsrc
    rw [if_pos rfl]
    refine ⟨hmil, fun interval hintv => le_trans (h.ended interval hintv) hnow, ?_, ?_⟩
    · rintro _ ⟨⟩
      exact le_rfl
    · right
      show ∃ scope, scopesOf providerSourceKey (discardScopes providerSourceKey cutoff events
        σ.state.skipEventScopes) = [scope] ∧ _ ∧ _
      rw [scopesOf_discardScopes, if_pos rfl]
      rcases h.kept with ⟨hnone, hclsd, hopnd, hlstd⟩ | ⟨scope, hscp, hscpd, hids⟩
      · rw [hnone]
        refine ⟨_, rfl, ?_, fun eventId => ?_⟩
        · refine .opened rfl rfl rfl ?_ rfl hmil le_rfl ?_
          · simp [System.disable, hopnd]
          · intro interval hintv
            exact le_trans (h.ended interval hintv) hnow
        · show eventId ∈ addEventIds [] events ↔ eventId ∈ σ.listed ++ _ ∧ _
          rw [mem_addEventIds, hlstd]
          simp
      · rw [hscp]
        refine ⟨_, rfl, (hscpd.discard h.ended h.started hnow hmil).congr rfl rfl rfl,
          fun eventId => ?_⟩
        show eventId ∈ addEventIds scope.eventIds events ↔ eventId ∈ σ.listed ++ _ ∧ _
        rw [mem_addEventIds, hids, mem_append, or_and_right]
  · rw [if_neg hsrc]
    refine ⟨hmil, fun interval hintv => le_trans (h.ended interval hintv) hnow,
      fun last hlast => le_trans (h.started last hlast) hnow, ?_⟩
    have hscps : scopesOf providerSourceKey
        (discardAgentCapture σ.state source events cutoff).skipEventScopes =
        scopesOf providerSourceKey σ.state.skipEventScopes := by
      cases source with
      | none => rfl
      | some own =>
        show scopesOf providerSourceKey (discardScopes own cutoff events _) = _
        rw [scopesOf_discardScopes, if_neg fun hown => hsrc (congrArg some hown)]
    rw [hscps]
    exact h.kept.imp id fun ⟨scope, hscp, hscpd, hids⟩ =>
      ⟨scope, hscp, hscpd.congr rfl rfl rfl, hids⟩

theorem Tracks.close (h : Tracks time providerSourceKey σ)
    (hnow : σ.now ≤ stop) (hmil : time.UtcMillis stop) :
    Tracks time providerSourceKey
      { (if source = some providerSourceKey then σ.enable stop else σ) with
        state := closeAgentCaptureDisabledWindow σ.state source stop
        now := stop } := by
  have hend : ∀ interval ∈ (σ.enable stop).closed, interval.stop ≤ stop := by
    unfold System.enable
    split
    · intro interval hintv
      rcases mem_append.1 hintv with hintv | hintv
      · exact le_trans (h.ended interval hintv) hnow
      · rw [mem_singleton.1 hintv]
    · exact fun interval hintv => le_trans (h.ended interval hintv) hnow
  have hcut : (σ.enable stop).cutoff = σ.cutoff ∧ (σ.enable stop).listed = σ.listed := by
    unfold System.enable
    split <;> exact ⟨rfl, rfl⟩
  by_cases hsrc : source = some providerSourceKey
  · subst hsrc
    rw [if_pos rfl]
    refine ⟨hmil, hend, fun last hlast => ?_, ?_⟩
    · exact le_trans (h.started last (hcut.1 ▸ hlast)) hnow
    · show (scopesOf providerSourceKey (closeScopes providerSourceKey stop
        σ.state.skipEventScopes) = [] ∧ _) ∨ ∃ scope, scopesOf providerSourceKey
          (closeScopes providerSourceKey stop σ.state.skipEventScopes) = [scope] ∧ _ ∧ _
      rw [scopesOf_closeScopes, if_pos rfl]
      rcases h.kept with ⟨hnone, hclsd, hopnd, hlstd⟩ | ⟨scope, hscp, hscpd, hids⟩
      · rw [hnone]
        have hsame : σ.enable stop = σ := by
          unfold System.enable
          rw [hopnd]
        exact .inl ⟨rfl, by rw [hsame, hclsd], by rw [hsame, hopnd], by rw [hsame, hlstd]⟩
      · rw [hscp]
        refine .inr ⟨_, rfl, (hscpd.close h.started hnow hmil).congr rfl rfl rfl,
          fun eventId => ?_⟩
        show _ ↔ eventId ∈ (σ.enable stop).listed ∧ _
        rw [hcut.2, ← hids]
        unfold ConversationCaptureEventScope.close
        split <;> rfl
  · rw [if_neg hsrc]
    refine ⟨hmil, fun interval hintv => le_trans (h.ended interval hintv) hnow,
      fun last hlast => le_trans (h.started last hlast) hnow, ?_⟩
    have hscps : scopesOf providerSourceKey
        (closeAgentCaptureDisabledWindow σ.state source stop).skipEventScopes =
        scopesOf providerSourceKey σ.state.skipEventScopes := by
      cases source with
      | none => rfl
      | some own =>
        show scopesOf providerSourceKey (closeScopes own stop _) = _
        rw [scopesOf_closeScopes, if_neg fun hown => hsrc (congrArg some hown)]
    rw [hscps]
    exact h.kept.imp id fun ⟨scope, hscp, hscpd, hids⟩ =>
      ⟨scope, hscp, hscpd.congr rfl rfl rfl, hids⟩

/-- **What is kept of the intervals** in every run. -/
theorem Reaches.tracks (h : Reaches time providerSourceKey Meets σ) : Tracks time providerSourceKey σ := by
  induction h with
  | initial now hmil => exact ⟨hmil, nofun, nofun, .inl ⟨rfl, rfl, rfl, rfl⟩⟩
  | step _ hstep ih =>
    cases hstep with
    | discard source events hnow hmil => exact ih.discard hnow hmil
    | close source hnow hmil => exact ih.close hnow hmil
    | append events _ =>
      refine ⟨ih.now, ih.ended, ih.started, ?_⟩
      exact ih.kept.imp id fun ⟨scope, hscp, hscpd, hids⟩ =>
        ⟨scope, hscp, hscpd.congr rfl rfl rfl, hids⟩

/-! ### What is left out of an interval -/

theorem timestampIsInDisabledWindow_iff {disabledFrom disabledUntil : String}
    (hcrtd : time.UtcMillis createdAt) (hfrom : time.UtcMillis disabledFrom)
    (hunt : time.UtcMillis disabledUntil) :
    timestampIsInDisabledWindow time createdAt disabledFrom disabledUntil = true ↔
      disabledFrom < createdAt ∧ createdAt ≤ disabledUntil := by
  obtain ⟨created, start, hpar, hstart, hbef⟩ := time.ordered _ _ hcrtd hfrom
  obtain ⟨created', stop, hpar', hstop, hbeh⟩ := time.ordered _ _ hcrtd hunt
  obtain rfl := Option.some.inj (hpar.symm.trans hpar')
  unfold timestampIsInDisabledWindow
  rw [hpar, hstart, hstop]
  simp only [Bool.and_eq_true, decide_eq_true_eq]
  rw [hbeh, lt_iff_lt_of_le_iff_le hbef]

variable {state : ConversationCaptureState}

theorem shouldSkipEvent_some :
    shouldSkipEvent time state event (some providerSourceKey) = true ↔
      ∃ scope ∈ scopesOf providerSourceKey state.skipEventScopes,
        (∃ eventId ∈ eventIdentityIds event, eventId ∈ scope.eventIds) ∨
          scope.cutoffMatch event = true ∨ scope.disabledWindowMatch time event = true := by
  unfold shouldSkipEvent ConversationCaptureEventScope.matchesEvent scopesOf
  simp only [Option.isNone_some, Bool.false_and, Bool.false_or, Bool.or_false, any_eq_true,
    contains_iff_mem, Bool.and_eq_true, Bool.or_eq_true, decide_eq_true_eq, mem_filter,
    and_assoc, or_assoc]

/-- The scope of a source that was disabled before judges alone. -/
theorem Tracks.shouldSkipEvent (hscp : scopesOf providerSourceKey σ.state.skipEventScopes = [scope])
    (hids : ∀ eventId, eventId ∈ scope.eventIds ↔ eventId ∈ σ.listed ∧ Text.isBlank eventId = false) :
    Archive.shouldSkipEvent time σ.state event (some providerSourceKey) = true ↔
      σ.Listed event ∨ scope.cutoffMatch event = true ∨
        scope.disabledWindowMatch time event = true := by
  rw [shouldSkipEvent_some, hscp]
  simp only [mem_singleton, exists_eq_left, hids, System.Listed]

/-- **Which observations from an interval are left out.** -/
theorem shouldSkipEvent_iff (h : Tracks time providerSourceKey σ) (hevent : event.createdAt = some createdAt)
    (hmil : time.UtcMillis createdAt) (hdis : Disabled σ.closed σ.opened createdAt) :
    shouldSkipEvent time σ.state event (some providerSourceKey) = true ↔
      σ.Caught event createdAt := by
  rcases h.kept with ⟨-, hclsd, hopnd, -⟩ | ⟨scope, hscp, hscpd, hids⟩
  · rw [hclsd, hopnd] at hdis
    rcases hdis with ⟨interval, hintv, -⟩ | ⟨start, hstart, -⟩
    · cases hintv
    · cases hstart
  · rw [Tracks.shouldSkipEvent hscp hids]
    refine or_congr_right ?_
    unfold ConversationCaptureEventScope.cutoffMatch
      ConversationCaptureEventScope.disabledWindowMatch
    cases hscpd with
    | opened hfrom hunt hcut hopnd hcutoff hstart hord hearl =>
      simp only [hfrom, hunt, hcut, hevent, hopnd, hcutoff, Option.isNone_none, Bool.or_true,
        Bool.and_true, Bool.false_eq_true, or_false, decide_eq_true_eq, Option.mem_some_iff,
        exists_eq_left', Option.isNone_some]
    | @closed earlier start stop cutoff hfrom hunt hcut hopnd hclsd hstart hstop hord hcutoff
        hearl =>
        have hwin := timestampIsInDisabledWindow_iff hmil hstart hstop
        simp only [hfrom, hunt, hcut, hevent, hopnd, hclsd, Option.isNone_some, Bool.or_false,
          Bool.and_eq_true, decide_eq_true_eq, Bool.not_eq_true', hwin,
          getLast?_concat, Option.mem_some_iff, exists_eq_left']
        constructor
        · exact Or.imp And.right id
        · rintro (hoth | hlast)
          · -- what is not in the last interval is not newer than its cutoff
            rw [hclsd, hopnd] at hdis
            rcases hdis with ⟨interval, hintv, hins⟩ | ⟨_, hnone, -⟩
            · rcases mem_append.1 hintv with hintv | hintv
              · exact .inl ⟨le_trans hins.2 (le_trans (hearl _ hintv) hord), hoth⟩
              · rw [mem_singleton.1 hintv] at hins
                exact .inr hins
            · cases hnone
          · exact .inr hlast

/-- A row of the database from outside of the intervals is not left out. -/
theorem shouldSkipEvent_eq_false (h : Tracks time providerSourceKey σ)
    (hevent : event.createdAt = some createdAt) (hmil : time.UtcMillis createdAt)
    (hcan : isCanonicalOpencodeDbEvent event = true) (hopnd : σ.opened = none)
    (henbd : ¬Disabled σ.closed σ.opened createdAt) (hlstd : ¬σ.Listed event) :
    shouldSkipEvent time σ.state event (some providerSourceKey) = false := by
  refine Bool.eq_false_iff.2 fun hskip => ?_
  rcases h.kept with ⟨hnone, -⟩ | ⟨scope, hscp, hscpd, hids⟩
  · obtain ⟨scope, hscp, -⟩ := shouldSkipEvent_some.1 hskip
    rw [hnone] at hscp
    cases hscp
  · have hmatch := ((Tracks.shouldSkipEvent hscp hids).1 hskip).resolve_left hlstd
    unfold ConversationCaptureEventScope.cutoffMatch
      ConversationCaptureEventScope.disabledWindowMatch at hmatch
    cases hscpd with
    | opened hfrom hunt hcut hopen hcutoff hstart hord hearl =>
      rw [hopnd] at hopen
      cases hopen
    | closed hfrom hunt hcut hopen hclsd hstart hstop hord hcutoff hearl =>
      simp only [hfrom, hunt, hcut, hevent, hcan, Option.isNone_some, Bool.or_false,
        Bool.not_true, Bool.and_false, Bool.false_eq_true, false_or,
        timestampIsInDisabledWindow_iff hmil hstart hstop] at hmatch
      refine henbd (.inl ⟨⟨_, _⟩, ?_, hmatch⟩)
      rw [hclsd]
      exact mem_append_right _ (mem_singleton_self _)

/-! ### Logging off -/

/-- What is appended was created at a time in UTC with milliseconds, and when it is from an interval
it is caught. -/
def MeetsCaught (time : Rfc3339) (σ : System) (event : AgentChatEvent) : Prop :=
  ∃ createdAt, event.createdAt = some createdAt ∧ time.UtcMillis createdAt ∧
    (recordable event = true → Disabled σ.closed σ.opened createdAt → σ.Caught event createdAt)

theorem mem_archivedEvents :
    event ∈ archivedEvents time state providerSourceKey events ↔ event ∈ events ∧
      recordable event = true ∧
      shouldSkipEvent time state event (some providerSourceKey) = false := by
  unfold archivedEvents activeEvents
  simp only [mem_filter, Bool.not_eq_true', and_assoc, and_comm (a := recordable event = true)]

theorem Step.recorded (h : Step time providerSourceKey Meets σ σ') :
    σ'.recorded = σ.recorded ∨ ∃ events, (∀ event ∈ events, Meets σ event) ∧
      σ'.recorded = σ.recorded ++ (archivedEvents time σ.state providerSourceKey events).map
        fun event => ⟨event, σ.closed, σ.opened⟩ := by
  cases h with
  | discard source events hnow hmil =>
    left
    by_cases hsrc : source = some providerSourceKey
    · rw [if_pos hsrc]
      rfl
    · rw [if_neg hsrc]
  | close source hnow hmil =>
    left
    by_cases hsrc : source = some providerSourceKey
    · rw [if_pos hsrc]
      show (σ.enable _).recorded = σ.recorded
      unfold System.enable
      split <;> rfl
    · rw [if_neg hsrc]
  | append events hmeets => exact .inr ⟨events, hmeets, rfl⟩

/-- **Nothing from an interval is archived** when what is appended is caught. -/
theorem Reaches.logging_off (h : Reaches time providerSourceKey (MeetsCaught time) σ) :
    (∀ recording ∈ σ.recorded, ∀ createdAt ∈ recording.event.createdAt,
      ¬Disabled recording.closed recording.opened createdAt) ∧
    (∀ events event createdAt, event ∈ events → recordable event = true →
      event.createdAt = some createdAt → time.UtcMillis createdAt →
      (Disabled σ.closed σ.opened createdAt →
        (event ∉ archivedEvents time σ.state providerSourceKey events ↔ σ.Caught event createdAt)) ∧
      (isCanonicalOpencodeDbEvent event = true → σ.opened = none →
        ¬Disabled σ.closed σ.opened createdAt → ¬σ.Listed event →
        event ∈ archivedEvents time σ.state providerSourceKey events)) := by
  constructor
  · induction h with
    | initial now hmil =>
      intro recording hrecg
      cases hrecg
    | @step σ σ' hrch hstep ih =>
      rcases hstep.recorded with hsame | ⟨events, hmeets, hmore⟩
      · rw [hsame]
        exact ih
      · rw [hmore]
        intro recording hrecg createdAt hcrtd
        rcases mem_append.1 hrecg with hold | hnew
        · exact ih recording hold createdAt hcrtd
        · obtain ⟨event, harch, rfl⟩ := mem_map.1 hnew
          obtain ⟨hevent, hreco, hkept⟩ := mem_archivedEvents.1 harch
          obtain ⟨own, hown, hmil, hcaught⟩ := hmeets event hevent
          obtain rfl := Option.some.inj (hown.symm.trans hcrtd)
          intro hdis
          rw [(shouldSkipEvent_iff hrch.tracks hown hmil hdis).2
            (hcaught hreco hdis)] at hkept
          cases hkept
  · intro events event createdAt hevent hreco hcrtd hmil
    refine ⟨fun hdis => ?_, fun hcan hopnd henbd hlstd => ?_⟩
    · rw [mem_archivedEvents, ← shouldSkipEvent_iff h.tracks hcrtd hmil hdis]
      simp only [hevent, hreco, true_and, Bool.not_eq_false]
    · exact mem_archivedEvents.2 ⟨hevent, hreco,
        shouldSkipEvent_eq_false h.tracks hcrtd hmil hcan hopnd henbd hlstd⟩

end Runs

/-! ### Two intervals -/

def sampleTimes : List String :=
  ["2026-07-01T10:00:00.000Z", "2026-07-01T10:00:01.000Z", "2026-07-01T10:00:02.000Z",
    "2026-07-01T10:00:03.000Z", "2026-07-01T10:00:04.000Z", "2026-07-01T10:00:05.000Z"]

def sampleParse (text : String) : Option Int :=
  (sampleTimes.idxOf? text).map fun seconds => 1782900000000 + 1000 * seconds

def sampleTime : Rfc3339 where
  parse := sampleParse
  UtcMillis text := text ∈ sampleTimes
  ordered s t hs ht := by
    have hall : ∀ s ∈ sampleTimes, ∀ t ∈ sampleTimes, (sampleParse s).isSome ∧
        (s ≤ t ↔ (sampleParse s).getD 0 ≤ (sampleParse t).getD 0) := by decide
    obtain ⟨hsome, hord⟩ := hall s hs t ht
    obtain ⟨htSome, -⟩ := hall t ht t ht
    obtain ⟨a, ha⟩ := Option.isSome_iff_exists.1 hsome
    obtain ⟨b, hb⟩ := Option.isSome_iff_exists.1 htSome
    rw [ha, hb] at hord
    exact ⟨a, b, ha, hb, hord⟩

/-- A row of the database that was created in the third second. -/
def sampleEvent : AgentChatEvent where
  id := "opencode-db:prt_1"
  sessionId := "agent"
  provider := "opencode"
  kind := .message
  role := some .assistant
  text := some "done"
  title := none
  status := none
  turnId := none
  source := some "opencode_db"
  command := none
  exitCode := none
  path := none
  language := none
  createdAt := some "2026-07-01T10:00:02.000Z"
  sequence := some 1
  metadata := .object [("provider_log", .bool true), ("part_id", .string "prt_1")]

/-- Logging is disabled in the second second. -/
def sampleDisabled : System where
  state := discardAgentCapture .default (some "opencode:one") [] "2026-07-01T10:00:01.000Z"
  now := "2026-07-01T10:00:01.000Z"
  closed := []
  opened := some "2026-07-01T10:00:01.000Z"
  cutoff := some "2026-07-01T10:00:01.000Z"
  listed := []
  recorded := []

/-- It is enabled in the fourth one. -/
def sampleEnabled : System :=
  { sampleDisabled with
    state := closeAgentCaptureDisabledWindow sampleDisabled.state (some "opencode:one")
      "2026-07-01T10:00:03.000Z"
    now := "2026-07-01T10:00:03.000Z"
    closed := [⟨"2026-07-01T10:00:01.000Z", "2026-07-01T10:00:03.000Z"⟩]
    opened := none }

/-- It is disabled and enabled once more. -/
def sampleTwice : System :=
  { sampleEnabled with
    state := closeAgentCaptureDisabledWindow (discardAgentCapture sampleEnabled.state
      (some "opencode:one") [] "2026-07-01T10:00:04.000Z") (some "opencode:one")
      "2026-07-01T10:00:05.000Z"
    now := "2026-07-01T10:00:05.000Z"
    closed := [⟨"2026-07-01T10:00:01.000Z", "2026-07-01T10:00:03.000Z"⟩,
      ⟨"2026-07-01T10:00:04.000Z", "2026-07-01T10:00:05.000Z"⟩]
    cutoff := some "2026-07-01T10:00:04.000Z" }

section Sample

variable {Meets : System → AgentChatEvent → Prop}

theorem sample_disabled : Reaches sampleTime "opencode:one" Meets sampleDisabled := by
  have hinit : Reaches sampleTime "opencode:one" Meets _ :=
    .initial "2026-07-01T10:00:00.000Z" (mem_cons_self ..)
  have hnow : "2026-07-01T10:00:00.000Z" ≤ "2026-07-01T10:00:01.000Z" := by decide
  have hmil : "2026-07-01T10:00:01.000Z" ∈ sampleTimes := by decide
  exact hinit.step (.discard (some "opencode:one") [] hnow hmil)

theorem sample_enabled : Reaches sampleTime "opencode:one" Meets sampleEnabled := by
  have hnow : "2026-07-01T10:00:01.000Z" ≤ "2026-07-01T10:00:03.000Z" := by decide
  have hmil : "2026-07-01T10:00:03.000Z" ∈ sampleTimes := by decide
  exact sample_disabled.step (.close (some "opencode:one") hnow hmil)

theorem sample_twice : Reaches sampleTime "opencode:one" Meets sampleTwice := by
  have hnow : "2026-07-01T10:00:03.000Z" ≤ "2026-07-01T10:00:04.000Z" ∧
      "2026-07-01T10:00:04.000Z" ≤ "2026-07-01T10:00:05.000Z" := by decide
  have hmil : "2026-07-01T10:00:04.000Z" ∈ sampleTimes ∧
      "2026-07-01T10:00:05.000Z" ∈ sampleTimes := by decide
  exact (sample_enabled.step (.discard (some "opencode:one") [] hnow.1 hmil.1)).step
    (.close (some "opencode:one") hnow.2 hmil.2)

end Sample

theorem sample_inside : "2026-07-01T10:00:01.000Z" < "2026-07-01T10:00:02.000Z" ∧
    "2026-07-01T10:00:02.000Z" ≤ "2026-07-01T10:00:03.000Z" := by decide

/-- A row from the last interval is not archived. -/
theorem logging_off_sample :
    sampleEvent ∉ archivedEvents sampleTime sampleEnabled.state "opencode:one" [sampleEvent] := by
  have hcrtd : sampleTime.UtcMillis "2026-07-01T10:00:02.000Z" :=
    show "2026-07-01T10:00:02.000Z" ∈ sampleTimes by decide
  have hcaught := ((Reaches.logging_off sample_enabled).2 [sampleEvent] sampleEvent _
    (mem_cons_self ..) rfl rfl hcrtd).1 (.inl ⟨_, mem_cons_self .., sample_inside⟩)
  exact hcaught.2 (.inr (.inr ⟨_, rfl, sample_inside⟩))

/-- **A row from an earlier interval is archived**, and so is an observation that is newer than the
last time at which logging was said to be disabled. -/
theorem logging_off_twice :
    (Reaches sampleTime "opencode:one" (fun _ _ => True) sampleTwice ∧
      Disabled sampleTwice.closed sampleTwice.opened "2026-07-01T10:00:02.000Z" ∧
      sampleEvent ∈ archivedEvents sampleTime sampleTwice.state "opencode:one" [sampleEvent]) ∧
    (Reaches sampleTime "opencode:one" (fun _ _ => True) sampleDisabled ∧
      Disabled sampleDisabled.closed sampleDisabled.opened "2026-07-01T10:00:02.000Z" ∧
      sampleEvent ∈ archivedEvents sampleTime sampleDisabled.state "opencode:one" [sampleEvent]) := by
  have htwice : shouldSkipEvent sampleTime sampleTwice.state sampleEvent (some "opencode:one") =
      false := by decide
  have hdis : shouldSkipEvent sampleTime sampleDisabled.state sampleEvent
      (some "opencode:one") = false := by decide
  have hevent : sampleEvent ∈ [sampleEvent] := mem_singleton_self _
  exact ⟨⟨sample_twice, .inl ⟨_, mem_cons_self .., sample_inside⟩,
      mem_archivedEvents.2 ⟨hevent, rfl, htwice⟩⟩,
    sample_disabled, .inr ⟨_, rfl, sample_inside.1⟩,
      mem_archivedEvents.2 ⟨hevent, rfl, hdis⟩⟩

end Wardian.Archive
