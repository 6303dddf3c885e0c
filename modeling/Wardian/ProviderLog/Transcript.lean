/-
How the lines of a provider's log become chat events.

A line is read by itself first, and then it is bound to what the lines before it have left behind:
the request that is being answered, the turn of the provider, the events that wait for their request
and the tools that were called.  What is left behind is kept with the position in the log, so it is
bounded; a line that would let it grow above a bound is refused.

Main results:

* `normalizeChatLinesWithState_feed` — lines are refused only because a state that they lead to is
  above a bound.
-/

import Wardian.Lib.Counter
import Wardian.Json
import Wardian.Lib.Table
import Wardian.Lib.Text

set_option autoImplicit false

namespace Wardian.ProviderLog

open Text
open List

/-! ### Events -/

inductive AgentChatEventKind
  | message
  | toolCall
  | toolResult
  | approval
  | status
  | terminalOutput
  | memory
  | error
  deriving DecidableEq

inductive AgentChatRole
  | user
  | assistant
  | system
  | tool
  deriving DecidableEq

inductive AgentChatStatus
  | running
  | succeeded
  | failed
  | actionRequired
  | cancelled
  | idle
  | processing
  | unknown

structure AgentChatEvent where
  id : String
  sessionId : String
  provider : String
  kind : AgentChatEventKind
  role : Option AgentChatRole
  text : Option String
  title : Option String
  status : Option AgentChatStatus
  turnId : Option String
  source : Option String
  command : Option String
  exitCode : Option Int
  path : Option String
  language : Option String
  createdAt : Option String
  sequence : Option Nat
  metadata : Value

def normalizeProvider (provider : String) : String :=
  String.ofList (toAsciiLower (trim provider.toList))

def metadataString (metadata : Value) (key : String) : Option String :=
  (((metadata.get? key).bind Value.asStr).map fun value => String.ofList (trim value.toList))
    |>.filter fun value => !value.isEmpty

def setMetadataString (metadata : Value) (key value : String) : Value :=
  match metadata with
  | .object members => .object (JsonMap.insert members key (.string value))
  | _ => .object [(key, .string value)]

def AgentChatEvent.setMetadata (event : AgentChatEvent) (key value : String) : AgentChatEvent :=
  { event with metadata := setMetadataString event.metadata key value }

def AgentChatEvent.metadataString (event : AgentChatEvent) (key : String) : Option String :=
  ProviderLog.metadataString event.metadata key

def valueToString (value : Value) : Option String :=
  match (value.asStr.map fun text => String.ofList (trim text.toList)).filter (!·.isEmpty) with
  | some text => some text
  | none => value.asU64.map toString

def firstString (values : List (Option Value)) : Option String :=
  values.findSome? fun value => value.bind valueToString

/-! ### What the lines leave behind -/

def maxPendingNormalizedEvents : Nat := 256
def maxToolRequestRoots : Nat := 1024
def maxSeenGeminiMessages : Nat := 4096
def maxNormalizationStateBytes : Nat := 1024 * 1024
def providerRawLineMetadataKey : String := "_wardian_provider_raw_line"

structure ToolRequestRootState where
  requestRootId : Option String
  isSkill : Bool

structure TranscriptNormalizationState where
  nextSequence : Nat
  requestRootId : Option String
  codexProviderTurnId : Option String
  codexUserMirrorPending : Bool
  pendingEvents : List AgentChatEvent
  pendingContextIndices : List Nat
  toolRequestRoots : Table ToolRequestRootState
  seenGeminiMessages : Table Unit

/-- `TranscriptNormalizationState::default`. -/
def TranscriptNormalizationState.fresh : TranscriptNormalizationState where
  nextSequence := 1
  requestRootId := none
  codexProviderTurnId := none
  codexUserMirrorPending := false
  pendingEvents := []
  pendingContextIndices := []
  toolRequestRoots := ∅
  seenGeminiMessages := ∅

def TranscriptNormalizationState.hasPendingEvents (state : TranscriptNormalizationState) : Bool :=
  !state.pendingEvents.isEmpty

/-- What is done elsewhere: JSON is parsed and written, and a line is read by itself. -/
structure Env where
  /-- `serde_json::from_str`, with the text of its error -/
  parseJson : String → Except String Value
  /-- the length of `serde_json::to_vec` -/
  stateBytes : TranscriptNormalizationState → Nat
  /-- `normalize_chat_line`: the session, the provider, the line and its number -/
  normalizeChatLine : String → String → String → Nat → Option AgentChatEvent
  /-- `hex_sha256` -/
  hexSha256 : List UInt8 → String
  /-- the text of a `Utf8Error` -/
  utf8Error : List UInt8 → String

/-! ### One line -/

/-- The context with which Codex opens a turn. -/
def codexTurnContext (env : Env) (provider rawLine : String) : Option Value :=
  if provider = "codex" then
    (env.parseJson rawLine).toOption.filter fun value =>
      (value.get? "type").bind Value.asStr = some "turn_context"
  else none

/-- A context that names no turn closes the one before all the same. -/
def TranscriptNormalizationState.openCodexTurn (state : TranscriptNormalizationState)
    (turnContext : Value) : TranscriptNormalizationState :=
  let turnId := firstString [turnContext.get? "turn_id",
    (turnContext.get? "payload").bind (·.get? "turn_id")]
  { state with
    requestRootId := none
    codexProviderTurnId := turnId
    codexUserMirrorPending := turnId.isSome }

/-- The assistant's message that Codex repeats without its turn. -/
def bindAssistantMirror (provider : String) (state : TranscriptNormalizationState)
    (event : AgentChatEvent) : AgentChatEvent :=
  if provider = "codex" ∧ event.kind = .message ∧ event.role = some .assistant ∧
      event.source = some "event_msg" ∧ event.turnId = none ∧
      event.metadataString "raw_type" = some "agent_message" then
    match state.codexProviderTurnId with
    | some turnId => event.setMetadata "provider_turn_id" turnId
    | none => event
  else event

/-- The human's message that Codex repeats without its turn, and the turn that it is given. -/
def bindUserMirror (provider : String) (state : TranscriptNormalizationState)
    (inputOrigin providerTurnId : Option String) (event : AgentChatEvent) :
    AgentChatEvent × Option String × Bool :=
  if provider = "codex" ∧ inputOrigin = some "human_input" ∧ event.kind = .message ∧
      event.role = some .user ∧ event.source = some "event_msg" ∧ providerTurnId = none ∧
      state.codexUserMirrorPending then
    match state.codexProviderTurnId with
    | some turnId => (event.setMetadata "provider_turn_id" turnId, some turnId, true)
    | none => (event, providerTurnId, false)
  else (event, providerTurnId, false)

/-- An event that waited for its request is bound to it. -/
def bindPending (rootId : String) (event : AgentChatEvent) : AgentChatEvent :=
  let event := event.setMetadata "request_root_id" rootId
  if (event.metadataString "causal_ref").isNone then
    event.setMetadata "causal_ref" s!"request:{rootId}"
  else event

/-- An input opens a request.  For Codex the events that waited for one are released. -/
def acceptInput (provider : String) (state : TranscriptNormalizationState)
    (providerTurnId : Option String) (inherited : Bool) (event : AgentChatEvent) :
    TranscriptNormalizationState × AgentChatEvent × List AgentChatEvent :=
  let rootId := ((event.metadataString "request_root_id").or event.turnId).or
    (if provider = "codex" then some event.id else none)
  let (state, event) := match rootId with
    | some rootId =>
      ({ state with requestRootId := some rootId }, event.setMetadata "request_root_id" rootId)
    | none => (state, event)
  if provider = "codex" then
    let pendingTurnId := state.pendingContextIndices.findSome? fun index =>
      state.pendingEvents[index]?.bind (·.metadataString "provider_turn_id")
    let (pendingEvents, pendingContextIndices) := match rootId with
      | some rootId => (state.pendingContextIndices.foldl
          (fun events index => events.modify index (bindPending rootId)) state.pendingEvents, [])
      | none => (state.pendingEvents, state.pendingContextIndices)
    let activeProviderTurnId := providerTurnId.or pendingTurnId
    ({ state with
        codexProviderTurnId := activeProviderTurnId
        codexUserMirrorPending :=
          activeProviderTurnId.isSome && !inherited && event.source != some "event_msg"
        pendingEvents := []
        pendingContextIndices := pendingContextIndices }, event, pendingEvents)
  else (state, event, [])

/-- Claude's tool calls are remembered with the request that they belong to. -/
def rememberTool (provider : String) (state : TranscriptNormalizationState)
    (event : AgentChatEvent) : TranscriptNormalizationState :=
  if provider = "claude" ∧ event.kind = .toolCall then
    match event.turnId with
    | some toolId =>
      let isSkill := ((event.metadataString "tool_name").or event.title).any fun tool =>
        toAsciiLower tool.toList = "skill".toList
      { state with
        toolRequestRoots := state.toolRequestRoots.insert toolId ⟨state.requestRootId, isSkill⟩ }
    | none => state
  else state

/-- The tool that a context was injected by. -/
def causingTool (provider : String) (state : TranscriptNormalizationState)
    (event : AgentChatEvent) : Option ToolRequestRootState :=
  if provider = "claude" then
    ((event.metadataString "causal_ref").bind fun causalRef =>
      stripPrefix "provider:tool_use:".toList causalRef.toList).bind fun toolId =>
        state.toolRequestRoots[String.ofList toolId]?
  else none

/-- A context that was injected is bound to the request of its tool, or else to the open one. -/
def bindContext (provider : String) (state : TranscriptNormalizationState)
    (event : AgentChatEvent) : TranscriptNormalizationState × AgentChatEvent :=
  let (state, event) := match causingTool provider state event with
    | some root =>
      let (state, event) := match root.requestRootId with
        | some rootId => ({ state with requestRootId := some rootId },
            event.setMetadata "request_root_id" rootId)
        | none => (state, event)
      (state, if root.isSkill then event.setMetadata "input_purpose" "skill" else event)
    | none => (state, event)
  let providerTurnMatches :=
    if provider = "codex" then
      match event.metadataString "provider_turn_id" with
      | some contextTurn => state.codexProviderTurnId = some contextTurn
      | none => true
    else true
  let event :=
    if (event.metadataString "request_root_id").isNone ∧ providerTurnMatches then
      match state.requestRootId with
      | some rootId => event.setMetadata "request_root_id" rootId
      | none => event
    else event
  let event :=
    if (event.metadataString "causal_ref").isNone ∧
        (event.metadataString "request_root_id").isSome then
      match state.requestRootId with
      | some rootId => event.setMetadata "causal_ref" s!"request:{rootId}"
      | none => event
    else event
  (state, event)

/-- An event waits when its request is not known, and when others wait. -/
def emit (provider : String) (inputOrigin : Option String) (state : TranscriptNormalizationState)
    (event : AgentChatEvent) : TranscriptNormalizationState × List AgentChatEvent :=
  let pendingContext := provider = "codex" ∧ inputOrigin = some "context_injection" ∧
    (event.metadataString "request_root_id").isNone ∧
    (event.metadataString "provider_turn_id").isSome
  if pendingContext ∨ state.pendingEvents ≠ [] then
    ({ state with
        pendingEvents := state.pendingEvents ++ [event]
        pendingContextIndices := if pendingContext then
            state.pendingContextIndices ++ [state.pendingEvents.length]
          else state.pendingContextIndices }, [])
  else (state, [event])

/-- An event that is new is bound to what the lines before it have left behind. -/
def normalizeEvent (provider : String) (state : TranscriptNormalizationState)
    (event : AgentChatEvent) : TranscriptNormalizationState × List AgentChatEvent :=
  let inputOrigin := event.metadataString "input_origin"
  let providerTurnId := event.metadataString "provider_turn_id"
  let event := bindAssistantMirror provider state event
  let (event, providerTurnId, inherited) :=
    bindUserMirror provider state inputOrigin providerTurnId event
  let (state, event, released) :=
    if inputOrigin = some "human_input" ∨ inputOrigin = some "agent_input" then
      acceptInput provider state providerTurnId inherited event
    else (state, event, [])
  let state :=
    if provider = "codex" ∧ event.kind = .message ∧ event.role = some .assistant then
      { state with codexUserMirrorPending := false }
    else state
  let state := rememberTool provider state event
  let (state, event) :=
    if inputOrigin = some "context_injection" then bindContext provider state event
    else (state, event)
  let (state, emitted) := emit provider inputOrigin state event
  (state, released ++ emitted)

/-- Every line has a number, and one may open a turn. -/
def TranscriptNormalizationState.beginLine (env : Env) (provider rawLine : String)
    (state : TranscriptNormalizationState) : TranscriptNormalizationState :=
  let state := { state with nextSequence := min (state.nextSequence + 1) u64Max }
  match codexTurnContext env provider rawLine with
  | some turnContext => state.openCodexTurn turnContext
  | none => state

/-- One line, and its events unless there are none for it. -/
def normalizeLine (env : Env) (sessionId provider : String) (enforceLimits : Bool)
    (state : TranscriptNormalizationState) (rawLine : String) :
    TranscriptNormalizationState × Option (List AgentChatEvent) :=
  let next := state.beginLine env provider rawLine
  match env.normalizeChatLine sessionId provider rawLine state.nextSequence with
  | none => (next, none)
  | some event =>
    let event :=
      if enforceLimits then event.setMetadata providerRawLineMetadataKey rawLine else event
    if provider = "gemini" ∧ event.kind = .message ∧ event.role = some .assistant then
      let key := event.turnId.getD "" ++ "\n" ++ event.text.getD ""
      if key ∈ next.seenGeminiMessages then (next, none)
      else
        let next := { next with seenGeminiMessages := next.seenGeminiMessages.insert key () }
        (normalizeEvent provider next event).map id some
    else (normalizeEvent provider next event).map id some

/-! ### The lines of a batch -/

/-- The bounds that are checked behind every line that has events. -/
def checkLine (state : TranscriptNormalizationState) : Except String Unit :=
  if state.pendingEvents.length > maxPendingNormalizedEvents then
    .error "provider transcript pending-event limit exceeded"
  else if state.toolRequestRoots.size > maxToolRequestRoots then
    .error "provider transcript tool-root limit exceeded"
  else if state.seenGeminiMessages.size > maxSeenGeminiMessages then
    .error "provider transcript Gemini dedupe limit exceeded"
  else .ok ()

def normalizeLines (env : Env) (sessionId provider : String) (enforceLimits : Bool) :
    List String → TranscriptNormalizationState →
      Except String (List AgentChatEvent × TranscriptNormalizationState)
  | [], state => .ok ([], state)
  | rawLine :: rest, state =>
    match normalizeLine env sessionId provider enforceLimits state rawLine with
    | (state, none) => normalizeLines env sessionId provider enforceLimits rest state
    | (state, some events) => do
        if enforceLimits then checkLine state
        let (later, state) ← normalizeLines env sessionId provider enforceLimits rest state
        return (events ++ later, state)

/-- Roots of tools are kept for Claude only; a state that was saved earlier may have others. -/
def TranscriptNormalizationState.forProvider (state : TranscriptNormalizationState)
    (provider : String) : TranscriptNormalizationState :=
  if provider = "claude" then state else { state with toolRequestRoots := ∅ }

def normalizeChatLinesWithState (env : Env) (sessionId provider : String) (lines : List String)
    (state : TranscriptNormalizationState) (flushPending enforceLimits : Bool) :
    Except String (List AgentChatEvent × TranscriptNormalizationState) :=
  let normalizedProvider := normalizeProvider provider
  match normalizeLines env sessionId normalizedProvider enforceLimits lines
    (state.forProvider normalizedProvider) with
  | .error e => .error e
  | .ok (events, state) =>
    let (events, state) :=
      if flushPending then (events ++ state.pendingEvents,
        { state with pendingEvents := [], pendingContextIndices := [] })
      else (events, state)
    if enforceLimits ∧ env.stateBytes state > maxNormalizationStateBytes then
      .error "provider transcript continuation-state byte limit exceeded"
    else .ok (events, state)

/-! ### What a batch leaves behind -/

/-- The state above one of its bounds. -/
def Exceeds (env : Env) (state : TranscriptNormalizationState) : Prop :=
  maxPendingNormalizedEvents < state.pendingEvents.length ∨
    maxToolRequestRoots < state.toolRequestRoots.size ∨
    maxSeenGeminiMessages < state.seenGeminiMessages.size ∨
    maxNormalizationStateBytes < env.stateBytes state

/-- What lines leave behind, whatever the bounds are. -/
def feed (env : Env) (sessionId provider : String) (state : TranscriptNormalizationState)
    (lines : List String) : TranscriptNormalizationState :=
  lines.foldl (fun state rawLine => (normalizeLine env sessionId (normalizeProvider provider) true
    state rawLine).1) state

section Feed

variable {env : Env} {sessionId provider : String} {state : TranscriptNormalizationState}

theorem feed_append (lines more : List String) :
    feed env sessionId provider state (lines ++ more) =
      feed env sessionId provider (feed env sessionId provider state lines) more :=
  foldl_append

theorem exceeds_of_checkLine {e : String} (h : checkLine state = .error e) : Exceeds env state := by
  unfold checkLine at h
  split at h
  · rename_i hpend
    exact .inl hpend
  · split at h
    · rename_i hroots
      exact .inr (.inl hroots)
    · split at h
      · rename_i hseen
        exact .inr (.inr (.inl hseen))
      · cases h

/-- Lines lead to the state that they leave behind, or a state on the way is above a bound. -/
theorem normalizeLines_feed (lines : List String) :
    (∃ events, normalizeLines env sessionId (normalizeProvider provider) true lines state =
      .ok (events, feed env sessionId provider state lines)) ∨
    ∃ e front, normalizeLines env sessionId (normalizeProvider provider) true lines state = .error e ∧
      front <+: lines ∧ Exceeds env (feed env sessionId provider state front) := by
  induction lines generalizing state with
  | nil => exact .inl ⟨[], rfl⟩
  | cons rawLine rest ih =>
    have hfeed : ∀ front, feed env sessionId provider state (rawLine :: front) =
        feed env sessionId provider (normalizeLine env sessionId (normalizeProvider provider) true
          state rawLine).1 front := fun _ => rfl
    unfold normalizeLines
    rcases hline : normalizeLine env sessionId (normalizeProvider provider) true state rawLine with
      ⟨next, events⟩
    rw [hline] at hfeed
    have hrest := @ih next
    cases events with
    | none =>
      rcases hrest with ⟨later, hltr⟩ | ⟨e, front, he, hfrt, hexce⟩
      · exact .inl ⟨later, by rw [hfeed]; exact hltr⟩
      · refine .inr ⟨e, rawLine :: front, he, ?_, by rw [hfeed]; exact hexce⟩
        exact (prefix_cons_inj rawLine).2 hfrt
    | some events =>
      simp only [if_true]
      cases hchk : checkLine next with
      | error e =>
        refine .inr ⟨e, [rawLine], rfl, ?_, ?_⟩
        · exact (prefix_cons_inj rawLine).2 nil_prefix
        · rw [hfeed]
          exact exceeds_of_checkLine hchk
      | ok _ =>
        rcases hrest with ⟨later, hltr⟩ | ⟨e, front, he, hfrt, hexce⟩
        · refine .inl ⟨events ++ later, ?_⟩
          rw [hltr, hfeed]
          rfl
        · refine .inr ⟨e, rawLine :: front, ?_, ?_, by rw [hfeed]; exact hexce⟩
          · rw [he]
            rfl
          · exact (prefix_cons_inj rawLine).2 hfrt

/-- There are roots of tools for Claude only. -/
def TranscriptNormalizationState.Rooted (state : TranscriptNormalizationState)
    (provider : String) : Prop :=
  provider = "claude" ∨ state.toolRequestRoots = ∅

theorem rooted_fresh : TranscriptNormalizationState.fresh.Rooted provider := .inr rfl

theorem TranscriptNormalizationState.Rooted.forProvider (h : state.Rooted provider) :
    state.forProvider provider = state := by
  unfold TranscriptNormalizationState.forProvider
  split
  · rfl
  · rename_i hoth
    rw [← h.resolve_left hoth]

variable {event : AgentChatEvent}

theorem roots_acceptInput {providerTurnId : Option String} {inherited : Bool} :
    (acceptInput provider state providerTurnId inherited event).1.toolRequestRoots =
      state.toolRequestRoots := by
  unfold acceptInput
  dsimp only
  split <;> split <;> rfl

theorem roots_bindContext :
    (bindContext provider state event).1.toolRequestRoots = state.toolRequestRoots := by
  unfold bindContext
  dsimp only
  split
  · split <;> rfl
  · rfl

theorem roots_emit {inputOrigin : Option String} :
    (emit provider inputOrigin state event).1.toolRequestRoots = state.toolRequestRoots := by
  unfold emit
  dsimp only
  split <;> rfl

theorem roots_normalizeEvent (hprov : provider ≠ "claude") :
    (normalizeEvent provider state event).1.toolRequestRoots = state.toolRequestRoots := by
  have hreme : ∀ (state : TranscriptNormalizationState) event,
      rememberTool provider state event = state := by
    intro state event
    unfold rememberTool
    rw [if_neg fun h => hprov h.1]
  unfold normalizeEvent
  dsimp only
  rw [roots_emit, hreme]
  split
  · rw [roots_bindContext]
    split <;> split <;> first | rfl | exact roots_acceptInput
  · split <;> split <;> first | rfl | exact roots_acceptInput

theorem roots_beginLine {rawLine : String} :
    (state.beginLine env provider rawLine).toolRequestRoots = state.toolRequestRoots := by
  unfold TranscriptNormalizationState.beginLine
  dsimp only
  split <;> rfl

theorem roots_normalizeLine (hprov : provider ≠ "claude") (enforceLimits : Bool) (rawLine : String) :
    (normalizeLine env sessionId provider enforceLimits state rawLine).1.toolRequestRoots =
      state.toolRequestRoots := by
  unfold normalizeLine
  dsimp only
  cases env.normalizeChatLine sessionId provider rawLine state.nextSequence with
  | none => exact roots_beginLine
  | some event =>
    simp only
    generalize (if enforceLimits then event.setMetadata providerRawLineMetadataKey rawLine
      else event) = event'
    split
    · split
      · exact roots_beginLine
      · exact (roots_normalizeEvent hprov).trans roots_beginLine
    · exact (roots_normalizeEvent hprov).trans roots_beginLine

theorem TranscriptNormalizationState.Rooted.feed (h : state.Rooted (normalizeProvider provider))
    (lines : List String) :
    (ProviderLog.feed env sessionId provider state lines).Rooted (normalizeProvider provider) := by
  by_cases hprov : normalizeProvider provider = "claude"
  · exact .inl hprov
  · induction lines generalizing state with
    | nil => exact h
    | cons rawLine rest ih =>
      refine ih (.inr ?_)
      rw [roots_normalizeLine hprov, h.resolve_left hprov]

/-- **What a batch leaves behind**: its lines, read behind those before it. -/
theorem normalizeChatLinesWithState_feed (h : state.Rooted (normalizeProvider provider))
    (lines : List String) :
    (∃ events, normalizeChatLinesWithState env sessionId provider lines state false true =
      .ok (events, feed env sessionId provider state lines)) ∨
    ∃ e front, normalizeChatLinesWithState env sessionId provider lines state false true =
      .error e ∧ front <+: lines ∧ Exceeds env (feed env sessionId provider state front) := by
  unfold normalizeChatLinesWithState
  dsimp only
  rw [h.forProvider]
  rcases @normalizeLines_feed env sessionId provider state lines with
    ⟨events, hevs⟩ | ⟨e, front, he, hfrt, hexce⟩
  · rw [hevs]
    simp only [Bool.false_eq_true, if_false, true_and]
    by_cases hbts : env.stateBytes (feed env sessionId provider state lines) >
        maxNormalizationStateBytes
    · rw [if_pos hbts]
      exact .inr ⟨_, lines, rfl, prefix_refl _, .inr (.inr (.inr hbts))⟩
    · rw [if_neg hbts]
      exact .inl ⟨events, rfl⟩
  · refine .inr ⟨e, front, ?_, hfrt, hexce⟩
    rw [he]

end Feed

end Wardian.ProviderLog
