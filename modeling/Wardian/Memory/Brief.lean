/-
Startup briefs.

When a provider process starts, the memories in force are written into its instructions, as far as
they fit.  What was in force is kept as a checkpoint of the process, whether it fitted or not; when
the process is resumed, its brief tells only what has changed since the checkpoint.
-/

import Wardian.Memory.Writes

set_option autoImplicit false

namespace Wardian.Memory

open MemoryM

/-! ### Data -/

inductive MemoryBriefKind where
  | fresh
  | resumeDelta

def MemoryBriefKind.asStr : MemoryBriefKind → String
  | .fresh => "fresh"
  | .resumeDelta => "resume_delta"

structure CompiledMemoryBrief where
  kind : MemoryBriefKind
  contextText : String
  fingerprint : String
  revisionIds : List String
  omittedCount : Nat
  isEmpty : Bool

structure RecallEntry where
  record : MemoryRecord
  stale : Bool

structure RecallResult where
  agentId : String
  workspace : Option String
  stable : List RecallEntry
  current : List RecallEntry

/-- A row of the table of injections; its revisions are stored as a JSON list. -/
structure InjectionRow where
  injectionId : String
  agentId : String
  workspace : Option String
  provider : String
  providerProcessKey : String
  fingerprint : String
  revisionIds : List String
  contextText : String
  createdAt : String

def defaultStaleDays : Nat := 30

def memoryBudgetPolicyVersion : Nat := 3

/-- Beside what the store takes from its libraries, the instant that an RFC 3339 text stands for, in
nanoseconds. -/
structure BriefEnv extends Env where
  parseRfc3339 : String → Option Int

/-- The tables of the store and the table of injections. -/
structure Desk where
  session : Session
  injections : List InjectionRow

abbrev DeskM := Prog Desk MemoryError

/-- A program of the store. -/
def DeskM.memory {α : Type} (m : MemoryM α) : DeskM α := fun d =>
  ((m d.session).1, { d with session := (m d.session).2 })

/-! ### Recall -/

/-- The verification is more than thirty days old, or cannot be read. -/
def BriefEnv.isOld (env : BriefEnv) (lastVerifiedAt now : String) : Bool :=
  match env.parseRfc3339 lastVerifiedAt with
  | some value =>
    (env.parseRfc3339 now).any fun now => value < now - defaultStaleDays * 86400000000000
  | none => true

def briefRecordIsStale (env : BriefEnv) (record : MemoryRow) (now : String) : Bool :=
  record.kind = .current && env.isOld record.lastVerifiedAt now

/-- The order in which the memories are listed: stable ones first, then those of the agent, then
those verified last. -/
def MemoryRow.order (row : MemoryRow) : Nat ×ₗ Nat ×ₗ (String)ᵒᵈ ×ₗ String :=
  toLex (if row.kind = .stable then 0 else 1, toLex (if row.workspace = none then 0 else 1,
    toLex (OrderDual.toDual row.lastVerifiedAt, row.memoryId)))

/-- A row is in force for an agent, everywhere or in a workspace. -/
def MemoryRow.inScope (row : MemoryRow) (agentId : String) (workspace : Option String) : Bool :=
  row.agentId = agentId && row.status = .active &&
    (row.workspace = none || row.workspace = workspace)

def listActive (env : Env) (s : Store) (actor : MemoryActor) (agentId : String)
    (workspace : Option String) : Except MemoryError (List MemoryRecord) := do
  let agentId ← actor.authorizeSubject agentId
  let workspace := env.normalizeWorkspace workspace
  let rows := (s.records.filter (·.inScope agentId workspace)).mergeSort
    fun left right => left.order ≤ right.order
  return rows.map s.attachSources

/-- A memory whose evidence has been tampered with is passed over. -/
def recallMemories (env : BriefEnv) (actor : MemoryActor) (agentId : String)
    (workspace : Option String) : MemoryM RecallResult := do
  let workspace := env.normalizeWorkspace workspace
  let staleBefore ← now
  let _ ← Prog.ofExcept (actor.authorizeSubject agentId)
  let records ← Prog.ofExcept (listActive env.toEnv (← store) actor agentId workspace)
  let entries := (records.filter fun record =>
    env.hashText record.evidenceExcerpt = record.evidenceHash).map fun record =>
      (⟨record, briefRecordIsStale env record.toMemoryRow staleBefore⟩ : RecallEntry)
  return {
    agentId := agentId
    workspace := workspace
    stable := entries.filter (·.record.kind = .stable)
    current := entries.filter (·.record.kind = .current) }

def MemoryKind.debug : MemoryKind → String
  | .stable => "Stable"
  | .current => "Current"

/-- What one memory adds to the fingerprint. -/
def fingerprintLine (record : MemoryRow) (stale : Bool) : String :=
  let scope := record.workspace.getD "agent-wide"
  s!"{record.memoryId}:{record.revision}:{record.kind.debug}:{scope}:{record.evidenceHash}:" ++
    s!"{record.text}:{stale}:{memoryBudgetPolicyVersion}"

def memoryFingerprint (env : BriefEnv) (records : List MemoryRecord) : MemoryM String := do
  let now ← now
  return env.hashText ("\n".intercalate (records.map fun record =>
    fingerprintLine record.toMemoryRow (briefRecordIsStale env record.toMemoryRow now)))

/-! ### Selection -/

def MemoryBriefKind.title : MemoryBriefKind → String
  | .fresh => "# Wardian memory\n"
  | .resumeDelta => "# Wardian memory changes\n"

def briefSectionHeading : MemoryKind → String
  | .stable => "\n## Stable memory\n"
  | .current => "\n## Current state\n"

def removedHeading : String := "\n## Removed or superseded\n"

/-- The beginning of an identifier, which is a UUID. -/
def shortId (memoryId : String) : String := String.ofList (memoryId.toList.take 8)

def briefRecordLine (record : MemoryRow) (stale : Bool) : String :=
  let stale := if stale then " [stale]" else ""
  let scope := record.workspace.getD "agent-wide"
  s!"- [{shortId record.memoryId}]{stale} {record.text} " ++
    s!"(scope: {scope}; verified: {record.lastVerifiedAt})\n"

def removedLine (memoryId : String) : String := s!"- [{shortId memoryId}] no longer applies\n"

/-- A memory that may be told. -/
structure BriefEntry where
  record : MemoryRecord
  stale : Bool
  line : String

def briefEntry (env : BriefEnv) (now : String) (record : MemoryRecord) : BriefEntry :=
  let stale := briefRecordIsStale env record.toMemoryRow now
  ⟨record, stale, briefRecordLine record.toMemoryRow stale⟩

/-- The entries that are told so far, by their places, the kinds that have a heading, and the bytes
used. -/
structure Selection where
  selected : List Nat
  sections : List MemoryKind
  used : Nat

/-- What a heading costs when it is not there. -/
def Selection.headingCost (sel : Selection) (kind : MemoryKind) : Nat :=
  if kind ∈ sel.sections then 0 else (briefSectionHeading kind).utf8ByteSize

/-- Tell an entry when it fits. -/
def selectBriefRecord (entries : List BriefEntry) (maxChars : Nat) (sel : Selection)
    (index : Nat) : Selection :=
  match entries[index]? with
  | none => sel
  | some entry =>
    let added := sel.headingCost entry.record.kind + entry.line.utf8ByteSize
    if maxChars < sel.used + added then sel
    else
      { selected := index :: sel.selected
        sections := entry.record.kind :: sel.sections
        used := sel.used + added }

/-- The places of the entries with a property. -/
def indices (entries : List BriefEntry) (p : BriefEntry → Bool) : List Nat :=
  (entries.zipIdx.filter fun entry => p entry.1).map (·.2)

def lineLength (entries : List BriefEntry) (index : Nat) : Nat :=
  (entries[index]?.map (·.line.utf8ByteSize)).getD 0

/-- A stable memory and a fresh state that fit together. -/
def findBriefAnchor (entries : List BriefEntry) (stable current : List Nat) (maxChars cost : Nat) :
    Option (Nat × Nat) := do
  let minimum ← (stable.map (lineLength entries)).min?
  let current ← current.find? fun index => cost + lineLength entries index + minimum ≤ maxChars
  let stable ← stable.find? fun index =>
    cost + lineLength entries current + lineLength entries index ≤ maxChars
  return (stable, current)

/-- One entry of the first list, one of the second, and so on. -/
def alternate : List Nat → List Nat → List Nat
  | [], currents => currents
  | stable :: stables, [] => stable :: stables
  | stable :: stables, current :: currents => stable :: current :: alternate stables currents

/-- The notices that fit, and the bytes used. -/
def selectRemoved (maxChars : Nat) : List String → Nat → Bool → List Bool × Nat
  | [], used, _ => ([], used)
  | line :: lines, used, hasSection =>
    let cost := (if hasSection then 0 else removedHeading.utf8ByteSize) + line.utf8ByteSize
    if used + cost ≤ maxChars then
      let rest := selectRemoved maxChars lines (used + cost) true
      (true :: rest.1, rest.2)
    else
      let rest := selectRemoved maxChars lines used hasSection
      (false :: rest.1, rest.2)

/-- What is told: entries by their places, and which of the notices. -/
structure BriefSelection where
  selected : List Nat
  sections : List MemoryKind
  removed : List Bool

section Select

variable (entries : List BriefEntry) (maxChars : Nat)

/-- A stable memory and a fresh state come first, or one of them when both do not fit. -/
def selectAnchors (title : Nat) (stable current : List Nat) (sel : Selection) : Selection :=
  let stableHeading := (briefSectionHeading .stable).utf8ByteSize
  let currentHeading := (briefSectionHeading .current).utf8ByteSize
  match findBriefAnchor entries stable current maxChars
      (title + stableHeading + currentHeading) with
  | some (stableIndex, currentIndex) =>
    selectBriefRecord entries maxChars (selectBriefRecord entries maxChars sel stableIndex)
      currentIndex
  | none =>
    let currentAnchor := current.find? fun index =>
      title + currentHeading + lineLength entries index ≤ maxChars
    let stableAnchor := stable.find? fun index =>
      title + stableHeading + lineLength entries index ≤ maxChars
    match currentAnchor.or stableAnchor with
    | some index => selectBriefRecord entries maxChars sel index
    | none => sel

/-- Those in the list that have not been told yet. -/
def Selection.remaining (sel : Selection) (order : List Nat) : List Nat :=
  order.filter (· ∉ sel.selected)

def selectBrief (title : Nat) (removedLines : List String) : BriefSelection :=
  let stable := indices entries (·.record.kind = .stable)
  let freshCurrent := indices entries fun entry => entry.record.kind = .current && !entry.stale
  let staleCurrent := indices entries fun entry => entry.record.kind = .current && entry.stale
  let sel := selectAnchors entries maxChars title stable freshCurrent ⟨[], [], title⟩
  let sel := (alternate (sel.remaining stable) (sel.remaining freshCurrent)).foldl
    (selectBriefRecord entries maxChars) sel
  let removed := selectRemoved maxChars removedLines sel.used false
  let sel := (sel.remaining staleCurrent).foldl (selectBriefRecord entries maxChars)
    { sel with used := removed.2 }
  ⟨sel.selected, sel.sections, removed.1⟩

end Select

/-! ### The page -/

/-- A brief as its reader sees it: the memories that it lists, those of which it says that they no
longer apply, and its text. -/
structure BriefPage where
  listed : List MemoryRecord
  gone : List String
  omitted : Nat
  text : String

/-- The entries that are told, in their order. -/
def BriefSelection.entries (b : BriefSelection) (entries : List BriefEntry) : List BriefEntry :=
  (entries.zipIdx.filter fun entry => entry.2 ∈ b.selected).map (·.1)

def BriefSelection.notices (b : BriefSelection) (removed : List String) : List String :=
  ((removed.zip b.removed).filter (·.2)).map (·.1)

def sectionText (told : List BriefEntry) (sections : List MemoryKind) (kind : MemoryKind) : String :=
  if kind ∈ sections then briefSectionHeading kind ++
    String.join ((told.filter (·.record.kind = kind)).map (·.line))
  else ""

def omittedNotice (omitted : Nat) : String :=
  s!"\n_{omitted} additional memories omitted by the startup budget._\n"

def briefPage (env : BriefEnv) (kind : MemoryBriefKind) (records : List MemoryRecord)
    (removed : List String) (maxChars : Nat) (now : String) : BriefPage :=
  if records.isEmpty && removed.isEmpty then ⟨[], [], 0, ""⟩
  else if maxChars < kind.title.utf8ByteSize then ⟨[], [], records.length + removed.length, ""⟩
  else
    let entries := records.map (briefEntry env now)
    let b := selectBrief entries maxChars kind.title.utf8ByteSize (removed.map removedLine)
    let told := b.entries entries
    let notices := b.notices removed
    let output := kind.title ++ sectionText told b.sections .stable ++
      sectionText told b.sections .current ++
      if notices.isEmpty then "" else removedHeading ++ String.join (notices.map removedLine)
    let omitted := (records.length - told.length) + (removed.length - notices.length)
    let output :=
      if 0 < omitted ∧ output.utf8ByteSize + (omittedNotice omitted).utf8ByteSize ≤ maxChars then
        output ++ omittedNotice omitted
      else output
    ⟨told.map (·.record), notices, omitted, trimmed output⟩

/-- `render_brief`: the text and how many memories it leaves out. -/
def renderBrief (env : BriefEnv) (kind : MemoryBriefKind) (records : List MemoryRecord)
    (removed : List String) (maxChars : Nat) (now : String) : String × Nat :=
  let page := briefPage env kind records removed maxChars now
  (page.text, page.omitted)

/-! ### Compiling and recording -/

/-- The memories that are not as they were, and those that are no longer there; when nothing has
changed, all that are in force. -/
def briefDelta (previous active : List MemoryRecord) : List MemoryRecord × List String :=
  let removed := (previous.filter fun record =>
    !active.any (·.memoryId = record.memoryId)).map (·.memoryId)
  let changed := active.filter fun record =>
    (previous.reverse.find? (·.memoryId = record.memoryId)).all (·.revisionId ≠ record.revisionId)
  (if changed.isEmpty && removed.isEmpty then active else changed, removed)

/-- The checkpoint of a provider process; of several with the same time, any. -/
def latestInjection (injections : List InjectionRow) (agentId provider processKey : String) :
    Option InjectionRow :=
  (injections.filter fun row => row.agentId = agentId && row.provider = provider &&
    row.providerProcessKey = processKey).argmax (·.createdAt)

/-- The revisions of a checkpoint. -/
def recordsByRevisionIds : List String → MemoryM (List MemoryRecord)
  | [] => return []
  | revisionId :: revisionIds => do
      let record ← getRevision revisionId
      let records ← recordsByRevisionIds revisionIds
      return record :: records

/-- What a brief is going to tell. -/
structure BriefDraft where
  kind : MemoryBriefKind
  allActive : List MemoryRecord
  fingerprint : String
  changed : List MemoryRecord
  removed : List String

def BriefDraft.revisionIds (draft : BriefDraft) : List String := draft.allActive.map (·.revisionId)

def draftBrief (env : BriefEnv) (actor : MemoryActor) (agentId : String) (workspace : Option String)
    (provider providerProcessKey : String) (resumed : Bool) : DeskM BriefDraft := do
  let _ ← Prog.ofExcept (actor.authorizeSubject agentId)
  let recalled ← DeskM.memory (recallMemories env actor agentId workspace)
  let allActive := (recalled.stable ++ recalled.current).map (·.record)
  let fingerprint ← DeskM.memory (memoryFingerprint env allActive)
  let d ← Prog.get
  match if resumed then latestInjection d.injections agentId provider providerProcessKey else none with
  | some previous => do
      let previousRecords ← DeskM.memory (recordsByRevisionIds previous.revisionIds)
      let delta := briefDelta previousRecords allActive
      return ⟨.resumeDelta, allActive, fingerprint, delta.1, delta.2⟩
  | none => return ⟨.fresh, allActive, fingerprint, allActive, []⟩

def BriefDraft.compiled (draft : BriefDraft) (page : BriefPage) : CompiledMemoryBrief where
  kind := draft.kind
  contextText := page.text
  fingerprint := draft.fingerprint
  revisionIds := draft.revisionIds
  omittedCount := page.omitted
  isEmpty := page.text.isEmpty

/-- A brief with what it was made of. -/
def compilePage (env : BriefEnv) (actor : MemoryActor) (agentId : String)
    (workspace : Option String) (provider providerProcessKey : String) (resumed : Bool)
    (maxChars : Nat) : DeskM (BriefDraft × BriefPage) := do
  let draft ← draftBrief env actor agentId workspace provider providerProcessKey resumed
  let now ← DeskM.memory now
  return (draft, briefPage env draft.kind draft.changed draft.removed maxChars now)

def insertInjection (row : InjectionRow) : DeskM Unit := do
  let d ← Prog.get
  if d.injections.any (·.injectionId = row.injectionId) then
    Prog.fail (.database "UNIQUE constraint failed: memory_injections.injection_id")
  else Prog.modify fun d => { d with injections := d.injections ++ [row] }

/-- What the audit trail says of a brief. -/
def injectionPayload (injectionId provider providerProcessKey : String)
    (brief : CompiledMemoryBrief) : Value :=
  .object [("injection_id", .string injectionId), ("kind", .string brief.kind.asStr),
    ("fingerprint", .string brief.fingerprint),
    ("revision_ids", .array (brief.revisionIds.map .string)),
    ("omitted_count", .number (.posInt brief.omittedCount)),
    ("budget_policy_version", .number (.posInt memoryBudgetPolicyVersion)),
    ("injected_context", .string brief.contextText), ("provider", .string provider),
    ("provider_process_key", .string providerProcessKey)]

def recordInjection (env : BriefEnv) (actor : MemoryActor) (agentId : String)
    (workspace : Option String) (provider providerProcessKey : String)
    (brief : CompiledMemoryBrief) : DeskM (Option String) := do
  let agentId ← Prog.ofExcept (actor.authorizeSubject agentId)
  if brief.isEmpty then return none
  else Prog.atomically do
    let injectionId ← DeskM.memory newUuid
    let createdAt ← DeskM.memory now
    insertInjection ⟨injectionId, agentId, env.normalizeWorkspace workspace, provider,
      providerProcessKey, brief.fingerprint, brief.revisionIds, brief.contextText, createdAt⟩
    DeskM.memory (insertEvent agentId none none "loaded"
      (some (injectionPayload injectionId provider providerProcessKey brief)))
    return some injectionId

end Wardian.Memory
