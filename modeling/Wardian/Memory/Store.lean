/-
The memory database.

Memories are kept as revisions, each of which is a row with its text, its evidence and its owner.  A
revision is never changed except that it is replaced or removed.  The tables beside it hold the
sources of the revisions, an audit trail, the cursors of the consolidators, and the receipts of what
was committed.  Every operation is one transaction.
-/

import Mathlib.Data.List.MinMax
import Mathlib.Data.List.Sort
import Mathlib.Data.Prod.Lex
import Mathlib.Data.String.Basic
import Wardian.Json
import Wardian.Lib.Prog
import Wardian.Lib.Table
import Wardian.Lib.Text

set_option autoImplicit false

namespace Wardian.Memory

open Text

/-! ### Data -/

inductive MemoryKind where
  | stable
  | current
deriving DecidableEq

def MemoryKind.asStr : MemoryKind → String
  | .stable => "stable"
  | .current => "current"

inductive MemoryStatus where
  | active
  | superseded
  | removed
deriving DecidableEq

structure MemorySource where
  sourceType : String
  locator : Option String
  sourceHash : Option String
  primary : Bool
deriving DecidableEq

/-- A row of the table of revisions. -/
structure MemoryRow where
  revisionId : String
  memoryId : String
  revision : Nat
  agentId : String
  workspace : Option String
  kind : MemoryKind
  text : String
  evidenceExcerpt : String
  evidenceHash : String
  status : MemoryStatus
  supersedesRevisionId : Option String
  replacedByRevisionId : Option String
  createdAt : String
  updatedAt : String
  lastVerifiedAt : String
  idempotencyKey : Option String

/-- A revision with its sources. -/
structure MemoryRecord extends MemoryRow where
  sources : List MemorySource

structure SaveMemoryRequest where
  agentId : String
  workspace : Option String
  kind : MemoryKind
  text : String
  evidenceExcerpt : String
  sources : List MemorySource
  idempotencyKey : Option String

structure UpdateMemoryRequest where
  memoryId : String
  text : String
  evidenceExcerpt : String
  sources : List MemorySource
  idempotencyKey : Option String

inductive MemoryMutation where
  | save (kind : MemoryKind) (text evidenceExcerpt : String) (sources : List MemorySource)
  | update (memoryId text evidenceExcerpt : String) (sources : List MemorySource)
  | remove (memoryId : String)

structure MemoryCursorUpdate where
  cursorKey : String
  conversationId : Option String
  sequence : Nat

structure MemoryCommitBatch where
  agentId : String
  workspace : Option String
  idempotencyKey : String
  operations : List MemoryMutation
  cursor : Option MemoryCursorUpdate

structure MemoryCommitResult where
  idempotencyKey : String
  memoryIds : List String
  replayed : Bool

/-- Who operates on the store: an agent on its own memories, or the desktop host on everybody's. -/
inductive MemoryActor where
  | agent (agentId : String)
  | operator

inductive MemoryError where
  | validation (message : String)
  | notFound (id : String)
  | memoryIdAmbiguous (requested : String)
  | accessDenied (actorAgentId subjectAgentId : String)
  | conflict (message : String)
  | database (message : String)
deriving DecidableEq

/-! ### Maintenance plans -/

inductive MemoryMaintenanceScope where
  | agent
  | workspace (path : String)

inductive MemoryMaintenanceOperation where
  | revise (memoryId expectedRevisionId text : String) (kind : MemoryKind)
      (scope : MemoryMaintenanceScope) (evidenceExcerpt : String) (addSources : List MemorySource)
  | create (clientKey text : String) (kind : MemoryKind) (scope : MemoryMaintenanceScope)
      (evidenceExcerpt : String) (sources : List MemorySource)
  | retire (memoryId expectedRevisionId reason : String)
  | retireInto (memoryId expectedRevisionId : String) (targetMemoryId targetClientKey
      targetExpectedRevisionId : Option String) (reason : String)

structure MemoryMaintenancePlan where
  schemaVersion : Nat
  planId : String
  agentId : String
  idempotencyKey : String
  operations : List MemoryMaintenanceOperation

structure MemoryMaintenanceOperationReceipt where
  operationIndex : Nat
  clientKey : Option String
  memoryId : String
  revisionId : Option String

structure MemoryMaintenanceReceipt where
  planId : String
  agentId : String
  idempotencyKey : String
  previewDigest : String
  appliedAt : String
  operations : List MemoryMaintenanceOperationReceipt

/-! ### What the code takes from its libraries -/

/-- The platform, the digest of a byte string in hexadecimal digits, the JSON texts of what is
hashed, and what is a UUID or an absolute path.  A hash map goes through its entries in an order of
its own. -/
structure Env where
  windows : Bool
  sha256 : List UInt8 → String
  batchJson : MemoryCommitBatch → String
  planJson : MemoryMaintenancePlan → String
  operationsJson : List MemoryMaintenanceOperation → String
  isUuid : String → Bool
  isAbsolutePath : String → Bool
  mapOrder : List String → List String
  mapOrder_perm : ∀ keys, (mapOrder keys).Perm keys

def Env.hashText (env : Env) (value : String) : String := env.sha256 value.toUTF8.toList

/-! ### Normalisation -/

def trimmed (value : String) : String := String.ofList (trim value.toList)

def required (field value : String) : Except MemoryError String :=
  if trimmed value = "" then .error (.validation s!"{field} is required") else .ok (trimmed value)

def normalizeText (value : String) : Except MemoryError String :=
  required "text" (String.ofList (List.intercalate [' '] (words value.toList)))

def normalizeEvidence (value : String) : Except MemoryError String :=
  required "evidence_excerpt" (trimmed value)

def normalizeOptional (value : Option String) : Option String :=
  (value.map trimmed).filter (· ≠ "")

/-- The path without the slashes at its end, but the root of a drive and of a share keeps its slash. -/
def normalizeWindowsPath (value : List Char) : List Char :=
  let normalized := toAsciiLower (value.map fun c => if c = '\\' then '/' else c)
  let normalized :=
    match stripPrefix "//?/unc/".toList normalized with
    | some path => '/' :: '/' :: path
    | none => (stripPrefix "//?/".toList normalized).getD normalized
  let isDrive := match normalized with
    | [c, ':', '/'] => c.utf8Size = 1
    | _ => false
  if normalized = ['/'] || isDrive then normalized
  else
    let withoutTrailing := trimEndOf '/' normalized
    let uncParts := (stripPrefix "//".toList withoutTrailing).map fun rest =>
      ((Text.split '/' rest).filter fun part => !part.isEmpty).length
    if uncParts = some 2 then withoutTrailing ++ ['/'] else withoutTrailing

def normalizeWorkspaceFor (value : Option String) (windows : Bool) : Option String :=
  (normalizeOptional value).map fun value =>
    if windows then String.ofList (normalizeWindowsPath value.toList)
    else if value = "/" || value = "//" then value
    else String.ofList (trimEndOf '/' value.toList)

def Env.normalizeWorkspace (env : Env) (value : Option String) : Option String :=
  normalizeWorkspaceFor value env.windows

def normalizeSource (source : MemorySource) : Except MemoryError MemorySource := do
  let sourceType ← required "source_type" source.sourceType
  return { source with
    sourceType := sourceType
    locator := normalizeOptional source.locator
    sourceHash := normalizeOptional source.sourceHash }

/-- The columns of a source, which it is sorted by. -/
def MemorySource.columns (source : MemorySource) :
    String ×ₗ (WithBot String) ×ₗ (WithBot String) ×ₗ Bool :=
  toLex (source.sourceType, toLex (source.locator, toLex (source.sourceHash, source.primary)))

/-- Sources in the order of their columns. -/
def sortSources (sources : List MemorySource) : List MemorySource :=
  sources.mergeSort fun left right => left.columns ≤ right.columns

def normalizeSources (sources : List MemorySource) : Except MemoryError (List MemorySource) := do
  let normalized ← sources.mapM normalizeSource
  return sortSources normalized

/-! ### Actors -/

namespace MemoryActor

def authorizeSubject (actor : MemoryActor) (subjectAgentId : String) :
    Except MemoryError String := do
  let subjectAgentId ← required "agent_id" subjectAgentId
  match actor with
  | .agent actorAgentId => do
      let actorAgentId ← required "actor agent_id" actorAgentId
      if actorAgentId ≠ subjectAgentId then throw (.accessDenied actorAgentId subjectAgentId)
      else return subjectAgentId
  | .operator => return subjectAgentId

def agentId : MemoryActor → Except MemoryError (Option String)
  | .agent agentId => do return some (← required "actor agent_id" agentId)
  | .operator => return none

end MemoryActor

/-! ### Tables -/

structure SourceRow where
  revisionId : String
  source : MemorySource

structure MemoryEvent where
  eventId : String
  agentId : String
  memoryId : Option String
  revisionId : Option String
  action : String
  payload : Option Value
  occurredAt : String

structure CursorRow where
  agentId : String
  workspace : Option String
  conversationId : Option String
  sequence : Nat
  updatedAt : String

/-- The receipt of a batch. -/
structure CommitRow where
  requestHash : String
  result : MemoryCommitResult
  createdAt : String

/-- The receipt of a maintenance plan. -/
structure ReceiptRow where
  idempotencyKey : String
  agentId : String
  planId : String
  planHash : String
  previewDigest : String
  receipt : MemoryMaintenanceReceipt
  createdAt : String

/-- The tables; rows stand in the order in which they were inserted. -/
structure Store where
  records : List MemoryRow
  sources : List SourceRow
  events : List MemoryEvent
  cursors : Table CursorRow
  commits : Table CommitRow
  receipts : List ReceiptRow

def Store.empty : Store := ⟨[], [], [], ∅, ∅, []⟩

/-- The text of a UUID: 36 digits and hyphens. -/
def isUuidText (text : String) : Bool :=
  text.toList.length == 36 &&
    text.toList.all fun c => Text.isAsciiDigit c || ('a' ≤ c && c ≤ 'f') || c == '-'

/-- A UUID as it is drawn. -/
structure Uuid where
  text : String
  valid : isUuidText text = true

/-- A store, the identifiers that are going to be drawn, and the times that are going to be read. -/
structure Session where
  store : Store
  uuids : Nat → Uuid
  clock : Nat → String

abbrev MemoryM := Prog Session MemoryError

namespace MemoryM

def store : MemoryM Store := do return (← Prog.get).store

def change (f : Store → Store) : MemoryM Unit := Prog.modify fun t => { t with store := f t.store }

def newUuid : MemoryM String := do
  let t ← Prog.get
  Prog.modify fun t => { t with uuids := fun n => t.uuids (n + 1) }
  return (t.uuids 0).text

def now : MemoryM String := do
  let t ← Prog.get
  Prog.modify fun t => { t with clock := fun n => t.clock (n + 1) }
  return t.clock 0

end MemoryM

open MemoryM

/-! ### Queries -/

namespace Store

/-- The active revisions of a memory, of one agent or of anybody. -/
def active (s : Store) (owner : Option String) (memoryId : String) : List MemoryRow :=
  s.records.filter fun row =>
    row.memoryId = memoryId && row.status = .active && owner.all (· = row.agentId)

/-- The one with the highest number. -/
def latest (rows : List MemoryRow) : Option MemoryRow := rows.argmax (·.revision)

/-- `query_active`, `query_active_for_agent_resolved`. -/
def queryActive (s : Store) (owner : Option String) (memoryId : String) : Option MemoryRow :=
  latest (s.active owner memoryId)

/-- The sources in the order of their columns, as `sources_for_revision` reads them. -/
def sourcesForRevision (s : Store) (revisionId : String) : List MemorySource :=
  sortSources ((s.sources.filter (·.revisionId = revisionId)).map (·.source))

/-- The sources of a revision, the primary ones first. -/
def attachSources (s : Store) (row : MemoryRow) : MemoryRecord :=
  let sources := (s.sources.filter (·.revisionId = row.revisionId)).map (·.source)
  { row with sources := sources.filter (·.primary) ++ sources.filter (!·.primary) }

/-- The memories that an actor may name. -/
def candidates (s : Store) (owner : Option String) (activeOnly : Bool) : List String :=
  ((s.records.filter fun row =>
    owner.all (· = row.agentId) && (!activeOnly || row.status = .active)).map (·.memoryId)).dedup

end Store

/-- A memory by its identifier, or by a beginning that only it has. -/
def resolveMemoryIdFromCandidates (requested : String) (candidates : List String) :
    Except MemoryError String := do
  let requested ← required "memory_id" requested
  if requested ∈ candidates then return requested
  else
    match candidates.filter fun candidate => requested.toList.isPrefixOf candidate.toList with
    | [] => throw (.notFound requested)
    | [candidate] => return candidate
    | _ => throw (.memoryIdAmbiguous requested)

def Store.resolveMemoryId (s : Store) (actor : MemoryActor) (requested : String)
    (activeOnly : Bool) : Except MemoryError String := do
  let requested ← required "memory_id" requested
  let owner ← actor.agentId
  resolveMemoryIdFromCandidates requested (s.candidates owner activeOnly)

/-- The revision written under an idempotency key, which other agents may not see. -/
def Store.idempotentRecord (s : Store) (actor : MemoryActor) (key : Option String) :
    Except MemoryError (Option MemoryRow) :=
  match key with
  | none => return none
  | some key => do
      let record := s.records.find? (·.idempotencyKey = some key)
      match ← actor.agentId, record with
      | some actorAgentId, some row =>
        if row.agentId ≠ actorAgentId then throw (.validation "idempotency key is unavailable")
        else return some row
      | _, record => return record

/-! ### Statements -/

/-- The constraints of the table of revisions. -/
def insertRecord (row : MemoryRow) : MemoryM Unit := do
  let s ← store
  if s.records.any (·.revisionId = row.revisionId) then
    Prog.fail (.database "UNIQUE constraint failed: memory_records.revision_id")
  else if s.records.any fun other =>
      other.memoryId = row.memoryId && other.revision = row.revision then
    Prog.fail (.database
      "UNIQUE constraint failed: memory_records.memory_id, memory_records.revision")
  else if row.idempotencyKey.isSome &&
      s.records.any (·.idempotencyKey = row.idempotencyKey) then
    Prog.fail (.database "UNIQUE constraint failed: memory_records.idempotency_key")
  else change fun s => { s with records := s.records ++ [row] }

/-- The revisions after a change of the one that is named, which may have to be somebody's. -/
def changeRow (records : List MemoryRow) (revisionId : String) (owner : Option String)
    (f : MemoryRow → MemoryRow) : List MemoryRow :=
  records.map fun row =>
    if row.revisionId = revisionId && owner.all (· = row.agentId) then f row else row

def updateRecord (revisionId : String) (owner : Option String) (f : MemoryRow → MemoryRow) :
    MemoryM Unit :=
  change fun s => { s with records := changeRow s.records revisionId owner f }

/-- A source is stored trimmed. -/
def insertSources (revisionId : String) (sources : List MemorySource) : MemoryM Unit :=
  sources.forM fun source => do
    let source ← Prog.ofExcept (normalizeSource source)
    change fun s => { s with sources := s.sources ++ [⟨revisionId, source⟩] }

def insertEvent (agentId : String) (memoryId revisionId : Option String) (action : String)
    (payload : Option Value) : MemoryM Unit := do
  let eventId ← newUuid
  let occurredAt ← now
  let s ← store
  if s.events.any (·.eventId = eventId) then
    Prog.fail (.database "UNIQUE constraint failed: memory_events.event_id")
  else change fun s => { s with events := s.events ++
    [⟨eventId, agentId, memoryId, revisionId, action, payload, occurredAt⟩] }

/-- The revision number after another one, as 32-bit numbers are added. -/
def nextRevision (revision : Nat) : Nat := (revision + 1) % 2 ^ 32

/-- A revision is replaced by another one. -/
def MemoryRow.superseded (row : MemoryRow) (revisionId now : String) : MemoryRow :=
  { row with status := .superseded, replacedByRevisionId := some revisionId, updatedAt := now }

def MemoryRow.retired (row : MemoryRow) (now : String) : MemoryRow :=
  { row with status := .removed, updatedAt := now }

def optionValue (value : Option String) : Value := value.elim .null .string

def MemorySource.toValue (source : MemorySource) : Value :=
  .object ([("source_type", .string source.sourceType)] ++
    (source.locator.map fun locator => ("locator", Value.string locator)).toList ++
    (source.sourceHash.map fun hash => ("source_hash", Value.string hash)).toList ++
    [("primary", .bool source.primary)])

/-- What the audit trail says of a revision that is written. -/
def contentPayload (text evidence evidenceHash : String) (kind : MemoryKind)
    (workspace : Option String) (sources : List MemorySource) : Value :=
  .object [("text", .string text), ("evidence_excerpt", .string evidence),
    ("evidence_hash", .string evidenceHash), ("kind", .string kind.asStr),
    ("workspace", optionValue workspace), ("sources", .array (sources.map (·.toValue)))]

end Wardian.Memory
