/-
Saving, updating and removing memories.

A request is normalised, and then one transaction looks for what was written under its idempotency
key, resolves the memory that it names, writes a revision with its sources, and records the event.
A batch of a consolidator is one transaction with a receipt of its own, and it moves the cursor of
the conversation that it comes from.
-/

import Wardian.Memory.Store

set_option autoImplicit false

namespace Wardian.Memory

open MemoryM

/-! ### Single requests -/

/-- A revision with its sources, the primary ones first. -/
def attachSources (row : MemoryRow) : MemoryM MemoryRecord := do
  return (← store).attachSources row

def getRevision (revisionId : String) : MemoryM MemoryRecord := do
  match (← store).records.find? (·.revisionId = revisionId) with
  | some row => attachSources row
  | none => Prog.fail (.notFound revisionId)

/-- The first revision of a new memory. -/
def newRow (revisionId memoryId agentId : String) (workspace : Option String) (kind : MemoryKind)
    (text evidence evidenceHash now : String) (idempotencyKey : Option String) : MemoryRow where
  revisionId := revisionId
  memoryId := memoryId
  revision := 1
  agentId := agentId
  workspace := workspace
  kind := kind
  text := text
  evidenceExcerpt := evidence
  evidenceHash := evidenceHash
  status := .active
  supersedesRevisionId := none
  replacedByRevisionId := none
  createdAt := now
  updatedAt := now
  lastVerifiedAt := now
  idempotencyKey := idempotencyKey

/-- The revision after another one, with a new text. -/
def MemoryRow.revised (previous : MemoryRow)
    (revisionId memoryId text evidence evidenceHash now : String)
    (idempotencyKey : Option String) : MemoryRow :=
  { previous with
    revisionId := revisionId
    memoryId := memoryId
    revision := nextRevision previous.revision
    text := text
    evidenceExcerpt := evidence
    evidenceHash := evidenceHash
    status := .active
    supersedesRevisionId := some previous.revisionId
    replacedByRevisionId := none
    createdAt := now
    updatedAt := now
    lastVerifiedAt := now
    idempotencyKey := idempotencyKey }

/-- Write the first revision of a new memory and say so. -/
def writeNew (env : Env) (agentId : String) (workspace : Option String) (kind : MemoryKind)
    (text evidence : String) (sources : List MemorySource) (idempotencyKey : Option String) :
    MemoryM MemoryRow := do
  let memoryId ← newUuid
  let revisionId ← newUuid
  let time ← now
  let row := newRow revisionId memoryId agentId workspace kind text evidence
    (env.hashText evidence) time idempotencyKey
  insertRecord row
  insertSources revisionId sources
  insertEvent agentId (some memoryId) (some revisionId) "saved"
    (some (contentPayload text evidence (env.hashText evidence) kind workspace sources))
  return row

/-- Write the next revision of a memory and say so. -/
def writeRevised (env : Env) (memoryId : String) (previous : MemoryRow) (text evidence : String)
    (sources : List MemorySource) (idempotencyKey : Option String) : MemoryM MemoryRow := do
  let revisionId ← newUuid
  let time ← now
  updateRecord previous.revisionId (some previous.agentId) (·.superseded revisionId time)
  let row := previous.revised revisionId memoryId text evidence (env.hashText evidence) time
    idempotencyKey
  insertRecord row
  insertSources revisionId sources
  insertEvent previous.agentId (some memoryId) (some revisionId) "updated"
    (some (contentPayload text evidence (env.hashText evidence) previous.kind previous.workspace
      sources))
  return row

/-- The revision that was written under the key of a request, when it agrees with the request. -/
def replayed (request : String) (agrees : Store → MemoryRow → Bool) (existing : Option MemoryRow) :
    MemoryM (Option MemoryRow) := do
  match existing with
  | none => return none
  | some row =>
    if agrees (← store) row then return some row
    else Prog.fail (.validation
      s!"idempotency key was already used for a different {request} request")

def save (env : Env) (actor : MemoryActor) (request : SaveMemoryRequest) : MemoryM MemoryRecord := do
  let agentId ← Prog.ofExcept (actor.authorizeSubject request.agentId)
  let text ← Prog.ofExcept (normalizeText request.text)
  let evidence ← Prog.ofExcept (normalizeEvidence request.evidenceExcerpt)
  let workspace := env.normalizeWorkspace request.workspace
  let idempotencyKey := normalizeOptional request.idempotencyKey
  let sources ← Prog.ofExcept (normalizeSources request.sources)
  let written ← Prog.atomically do
    let existing ← Prog.ofExcept ((← store).idempotentRecord actor idempotencyKey)
    let agrees := fun (s : Store) (row : MemoryRow) =>
      row.agentId = agentId && row.workspace = workspace && row.kind = request.kind &&
        row.text = text && row.evidenceExcerpt = evidence &&
        s.sourcesForRevision row.revisionId = sources
    match ← replayed "save" agrees existing with
    | some row => return Sum.inl row
    | none =>
      let row ← writeNew env agentId workspace request.kind text evidence sources idempotencyKey
      return Sum.inr row.revisionId
  match written with
  | .inl row => attachSources row
  | .inr revisionId => getRevision revisionId

/-- The active revision of a memory that an actor may change. -/
def queryActiveForActor (actor : MemoryActor) (memoryId : String) : MemoryM MemoryRow := do
  let s ← store
  let resolved ← Prog.ofExcept (s.resolveMemoryId actor memoryId true)
  let owner ← Prog.ofExcept actor.agentId
  match s.queryActive owner resolved with
  | some row => return row
  | none => Prog.fail (.notFound memoryId)

def update (env : Env) (actor : MemoryActor) (request : UpdateMemoryRequest) :
    MemoryM MemoryRecord := do
  let memoryId ← Prog.ofExcept (required "memory_id" request.memoryId)
  let text ← Prog.ofExcept (normalizeText request.text)
  let evidence ← Prog.ofExcept (normalizeEvidence request.evidenceExcerpt)
  let idempotencyKey := normalizeOptional request.idempotencyKey
  let sources ← Prog.ofExcept (normalizeSources request.sources)
  let written ← Prog.atomically do
    let existing ← Prog.ofExcept ((← store).idempotentRecord actor idempotencyKey)
    let agrees := fun (s : Store) (row : MemoryRow) =>
      (row.memoryId = memoryId || memoryId.toList.isPrefixOf row.memoryId.toList) &&
        row.text = text && row.evidenceExcerpt = evidence &&
        s.sourcesForRevision row.revisionId = sources
    match ← replayed "update" agrees existing with
    | some row => return Sum.inl row
    | none =>
      let resolved ← Prog.ofExcept ((← store).resolveMemoryId actor memoryId true)
      let previous ← queryActiveForActor actor resolved
      let row ← writeRevised env resolved previous text evidence sources idempotencyKey
      return Sum.inr row.revisionId
  match written with
  | .inl row => attachSources row
  | .inr revisionId => getRevision revisionId

def remove (actor : MemoryActor) (memoryId : String) : MemoryM MemoryRecord := do
  let memoryId ← Prog.ofExcept (required "memory_id" memoryId)
  let row ← Prog.atomically do
    let row ← queryActiveForActor actor memoryId
    let time ← now
    updateRecord row.revisionId (some row.agentId) (·.retired time)
    insertEvent row.agentId (some row.memoryId) (some row.revisionId) "removed" none
    return row.retired time
  attachSources row

/-! ### Batches -/

def canonicalConsolidationCursorKey (env : Env) (agentId : String)
    (workspace conversationId : Option String) : String :=
  "memory-consolidation:" ++ env.hashText
    (agentId ++ "\x00" ++ workspace.getD "" ++ "\x00" ++ conversationId.getD "")

/-- The cursor of a conversation moves forward only.  Numbers from `2 ^ 63` on cannot be stored. -/
def advanceConsolidationCursor (env : Env) (agentId : String) (workspace : Option String)
    (cursor : MemoryCursorUpdate) : MemoryM Unit := do
  let _ ← Prog.ofExcept (required "cursor_key" cursor.cursorKey)
  let conversationId := normalizeOptional cursor.conversationId
  let cursorKey := canonicalConsolidationCursorKey env agentId workspace conversationId
  let s ← store
  match s.cursors[cursorKey]? with
  | some existing =>
    if existing.agentId ≠ agentId then Prog.fail (.accessDenied agentId existing.agentId)
    else if cursor.sequence ≤ existing.sequence then
      Prog.fail (.validation (s!"consolidation cursor {cursorKey} cannot move from sequence " ++
        s!"{existing.sequence} to {cursor.sequence}"))
    else pure ()
  | none => pure ()
  let time ← now
  if 2 ^ 63 ≤ cursor.sequence then Prog.fail (.database "out of range integral type conversion")
  else
    let row : CursorRow := match s.cursors[cursorKey]? with
      | some existing =>
        { existing with workspace := workspace, sequence := cursor.sequence, updatedAt := time }
      | none => ⟨agentId, workspace, conversationId, cursor.sequence, time⟩
    change fun s => { s with cursors := s.cursors.insert cursorKey row }

/-- A mutation with the full identifier of its memory. -/
def canonicalMutation (s : Store) (agentId : String) : MemoryMutation →
    Except MemoryError MemoryMutation
  | .save kind text evidence sources => return .save kind text evidence sources
  | .update memoryId text evidence sources => do
      return .update (← s.resolveMemoryId (.agent agentId) memoryId false) text evidence sources
  | .remove memoryId => do return .remove (← s.resolveMemoryId (.agent agentId) memoryId false)

/-- The memory that a batch changes, and its active revision. -/
def queryActiveForBatch (agentId memoryId : String) : MemoryM (String × MemoryRow) := do
  let s ← store
  let resolved ← Prog.ofExcept (s.resolveMemoryId (.agent agentId) memoryId true)
  match s.queryActive (some agentId) resolved with
  | some prior =>
    if prior.agentId ≠ agentId then
      Prog.fail (.validation s!"memory {memoryId} belongs to another agent")
    else return (resolved, prior)
  | none => Prog.fail (.notFound memoryId)

/-- Carry out one mutation of a batch, and return the memory that it was about. -/
def commitMutation (env : Env) (agentId : String) (workspace : Option String) :
    MemoryMutation → MemoryM String
  | .save kind text evidence sources => do
      let text ← Prog.ofExcept (normalizeText text)
      let evidence ← Prog.ofExcept (normalizeEvidence evidence)
      let row ← writeNew env agentId workspace kind text evidence sources none
      return row.memoryId
  | .update memoryId text evidence sources => do
      let (resolved, prior) ← queryActiveForBatch agentId memoryId
      let text ← Prog.ofExcept (normalizeText text)
      let evidence ← Prog.ofExcept (normalizeEvidence evidence)
      let _ ← writeRevised env resolved prior text evidence sources none
      return resolved
  | .remove memoryId => do
      let (resolved, prior) ← queryActiveForBatch agentId memoryId
      let time ← now
      updateRecord prior.revisionId (some agentId) (·.retired time)
      insertEvent agentId (some resolved) (some prior.revisionId) "removed" none
      return resolved

def commitMutations (env : Env) (agentId : String) (workspace : Option String) :
    List MemoryMutation → MemoryM (List String)
  | [] => return []
  | mutation :: mutations => do
      let memoryId ← commitMutation env agentId workspace mutation
      let memoryIds ← commitMutations env agentId workspace mutations
      return memoryId :: memoryIds

def requestHash (env : Env) (batch : MemoryCommitBatch) : String :=
  env.hashText (env.batchJson batch)

/-- Look for the receipt of a batch, or carry it out and leave a receipt. -/
def commitCanonical (env : Env) (agentId key : String) (workspace : Option String)
    (batch : MemoryCommitBatch) : MemoryM MemoryCommitResult := do
  match (← store).commits[key]? with
  | some stored =>
    if stored.requestHash ≠ requestHash env batch then
      Prog.fail (.validation "idempotency key was already used for a different memory batch")
    else return { stored.result with replayed := true }
  | none =>
    match batch.cursor with
    | some cursor => advanceConsolidationCursor env agentId workspace cursor
    | none => pure ()
    let memoryIds ← commitMutations env agentId workspace batch.operations
    let result : MemoryCommitResult := ⟨key, memoryIds, false⟩
    let time ← now
    change fun s => { s with
      commits := s.commits.insert key ⟨requestHash env batch, result, time⟩ }
    return result

def commitBatch (env : Env) (actor : MemoryActor) (batch : MemoryCommitBatch) :
    MemoryM MemoryCommitResult := do
  let agentId ← Prog.ofExcept (actor.authorizeSubject batch.agentId)
  let key ← Prog.ofExcept (required "idempotency_key" batch.idempotencyKey)
  let workspace := env.normalizeWorkspace batch.workspace
  Prog.atomically do
    let operations ← Prog.ofExcept (batch.operations.mapM (canonicalMutation (← store) agentId))
    commitCanonical env agentId key workspace { batch with operations := operations }

end Wardian.Memory
