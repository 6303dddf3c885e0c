/-
Maintenance of the memories of one agent.

An operator writes a plan that revises, creates and retires memories and merges some of them into
others.  The plan is previewed, which gives a digest of the plan and of the revisions that it
starts from, and it is applied under that digest in one transaction.
-/

import Wardian.Lib.Framing
import Wardian.Memory.Writes

set_option autoImplicit false

namespace Wardian.Memory

open MemoryM

def maxPlanBytes : Nat := 1024 * 1024
def maxOperations : Nat := 100
def maxTextChars : Nat := 8192
def maxLocatorChars : Nat := 4096
def maxSourcesPerOp : Nat := 64

structure MemorySummary where
  memoryId : Option String
  revisionId : Option String
  text : String
  kind : MemoryKind
  scope : MemoryMaintenanceScope
  evidenceExcerpt : String
  sources : List MemorySource

structure MemoryMaintenanceChange where
  operationIndex : Nat
  op : String
  before : Option MemorySummary
  after : Option MemorySummary
  sourceAdditions : List MemorySource
  absorbedMemoryIds : List String
  reason : Option String

structure MemoryMaintenanceConflict where
  operationIndex : Nat
  code : String
  explanation : String

structure MemoryMaintenancePreview where
  planId : String
  agentId : String
  operationCount : Nat
  previewDigest : String
  changes : List MemoryMaintenanceChange
  conflicts : List MemoryMaintenanceConflict

/-- Where a memory is merged into. -/
inductive TargetKey where
  | memory (memoryId : String)
  | clientKey (clientKey : String)
deriving DecidableEq

def requireOperator (actor : MemoryActor) (subjectAgentId : String) : Except MemoryError Unit :=
  match actor with
  | .operator => .ok ()
  | .agent actorAgentId => .error (.accessDenied actorAgentId subjectAgentId)

/-! ### The structure of a plan -/

def validateUuid (env : Env) (field value : String) : Except MemoryError Unit :=
  if env.isUuid (trimmed value) then .ok ()
  else .error (.validation s!"{field} '{value}' is not a valid full UUID")

def validateTextLength (field value : String) (maxChars : Nat) : Except MemoryError Unit :=
  if maxChars < value.toList.length then
    .error (.validation s!"{field} exceeds maximum of {maxChars} characters")
  else .ok ()

def validateSources (sources : List MemorySource) : Except MemoryError Unit := do
  if maxSourcesPerOp < sources.length then
    throw (.validation s!"sources count {sources.length} exceeds maximum of {maxSourcesPerOp}")
  else sources.forM fun source => do
    let _ ← required "source_type" source.sourceType
    match source.locator with
    | some locator =>
      if maxLocatorChars < locator.toList.length then
        throw (.validation s!"source locator exceeds maximum of {maxLocatorChars} characters")
      else pure ()
    | none => pure ()

def validateScope (env : Env) : MemoryMaintenanceScope → Except MemoryError Unit
  | .agent => .ok ()
  | .workspace path => do
      let path ← required "scope path" path
      if env.isAbsolutePath path then pure ()
      else throw (.validation s!"workspace scope path '{path}' must be an absolute path")

/-- What the first pass over a plan has seen. -/
structure PlanSeen where
  sourceMemories : List String
  clientKeys : List String
  retiredMemories : List String
  reviseTargets : List String

/-- A memory may be changed by one operation only. -/
def PlanSeen.source (seen : PlanSeen) (memoryId : String) : Except MemoryError PlanSeen :=
  if memoryId ∈ seen.sourceMemories then
    .error (.validation s!"memory_id {memoryId} appears in multiple source operations")
  else .ok { seen with sourceMemories := memoryId :: seen.sourceMemories }

def validateOperation (env : Env) (seen : PlanSeen) : MemoryMaintenanceOperation →
    Except MemoryError PlanSeen
  | .revise memoryId expectedRevisionId text _ scope evidenceExcerpt addSources => do
      validateUuid env "memory_id" memoryId
      validateUuid env "expected_revision_id" expectedRevisionId
      validateTextLength "text" text maxTextChars
      validateTextLength "evidence_excerpt" evidenceExcerpt maxTextChars
      validateSources addSources
      validateScope env scope
      let seen ← seen.source memoryId
      return { seen with reviseTargets := memoryId :: seen.reviseTargets }
  | .create clientKey text _ scope evidenceExcerpt sources => do
      let _ ← required "client_key" clientKey
      if clientKey ∈ seen.clientKeys then
        throw (.validation s!"duplicate client_key '{clientKey}'")
      else
        validateTextLength "text" text maxTextChars
        validateTextLength "evidence_excerpt" evidenceExcerpt maxTextChars
        validateSources sources
        validateScope env scope
        return { seen with clientKeys := clientKey :: seen.clientKeys }
  | .retire memoryId expectedRevisionId reason => do
      validateUuid env "memory_id" memoryId
      validateUuid env "expected_revision_id" expectedRevisionId
      let _ ← required "reason" reason
      validateTextLength "reason" reason maxTextChars
      let seen ← seen.source memoryId
      return { seen with retiredMemories := memoryId :: seen.retiredMemories }
  | .retireInto memoryId expectedRevisionId targetMemoryId targetClientKey
      targetExpectedRevisionId reason => do
      validateUuid env "memory_id" memoryId
      validateUuid env "expected_revision_id" expectedRevisionId
      let _ ← required "reason" reason
      validateTextLength "reason" reason maxTextChars
      let seen ← seen.source memoryId
      match targetMemoryId, targetClientKey with
      | some target, none => do
          validateUuid env "target_memory_id" target
          if target = memoryId then
            throw (.validation s!"self-targeting retire_into on memory_id {memoryId}")
          else
            match targetExpectedRevisionId with
            | some expected => validateUuid env "target_expected_revision_id" expected
            | none => pure ()
      | none, some target => do
          let _ ← required "target_client_key" target
          if targetExpectedRevisionId.isSome then
            throw (.validation
              "target_expected_revision_id cannot be set when targeting target_client_key")
          else pure ()
      | _, _ => throw (.validation
          "retire_into requires exactly one of target_memory_id or target_client_key")
      return { seen with retiredMemories := memoryId :: seen.retiredMemories }

/-- The second pass: what a merge refers to. -/
def validateReference (seen : PlanSeen) : MemoryMaintenanceOperation → Except MemoryError Unit
  | .retireInto _ _ targetMemoryId targetClientKey targetExpectedRevisionId _ =>
    match targetClientKey, targetMemoryId with
    | some target, _ =>
      if target ∈ seen.clientKeys then .ok ()
      else .error (.validation s!"target_client_key '{target}' not defined in plan")
    | none, some target =>
      if target ∈ seen.retiredMemories then
        .error (.validation s!"target_memory_id {target} is retired in the same plan")
      else if target ∉ seen.reviseTargets ∧ targetExpectedRevisionId.isNone then
        .error (.validation (s!"target_expected_revision_id is required for target_memory_id " ++
          s!"{target} without a revise operation"))
      else .ok ()
    | none, none => .ok ()
  | _ => .ok ()

def validatePlanStructure (env : Env) (plan : MemoryMaintenancePlan) : Except MemoryError Unit := do
  if plan.schemaVersion ≠ 1 then
    throw (.validation s!"unsupported plan schema_version {plan.schemaVersion}")
  let _ ← required "plan_id" plan.planId
  let _ ← required "agent_id" plan.agentId
  let _ ← required "idempotency_key" plan.idempotencyKey
  if plan.operations.isEmpty ∨ maxOperations < plan.operations.length then
    throw (.validation s!"operations count {plan.operations.length} outside allowed range 1-100")
  if maxPlanBytes < (env.planJson plan).utf8ByteSize then
    throw (.validation s!"plan exceeds 1 MiB limit: {(env.planJson plan).utf8ByteSize} bytes")
  let seen ← plan.operations.foldlM (validateOperation env) ⟨[], [], [], []⟩
  plan.operations.forM (validateReference seen)

/-! ### Hashes -/

def computePlanHash (env : Env) (plan : MemoryMaintenancePlan) : String :=
  env.hashText (env.planJson plan)

def textFrame (text : String) : List UInt8 := Framing.frame text.toUTF8.toList

/-- The pairs of a memory and a revision in order. -/
def sortRevisions (revisions : List (String × String)) : List (String × String) :=
  revisions.mergeSort fun left right => toLex left ≤ toLex right

/-- The bytes that the digest of a preview is taken of. -/
def digestBytes (env : Env) (plan : MemoryMaintenancePlan) (revisions : List (String × String)) :
    List UInt8 :=
  let sorted := sortRevisions revisions
  "wardian:memory_maintenance:v1\x00".toUTF8.toList ++ textFrame plan.planId ++
    textFrame plan.agentId ++ textFrame plan.idempotencyKey ++
    textFrame (env.operationsJson plan.operations) ++ Framing.beBytes sorted.length ++
    sorted.flatMap fun revision => textFrame revision.1 ++ textFrame revision.2

def computePreviewDigest (env : Env) (plan : MemoryMaintenancePlan)
    (revisions : List (String × String)) : String :=
  "sha256:" ++ env.sha256 (digestBytes env plan revisions)

/-! ### Sources -/

/-- What two entries for the same source have in common. -/
def MemorySource.key (source : MemorySource) : String × Option String × Option String :=
  (source.sourceType, source.locator, source.sourceHash)

/-- Add a source, or make the one that is there primary. -/
def mergeSource (sources : List MemorySource) (source : MemorySource) : List MemorySource :=
  if sources.any (·.key = source.key) then
    sources.map fun entry =>
      if entry.key = source.key then { entry with primary := entry.primary || source.primary }
      else entry
  else sources ++ [source]

/-- The sources of a memory with those added to it and those of the memories it absorbs, and the
ones among them that it did not have. -/
def combineSources (existing additions absorbed : List MemorySource) :
    Except MemoryError (List MemorySource × List MemorySource) := do
  let existing ← existing.mapM normalizeSource
  let additions ← additions.mapM normalizeSource
  let absorbed ← absorbed.mapM normalizeSource
  let kept := existing.foldl mergeSource []
  let step := fun (found : List MemorySource × List MemorySource) (source : MemorySource) =>
    (mergeSource found.1 source,
      if found.1.any (·.key = source.key) then found.2 else found.2 ++ [source])
  return (additions ++ absorbed).foldl step (kept, [])

/-! ### Preview -/

def recordToSummary (record : MemoryRecord) : MemorySummary where
  memoryId := some record.memoryId
  revisionId := some record.revisionId
  text := record.text
  kind := record.kind
  scope := match record.workspace with
    | some path => .workspace path
    | none => .agent
  evidenceExcerpt := record.evidenceExcerpt
  sources := record.sources

def MemoryStatus.asStr : MemoryStatus → String
  | .active => "active"
  | .superseded => "superseded"
  | .removed => "removed"

/-- The owner and the status of the last revision of a memory. -/
def Store.queryRecordStatus (s : Store) (memoryId : String) : Option (String × MemoryStatus) :=
  (Store.latest (s.records.filter (·.memoryId = memoryId))).map fun row => (row.agentId, row.status)

/-- The active revision of a memory of the agent, with its sources. -/
def Store.queryActiveRecord (s : Store) (agentId memoryId : String) : Option MemoryRecord :=
  (s.queryActive (some agentId) memoryId).map fun row =>
    { row with sources := s.sourcesForRevision row.revisionId }

/-- What has been found out about the memories that a plan refers to. -/
structure Fetched where
  conflicts : List MemoryMaintenanceConflict
  activeRevisions : List (String × String)
  activeRecords : Table MemoryRecord

/-- Why a memory is not there for the agent. -/
def missingConflict (s : Store) (agentId memoryId : String) (index : Nat)
    (mismatch : String) (inactiveCode : String) (inactive : MemoryStatus → String)
    (missingCode missing : String) : MemoryMaintenanceConflict :=
  match s.queryRecordStatus memoryId with
  | some (owner, status) =>
    if owner ≠ agentId then ⟨index, "owner_mismatch", mismatch⟩
    else if status ≠ .active then ⟨index, inactiveCode, inactive status⟩
    else ⟨index, missingCode, missing⟩
  | none => ⟨index, missingCode, missing⟩

/-- Look at a memory that an operation changes. -/
def fetchSource (s : Store) (agentId : String) (index : Nat) (memoryId expectedRevisionId : String)
    (found : Fetched) : Fetched :=
  match s.queryActiveRecord agentId memoryId with
  | some record =>
    { conflicts := if record.revisionId ≠ expectedRevisionId then found.conflicts ++
        [⟨index, "revision_changed", "Expected revision is no longer active"⟩]
      else found.conflicts
      activeRevisions := found.activeRevisions ++ [(memoryId, record.revisionId)]
      activeRecords := found.activeRecords.insert memoryId record }
  | none =>
    { found with conflicts := found.conflicts ++ [missingConflict s agentId memoryId index
        s!"Memory {memoryId} belongs to another agent" "record_inactive"
        (fun status => s!"Memory {memoryId} is no longer active (status: {status.asStr})")
        "record_not_found" s!"Memory record {memoryId} not found for agent {agentId}"] }

/-- Look at a memory that another one is merged into. -/
def fetchTarget (s : Store) (agentId : String) (index : Nat) (targetId : String)
    (expectedRevisionId : Option String) (found : Fetched) : Fetched :=
  match s.queryActiveRecord agentId targetId with
  | some record =>
    let conflicts := match expectedRevisionId with
      | some expected =>
        if record.revisionId ≠ expected then found.conflicts ++
          [⟨index, "revision_changed", "Expected target revision is no longer active"⟩]
        else found.conflicts
      | none => found.conflicts
    if found.activeRecords[targetId]?.isSome then { found with conflicts := conflicts }
    else
      { conflicts := conflicts
        activeRevisions := found.activeRevisions ++ [(targetId, record.revisionId)]
        activeRecords := found.activeRecords.insert targetId record }
  | none =>
    { found with conflicts := found.conflicts ++ [missingConflict s agentId targetId index
        s!"Target memory {targetId} belongs to another agent" "target_inactive"
        (fun status => s!"Target memory {targetId} is not active (status: {status.asStr})")
        "target_not_found" s!"Target memory {targetId} not found for agent {agentId}"] }

def fetchOperation (s : Store) (agentId : String) (found : Fetched) :
    MemoryMaintenanceOperation × Nat → Fetched
  | (.revise memoryId expectedRevisionId _ _ _ _ _, index) =>
    fetchSource s agentId index memoryId expectedRevisionId found
  | (.retire memoryId expectedRevisionId _, index) =>
    fetchSource s agentId index memoryId expectedRevisionId found
  | (.retireInto memoryId expectedRevisionId targetMemoryId _ targetExpectedRevisionId _, index) =>
    let found := fetchSource s agentId index memoryId expectedRevisionId found
    match targetMemoryId with
    | some targetId => fetchTarget s agentId index targetId targetExpectedRevisionId found
    | none => found
  | (.create _ _ _ _ _ _, _) => found

def fetchAll (s : Store) (plan : MemoryMaintenancePlan) : Fetched :=
  plan.operations.zipIdx.foldl (fetchOperation s plan.agentId) ⟨[], [], ∅⟩

/-- The memory that is merged away and where it goes. -/
def MemoryMaintenanceOperation.merge : MemoryMaintenanceOperation → Option (String × TargetKey)
  | .retireInto memoryId _ (some target) _ _ _ => some (memoryId, .memory target)
  | .retireInto memoryId _ none (some target) _ _ => some (memoryId, .clientKey target)
  | _ => none

/-- The memories that go into a target, in the order of the plan. -/
def absorbedIds (plan : MemoryMaintenancePlan) (target : TargetKey) : List String :=
  (plan.operations.filterMap (·.merge)).filterMap fun merge =>
    if merge.2 = target then some merge.1 else none

/-- Their sources. -/
def absorbedSources (plan : MemoryMaintenancePlan) (sources : String → List MemorySource)
    (target : TargetKey) : List MemorySource :=
  (absorbedIds plan target).flatMap sources

def previewChange (plan : MemoryMaintenancePlan) (records : Table MemoryRecord) :
    MemoryMaintenanceOperation × Nat → Except MemoryError MemoryMaintenanceChange
  | (.revise memoryId _ text kind scope evidenceExcerpt addSources, index) => do
      let target := TargetKey.memory memoryId
      let existing := (records[memoryId]?.map (·.sources)).getD []
      let absorbed := absorbedSources plan (fun id => (records[id]?.map (·.sources)).getD []) target
      let (finalSources, sourceAdditions) ← combineSources existing addSources absorbed
      return ⟨index, "revise", records[memoryId]?.map recordToSummary,
        some ⟨some memoryId, none, text, kind, scope, evidenceExcerpt, finalSources⟩,
        sourceAdditions, absorbedIds plan target, none⟩
  | (.create clientKey text kind scope evidenceExcerpt sources, index) => do
      let target := TargetKey.clientKey clientKey
      let absorbed := absorbedSources plan (fun id => (records[id]?.map (·.sources)).getD []) target
      let (finalSources, _) ← combineSources [] sources absorbed
      return ⟨index, "create", none,
        some ⟨none, none, text, kind, scope, evidenceExcerpt, finalSources⟩, finalSources,
        absorbedIds plan target, none⟩
  | (.retire memoryId _ reason, index) =>
    return ⟨index, "retire", records[memoryId]?.map recordToSummary, none, [], [], some reason⟩
  | (.retireInto memoryId _ _ _ _ reason, index) =>
    return ⟨index, "retire_into", records[memoryId]?.map recordToSummary, none, [], [],
      some reason⟩

def evaluatePreview (env : Env) (s : Store) (plan : MemoryMaintenancePlan) :
    Except MemoryError MemoryMaintenancePreview := do
  let found := fetchAll s plan
  let changes ← plan.operations.zipIdx.mapM (previewChange plan found.activeRecords)
  return {
    planId := plan.planId
    agentId := plan.agentId
    operationCount := plan.operations.length
    previewDigest := computePreviewDigest env plan found.activeRevisions
    changes := changes
    conflicts := found.conflicts }

/-! ### Apply -/

/-- The active revision of a memory of the agent, which has to be there. -/
def activeRecord (agentId memoryId : String) : MemoryM MemoryRecord := do
  match (← store).queryActiveRecord agentId memoryId with
  | some record => return record
  | none => Prog.fail (.notFound memoryId)

def MemoryMaintenanceScope.workspace? (env : Env) : MemoryMaintenanceScope → Option String
  | .agent => none
  | .workspace path => env.normalizeWorkspace (some path)

/-- What every event of a plan says. -/
def planPayload (planId : String) (more : List (String × Value)) : Value :=
  .object ([("actor", .string "desktop_operator"), ("confirmation_method", .string "native_dialog"),
    ("plan_id", .string planId)] ++ more)

/-- The sources of a memory that is merged away. -/
def collectAbsorbed (plan : MemoryMaintenancePlan) : List (String × TargetKey) →
    MemoryM (List (String × List MemorySource))
  | [] => return []
  | (memoryId, _) :: merges => do
      let record ← activeRecord plan.agentId memoryId
      let sources := (← store).sourcesForRevision record.revisionId
      let rest ← collectAbsorbed plan merges
      return (memoryId, sources) :: rest

def sourcesOf (collected : List (String × List MemorySource)) (memoryId : String) :
    List MemorySource :=
  ((collected.find? (·.1 = memoryId)).map (·.2)).getD []

/-- What is known while a plan is applied. -/
structure Applying where
  plan : MemoryMaintenancePlan
  appliedAt : String
  absorbed : TargetKey → List MemorySource

def applyCreate (env : Env) (a : Applying) (created : Table (String × String)) :
    MemoryMaintenanceOperation → MemoryM (Table (String × String))
  | .create clientKey text kind scope evidenceExcerpt sources => do
      let memoryId ← newUuid
      let revisionId ← newUuid
      let target := TargetKey.clientKey clientKey
      let (finalSources, _) ← Prog.ofExcept (combineSources [] sources (a.absorbed target))
      let text ← Prog.ofExcept (normalizeText text)
      let evidence ← Prog.ofExcept (normalizeEvidence evidenceExcerpt)
      insertRecord (newRow revisionId memoryId a.plan.agentId (scope.workspace? env) kind text
        evidence (env.hashText evidence) a.appliedAt none)
      insertSources revisionId finalSources
      insertEvent a.plan.agentId (some memoryId) (some revisionId) "create" (some (planPayload
        a.plan.planId [("client_key", .string clientKey), ("absorbed_memory_ids",
          .array ((absorbedIds a.plan target).map .string))]))
      return created.insert clientKey (memoryId, revisionId)
  | _ => return created

/-- The next revision of a memory with what a plan gives it. -/
def MemoryRow.maintained (current : MemoryRow) (revisionId agentId : String)
    (workspace : Option String) (kind : MemoryKind)
    (text evidence evidenceHash appliedAt : String) : MemoryRow :=
  { current with
    revisionId := revisionId
    revision := nextRevision current.revision
    agentId := agentId
    workspace := workspace
    kind := kind
    text := text
    evidenceExcerpt := evidence
    evidenceHash := evidenceHash
    status := .active
    supersedesRevisionId := some current.revisionId
    replacedByRevisionId := none
    updatedAt := appliedAt
    idempotencyKey := none }

/-- Replace the active revision of a memory and say so. -/
def writeMaintained (a : Applying) (current row : MemoryRow) (sources : List MemorySource)
    (target : TargetKey) : MemoryM Unit := do
  updateRecord current.revisionId none (·.superseded row.revisionId a.appliedAt)
  insertRecord row
  insertSources row.revisionId sources
  insertEvent a.plan.agentId (some current.memoryId) (some row.revisionId) "revise"
    (some (planPayload a.plan.planId [("supersedes_revision_id", .string current.revisionId),
      ("absorbed_memory_ids", .array ((absorbedIds a.plan target).map .string))]))

/-- The new revisions by memory. -/
def applyRevise (env : Env) (a : Applying) (revised : Table String) :
    MemoryMaintenanceOperation → MemoryM (Table String)
  | .revise memoryId _ text kind scope evidenceExcerpt addSources => do
      let current ← activeRecord a.plan.agentId memoryId
      let revisionId ← newUuid
      let target := TargetKey.memory memoryId
      let (finalSources, _) ←
        Prog.ofExcept (combineSources current.sources addSources (a.absorbed target))
      let text ← Prog.ofExcept (normalizeText text)
      let evidence ← Prog.ofExcept (normalizeEvidence evidenceExcerpt)
      let row := current.toMemoryRow.maintained revisionId a.plan.agentId (scope.workspace? env)
        kind text evidence (env.hashText evidence) a.appliedAt
      writeMaintained a current.toMemoryRow row finalSources target
      return revised.insert memoryId revisionId
  | _ => return revised

/-- A target that is not revised itself gets a new revision with the sources it absorbs. -/
def applyTarget (a : Applying) (reviseOps : List String) (revised : Table String)
    (targetId : String) : MemoryM (Table String) := do
  if targetId ∈ reviseOps then return revised
  else
    let current ← activeRecord a.plan.agentId targetId
    let revisionId ← newUuid
    let target := TargetKey.memory targetId
    let (finalSources, _) ←
      Prog.ofExcept (combineSources current.sources [] (a.absorbed target))
    let row := current.toMemoryRow.maintained revisionId a.plan.agentId current.workspace
      current.kind current.text current.evidenceExcerpt current.evidenceHash a.appliedAt
    writeMaintained a current.toMemoryRow row finalSources target
    return revised.insert targetId revisionId

def applyRetire (a : Applying) : MemoryMaintenanceOperation → MemoryM Unit
  | .retire memoryId _ reason => do
      let current ← activeRecord a.plan.agentId memoryId
      updateRecord current.revisionId none (·.retired a.appliedAt)
      insertEvent a.plan.agentId (some current.memoryId) (some current.revisionId) "retire"
        (some (planPayload a.plan.planId [("reason", .string reason)]))
  | _ => pure ()

/-- The memory that another one is merged into, and its new revision. -/
def resolveTarget (created : Table (String × String)) (revised : Table String)
    (targetMemoryId targetClientKey : Option String) : Except MemoryError (String × String) :=
  match targetClientKey, targetMemoryId with
  | some key, _ =>
    match created[key]? with
    | some target => .ok target
    | none => .error (.validation s!"target_client_key '{key}' not resolved")
  | none, some memoryId =>
    match revised[memoryId]? with
    | some revisionId => .ok (memoryId, revisionId)
    | none => .error (.validation s!"target_memory_id '{memoryId}' not resolved")
  | none, none => .error (.validation "retire_into missing target")

def applyRetireInto (a : Applying) (created : Table (String × String)) (revised : Table String) :
    MemoryMaintenanceOperation → MemoryM Unit
  | .retireInto memoryId _ targetMemoryId targetClientKey _ reason => do
      let current ← activeRecord a.plan.agentId memoryId
      let (targetId, targetRevisionId) ←
        Prog.ofExcept (resolveTarget created revised targetMemoryId targetClientKey)
      updateRecord current.revisionId none fun row =>
        { row.retired a.appliedAt with replacedByRevisionId := some targetRevisionId }
      insertEvent a.plan.agentId (some current.memoryId) (some current.revisionId) "retire_into"
        (some (planPayload a.plan.planId [("reason", .string reason),
          ("target_memory_id", .string targetId), ("target_revision_id", .string targetRevisionId)]))
  | _ => pure ()

def operationReceipt (created : Table (String × String)) (revised : Table String) :
    MemoryMaintenanceOperation × Nat → MemoryMaintenanceOperationReceipt
  | (.revise memoryId _ _ _ _ _ _, index) => ⟨index, none, memoryId, revised[memoryId]?⟩
  | (.create clientKey _ _ _ _ _, index) =>
    let target := created[clientKey]?.getD ("", "")
    ⟨index, some clientKey, target.1, some target.2⟩
  | (.retire memoryId _ _, index) => ⟨index, none, memoryId, none⟩
  | (.retireInto memoryId _ _ _ _ _, index) => ⟨index, none, memoryId, none⟩

/-- The memories that others are merged into, in the order in which the map goes through them. -/
def mergeTargets (env : Env) (plan : MemoryMaintenancePlan) : List String :=
  env.mapOrder ((plan.operations.filterMap (·.merge)).filterMap fun merge =>
    match merge.2 with
    | .memory target => some target
    | .clientKey _ => none).dedup

def reviseOps (plan : MemoryMaintenancePlan) : List String :=
  plan.operations.filterMap fun
    | .revise memoryId _ _ _ _ _ _ => some memoryId
    | _ => none

/-- The operations, by kind: the creations come first and the merges last. -/
def applyOperations (env : Env) (a : Applying) :
    MemoryM (Table (String × String) × Table String) := do
  let plan := a.plan
  let created ← plan.operations.foldlM (applyCreate env a) ∅
  let revised ← plan.operations.foldlM (applyRevise env a) ∅
  let revised ← (mergeTargets env plan).foldlM (applyTarget a (reviseOps plan)) revised
  plan.operations.forM (applyRetire a)
  plan.operations.forM (applyRetireInto a created revised)
  return (created, revised)

/-- Apply a plan for which there is no receipt. -/
def applyNew (env : Env) (plan : MemoryMaintenancePlan) (previewDigest : String) :
    MemoryM MemoryMaintenanceReceipt := do
  let preview ← Prog.ofExcept (evaluatePreview env (← store) plan)
  match preview.conflicts with
  | first :: _ => Prog.fail (.conflict
      s!"operation {first.operationIndex} conflict [{first.code}]: {first.explanation}")
  | [] =>
    if preview.previewDigest ≠ previewDigest then
      Prog.fail (.conflict (s!"preview digest mismatch: expected {preview.previewDigest}, " ++
        s!"got {previewDigest}"))
    else
      let appliedAt ← now
      let collected ← collectAbsorbed plan (plan.operations.filterMap (·.merge))
      let (created, revised) ← applyOperations env
        ⟨plan, appliedAt, absorbedSources plan (sourcesOf collected)⟩
      let receipt : MemoryMaintenanceReceipt :=
        { planId := plan.planId
          agentId := plan.agentId
          idempotencyKey := plan.idempotencyKey
          previewDigest := previewDigest
          appliedAt := appliedAt
          operations := plan.operations.zipIdx.map (operationReceipt created revised) }
      change fun s => { s with receipts := s.receipts ++ [⟨plan.idempotencyKey, plan.agentId,
        plan.planId, computePlanHash env plan, previewDigest, receipt, appliedAt⟩] }
      return receipt

/-- The receipt of a plan of an agent. -/
def Store.receipt (s : Store) (agentId idempotencyKey : String) : Option ReceiptRow :=
  s.receipts.find? fun row => row.agentId = agentId && row.idempotencyKey = idempotencyKey

def applyMaintenance (env : Env) (actor : MemoryActor) (plan : MemoryMaintenancePlan)
    (previewDigest : String) : MemoryM MemoryMaintenanceReceipt := do
  Prog.ofExcept (requireOperator actor plan.agentId)
  Prog.ofExcept (validatePlanStructure env plan)
  Prog.atomically do
    match (← store).receipt plan.agentId plan.idempotencyKey with
    | some stored =>
      if stored.planId ≠ plan.planId ∨ stored.planHash ≠ computePlanHash env plan then
        Prog.fail (.validation (s!"idempotency key '{plan.idempotencyKey}' was already used " ++
          "with a different maintenance plan"))
      else return stored.receipt
    | none => applyNew env plan previewDigest

end Wardian.Memory
