/-
Recovering interrupted replacements of agents.

While an agent is replaced, a journal holds its old and its new configuration.  A run of the recovery goes
through the journals that were left behind, decides for each which configuration holds, and writes it to the
state file and to the database before it removes the journal.  A run keeps all that has been on the disk on
its way, so that it can be cut off after any write.
-/

import Wardian.Lib.Table
import Wardian.Library.Deployments

set_option autoImplicit false

namespace Wardian.Replacement

def journalSchema : Nat := 1

/-! ### Configurations and journals -/

/-- A configuration, with all other fields as they are written. -/
structure AgentConfig where
  sessionId : String
  sessionName : String
  description : String
  agentClass : String
  folder : String
  isOff : Bool
  provider : String
  others : String
  deriving DecidableEq

inductive ReplacementPhase
  | prepared
  | statePersisted
  | metadataPersisted
  | boundaryCommitting
  | boundaryCommitted
  | liveInstalled
  deriving DecidableEq

structure SessionCloseIntent where
  boundaryId : String
  agentId : String
  agentName : String
  workspace : String
  provider : String
  boundaryReason : String
  archiveAvailable : Bool
  conversationId : Option String
  sourceSequence : Option Nat
  deriving DecidableEq

structure PendingAgentReplacement where
  schema : Nat
  generationId : String
  operation : String
  sessionId : String
  originalConfig : AgentConfig
  replacementConfig : AgentConfig
  originalCreatedAt : Option String
  replacementCreatedAt : Option String
  archiveConversationId : Option String
  archiveExpected : Bool
  sessionCloseIntent : Option SessionCloseIntent
  phase : ReplacementPhase
  deriving DecidableEq

structure RecoveredAgentReplacement where
  sessionId : String
  generationId : String
  sessionCloseIntent : Option SessionCloseIntent

inductive RecoveryStatus
  | idle
  | busy
  | recovered (records : List RecoveredAgentReplacement)

inductive RecoveryError
  | unsupportedSchema (schema : Nat)
  | changed (sessionId : String)
  | missing (sessionId : String)
  | unreadableIndex (sessionId : String)
  | nameTaken

/-! ### The archive -/

inductive ConversationStatus
  | opened
  | closed
  | interrupted
  deriving DecidableEq

structure ConversationIndexEntry where
  conversationId : String
  status : ConversationStatus

/-- The lines of the archive index of a session, if it has one; a line may be unreadable. -/
abbrev Archive : Type := String → Option (List (Option ConversationIndexEntry))

def isSafePathComponent (value : String) : Bool :=
  let value := Text.trim value.toList
  if value.isEmpty || value = ['.'] || value = ['.', '.'] then false
  else value.all fun c =>
    Text.isAsciiAlphabetic c || Text.isAsciiDigit c || c = '-' || c = '_' || c = '.'

def archivedBoundaryIsClosed (archive : Archive) (record : PendingAgentReplacement) :
    Except RecoveryError Bool :=
  match record.archiveConversationId with
  | none => .ok false
  | some conversationId =>
    if !isSafePathComponent record.sessionId then .ok false
    else
      match archive record.sessionId with
      | none => .ok false
      | some lines =>
        if lines.any (·.isNone) then .error (.unreadableIndex record.sessionId)
        else .ok ((lines.filterMap id).any fun entry =>
          entry.conversationId = conversationId && entry.status ≠ .opened)

/-- Whether the new configuration of a journal holds. -/
def rollForwardOf (archive : Archive) (record : PendingAgentReplacement) : Except RecoveryError Bool :=
  match record.phase with
  | .boundaryCommitted | .liveInstalled => .ok true
  | .boundaryCommitting =>
    if record.archiveExpected then archivedBoundaryIsClosed archive record else .ok false
  | .prepared | .statePersisted | .metadataPersisted => .ok false

/-- The configuration that holds, and when it was made. -/
def PendingAgentReplacement.choose (record : PendingAgentReplacement) (forward : Bool) :
    AgentConfig × Option String :=
  if forward then (record.replacementConfig, record.replacementCreatedAt)
  else (record.originalConfig, record.originalCreatedAt)

/-! ### The stores -/

/-- A row of the table of agents, under the session it belongs to. -/
structure AgentRow where
  sessionName : String
  description : String
  agentClass : String
  provider : String
  workspace : Option String
  project : Option String
  isOff : Bool
  createdAt : String

/-- What is on the disk, with the journals in the order of their paths. -/
structure Stores where
  state : List AgentConfig
  agents : Table AgentRow
  journals : List PendingAgentReplacement

def projectNameFromWorkspace (workspace : String) : Option String :=
  match (Library.pathParts workspace).getLast? with
  | none => none
  | some name =>
    if name = ['.', '.'] then none
    else
      let name := Text.trim name
      if name.isEmpty then none else some (String.ofList name)

def workspaceOf (config : AgentConfig) : Option String :=
  if (Text.trim config.folder.toList).isEmpty then none else some config.folder

/-- The row of a configuration. -/
def rowOf (config : AgentConfig) (createdAt : String) : AgentRow where
  sessionName := config.sessionName
  description := config.description
  agentClass := config.agentClass
  provider := config.provider
  workspace := workspaceOf config
  project := (workspaceOf config).bind projectNameFromWorkspace
  isOff := config.isOff
  createdAt := createdAt

/-- No two agents have one name. -/
def nameTaken (agents : Table AgentRow) (sessionId sessionName : String) : Bool :=
  agents.toList.any fun entry => entry.1 ≠ sessionId && entry.2.sessionName = sessionName

/-- A row that is there keeps when it was made. -/
def upsertAgent (agents : Table AgentRow) (now : String) (config : AgentConfig) (createdAt : Option String) :
    Option (Table AgentRow) :=
  if nameTaken agents config.sessionId config.sessionName then none
  else
    match agents[config.sessionId]? with
    | some row => some (agents.insert config.sessionId (rowOf config row.createdAt))
    | none => some (agents.insert config.sessionId (rowOf config (createdAt.getD now)))

/-- The first configuration of the session is replaced. -/
def replaceConfig (config : AgentConfig) : List AgentConfig → Option (List AgentConfig)
  | [] => none
  | existing :: configs =>
    if existing.sessionId = config.sessionId then some (config :: configs)
    else (replaceConfig config configs).map (existing :: ·)

def currentStateConfig (stores : Stores) (sessionId : String) : Except RecoveryError AgentConfig :=
  match stores.state.find? (·.sessionId = sessionId) with
  | some config => .ok config
  | none => .error (.missing sessionId)

/-! ### A run of the recovery -/

/-- A run so far: what is on the disk, and what has been before its writes. -/
structure Progress where
  stores : Stores
  before : List Stores

def Progress.write (p : Progress) (stores : Stores) : Progress := ⟨stores, p.before ++ [p.stores]⟩

def replaceConfigInState (p : Progress) (config : AgentConfig) : Progress × Except RecoveryError Unit :=
  match replaceConfig config p.stores.state with
  | some configs => (p.write { p.stores with state := configs }, .ok ())
  | none => (p, .error (.missing config.sessionId))

def persistConfig (now : String) (p : Progress) (config : AgentConfig) (createdAt : Option String) :
    Progress × Except RecoveryError Unit :=
  match upsertAgent p.stores.agents now config createdAt with
  | some agents => (p.write { p.stores with agents := agents }, .ok ())
  | none => (p, .error .nameTaken)

def recoverRecord (archive : Archive) (now : String) (p : Progress) (record : PendingAgentReplacement) :
    Progress × Except RecoveryError Bool :=
  match rollForwardOf archive record with
  | .error e => (p, .error e)
  | .ok forward =>
    match currentStateConfig p.stores record.sessionId with
    | .error e => (p, .error e)
    | .ok current =>
      if current ≠ record.originalConfig ∧ current ≠ record.replacementConfig then
        (p, .error (.changed record.sessionId))
      else
        match replaceConfigInState p (record.choose forward).1 with
        | (p, .error e) => (p, .error e)
        | (p, .ok ()) =>
          match persistConfig now p (record.choose forward).1 (record.choose forward).2 with
          | (p, .error e) => (p, .error e)
          | (p, .ok ()) => (p, .ok forward)

/-- The file of a journal is named by its session. -/
def removeJournal (stores : Stores) (sessionId : String) : Stores :=
  { stores with journals := stores.journals.filter fun record => record.sessionId ≠ sessionId }

/-- What is left to do for a journal. -/
def intentOf (record : PendingAgentReplacement) (forward : Bool) : Option SessionCloseIntent :=
  if forward then record.sessionCloseIntent else none

def recoverRecords (archive : Archive) (now : String) (p : Progress)
    (recovered : List RecoveredAgentReplacement) :
    List PendingAgentReplacement → Progress × Except RecoveryError (List RecoveredAgentReplacement)
  | [] => (p, .ok recovered)
  | record :: records =>
    if record.schema ≠ journalSchema then (p, .error (.unsupportedSchema record.schema))
    else
      match recoverRecord archive now p record with
      | (p, .error e) => (p, .error e)
      | (p, .ok forward) =>
        recoverRecords archive now
          (if (intentOf record forward).isNone then p.write (removeJournal p.stores record.sessionId) else p)
          (recovered ++ [⟨record.sessionId, record.generationId, intentOf record forward⟩]) records

def statusOf (recovered : List RecoveredAgentReplacement) : RecoveryStatus :=
  if recovered.isEmpty then .idle else .recovered recovered

/-- The journals are gone through under the roster barrier. -/
def recoverPendingReplacements (archive : Archive) (now : String) (barrier : Bool) (stores : Stores) :
    Progress × Except RecoveryError RecoveryStatus :=
  if !barrier then (⟨stores, []⟩, .ok .busy)
  else
    match recoverRecords archive now ⟨stores, []⟩ [] stores.journals with
    | (p, .error e) => (p, .error e)
    | (p, .ok recovered) => (p, .ok (statusOf recovered))

def completeRecoveredReplacement (stores : Stores) (sessionId generationId : String) : Bool × Stores :=
  match stores.journals.find? (·.sessionId = sessionId) with
  | none => (false, stores)
  | some current =>
    if current.generationId ≠ generationId then (false, stores)
    else (true, removeJournal stores sessionId)

/-! ### Runs one after the other -/

def RecoveryStatus.records : RecoveryStatus → List RecoveredAgentReplacement
  | .recovered records => records
  | .idle | .busy => []

/-- The stores, what runs to their end have reported, and what was completed. -/
structure Node where
  stores : Stores
  reported : List RecoveredAgentReplacement
  completed : List RecoveredAgentReplacement

/-- A run is cut off, or comes to its end, or a replacement that was reported is completed. -/
inductive Step (archive : Archive) : Node → Node → Prop
  | killed {node : Node} (now : String) (barrier : Bool) {p : Progress}
      {result : Except RecoveryError RecoveryStatus} {stores : Stores}
      (hrun : recoverPendingReplacements archive now barrier node.stores = (p, result))
      (hsts : stores ∈ p.before ++ [p.stores]) : Step archive node { node with stores := stores }
  | finished {node : Node} (now : String) (barrier : Bool) {p : Progress} {status : RecoveryStatus}
      (hrun : recoverPendingReplacements archive now barrier node.stores = (p, .ok status)) :
      Step archive node { node with stores := p.stores, reported := node.reported ++ status.records }
  | completed {node : Node} {record : RecoveredAgentReplacement} (hrptd : record ∈ node.reported) :
      Step archive node
        { node with
          stores := (completeRecoveredReplacement node.stores record.sessionId record.generationId).2
          completed := record :: node.completed }

end Wardian.Replacement
