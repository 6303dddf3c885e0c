/-
Saving and resetting the workbench.

A request proposes a successor of the durable document and names the revision and the token of the
document it was based on.  Three shortcuts answer a request that was served before without a second
write: the ledger of the answered requests, the identical document, and the reset that the backup
still shows.  The ledger lives as long as the process; it forgets the oldest requests of a home and
the homes that were used longest ago.

Main results:

* `Workbench.remembered_rememberRequest` — what the ledger knows after a request;
* `Workbench.fingerprintOf_inj` — a fingerprint determines its revision and its token.
-/

import Std.Data.String.ToNat
import Wardian.Workbench.Slots

set_option autoImplicit false

namespace Wardian.Workbench

def maxRequestLedgerEntriesPerHome : Nat := 256
def maxRequestLedgerHomes : Nat := 64

/-! ### Requests and answers -/

inductive WorkbenchPersistenceOutcome
  | saved
  | revisionConflict
  | futureSchema
deriving DecidableEq

structure WorkbenchSaveRequest where
  document : WorkbenchDocumentV1
  expectedRevision : Nat
  expectedToken : String
  requestId : String
deriving DecidableEq

structure WorkbenchSaveResult where
  outcome : WorkbenchPersistenceOutcome
  durableRevision : Option Nat
  durableToken : Option String
  requestId : String

structure WorkbenchResetRequest where
  expectedRevision : Nat
  expectedToken : String
  requestId : String
deriving DecidableEq

structure WorkbenchResetResult where
  outcome : WorkbenchPersistenceOutcome
  durableRevision : Option Nat
  durableToken : Option String
  requestId : String
  document : Option WorkbenchDocumentV1

/-! ### The ledgers -/

inductive RequestKind
  | save
  | reset
deriving DecidableEq

inductive StoredResult
  | save (result : WorkbenchSaveResult)
  | reset (result : WorkbenchResetResult)

structure RequestLedgerEntry where
  kind : RequestKind
  fingerprint : String
  result : StoredResult

/-- The requests of a home that were answered, and the order in which they came in. -/
structure HomeRequestLedger where
  entries : Table RequestLedgerEntry
  order : List String

/-- The ledgers of the homes, and the order in which these were used. -/
structure RequestLedgers where
  homes : Table HomeRequestLedger
  order : List String

def RequestLedgers.empty : RequestLedgers := ⟨∅, []⟩

def RequestLedgers.touchHome (ledgers : RequestLedgers) (home : String) : RequestLedgers :=
  { ledgers with order := (ledgers.order.filter fun known => known ≠ home) ++ [home] }

/-- Remove the oldest keys of a table until it has at most `bound` entries. -/
def pruneTable {β : Type} (bound : Nat) (table : Table β) : List String → Table β × List String
  | [] => (table, [])
  | oldest :: order =>
    if bound < table.size then pruneTable bound (table.erase oldest) order
    else (table, oldest :: order)

def RequestLedgers.pruneHomes (ledgers : RequestLedgers) : RequestLedgers :=
  let (homes, order) := pruneTable maxRequestLedgerHomes ledgers.homes ledgers.order
  ⟨homes, order⟩

/-- A ledger with one more request; a request that is known keeps its place. -/
def HomeRequestLedger.remember (ledger : HomeRequestLedger) (requestId : String)
    (entry : RequestLedgerEntry) : HomeRequestLedger :=
  let order := if ledger.entries.contains requestId then ledger.order
    else ledger.order ++ [requestId]
  let (entries, order) := pruneTable maxRequestLedgerEntriesPerHome
    (ledger.entries.insert requestId entry) order
  ⟨entries, order⟩

def RequestLedgers.remember (ledgers : RequestLedgers) (home requestId : String)
    (entry : RequestLedgerEntry) : RequestLedgers :=
  let ledgers := ledgers.touchHome home
  let ledger := (ledgers.homes[home]?).getD ⟨∅, []⟩
  RequestLedgers.pruneHomes
    { ledgers with homes := ledgers.homes.insert home (ledger.remember requestId entry) }

/-! ### The world -/

/-- The slots of every home, by its normalized key, and the ledgers of the process. -/
structure World where
  slots : String → Slots
  ledgers : RequestLedgers

def World.withSlots (world : World) (home : String) (slots : Slots) : World :=
  { world with slots := Function.update world.slots home slots }

/-- A program over the world. -/
abbrev WorkbenchM (α : Type) : Type := Prog World WorkbenchIoError α

/-- Run a program on the slots of one home. -/
def onHome {α : Type} (home : String) (m : SlotM α) : WorkbenchM α := fun world =>
  ((m (world.slots home)).1, world.withSlots home (m (world.slots home)).2)

def ledgerEntry (home requestId : String) : WorkbenchM (Option RequestLedgerEntry) := do
  let world ← Prog.get
  let entry := (world.ledgers.homes[home]?).bind fun ledger => ledger.entries[requestId]?
  if world.ledgers.homes.contains home then
    Prog.modify fun world => { world with ledgers := world.ledgers.touchHome home }
  return entry

def rememberRequest (home requestId : String) (entry : RequestLedgerEntry) : WorkbenchM Unit :=
  Prog.modify fun world => { world with ledgers := world.ledgers.remember home requestId entry }

/-! ### Saving -/

def saveResultForResolved (resolved : ResolvedState) (outcome : WorkbenchPersistenceOutcome)
    (requestId : String) : WorkbenchSaveResult :=
  match resolved with
  | .futureSchema _ => ⟨outcome, none, none, requestId⟩
  | .v1 _ document token _ _ => ⟨outcome, some document.revision, some token, requestId⟩

def resetResultForResolved (resolved : ResolvedState) (outcome : WorkbenchPersistenceOutcome)
    (requestId : String) (document : Option WorkbenchDocumentV1) : WorkbenchResetResult :=
  match resolved with
  | .futureSchema _ => ⟨outcome, none, none, requestId, document⟩
  | .v1 _ durable token _ _ => ⟨outcome, some durable.revision, some token, requestId, document⟩

def savedResultMatchesCurrentPrimary (resolved : ResolvedState) (revision : Option Nat)
    (token : Option String) : Bool :=
  match resolved with
  | .v1 .primary document currentToken _ _ =>
    decide (revision = some document.revision ∧ token = some currentToken)
  | _ => false

/-- The fingerprint of a request. -/
def fingerprintOf (revision : Nat) (token : String) : String := toString revision ++ ":" ++ token

/-- The answer of the ledger to a request that it knows, if it is the same request and its result is
still the primary. -/
def recordedSave (resolved : ResolvedState) (requestPrint : String) (entry : RequestLedgerEntry) :
    Option WorkbenchSaveResult :=
  match entry.result with
  | .save result =>
    if entry.kind = .save ∧ entry.fingerprint = requestPrint ∧
        savedResultMatchesCurrentPrimary resolved result.durableRevision result.durableToken then
      some result
    else none
  | .reset _ => none

def recordedReset (resolved : ResolvedState) (requestPrint : String)
    (entry : RequestLedgerEntry) : Option WorkbenchResetResult :=
  match entry.result with
  | .reset result =>
    if entry.kind = .reset ∧ entry.fingerprint = requestPrint ∧
        savedResultMatchesCurrentPrimary resolved result.durableRevision result.durableToken then
      some result
    else none
  | .save _ => none

variable (serde : SerdeJson) (tokenFor : Bytes → String)

def saveWorkbenchLocked (io : Access) (home : String) (request : WorkbenchSaveRequest) :
    WorkbenchM WorkbenchSaveResult := do
  let resolved ← onHome home (resolveState serde tokenFor io)
  match resolved with
  | .futureSchema _ => return saveResultForResolved resolved .futureSchema request.requestId
  | .v1 source durableDocument durableToken _ _ =>
    match request.document.validate serde with
    | error :: errors => Prog.fail (.invalidDocument (error :: errors))
    | [] =>
      let incomingBytes := serde.toVec request.document
      let incomingToken := tokenFor incomingBytes
      let requestPrint := fingerprintOf request.document.revision incomingToken
      let entry ← ledgerEntry home request.requestId
      match entry with
      | some entry =>
        match recordedSave resolved requestPrint entry with
        | some result => return result
        | none =>
          return saveResultForResolved resolved .revisionConflict request.requestId
      | none =>
        if source = .primary ∧ request.document.revision = durableDocument.revision ∧
            incomingToken = durableToken then do
          let result : WorkbenchSaveResult :=
            ⟨.saved, some durableDocument.revision, some durableToken, request.requestId⟩
          rememberRequest home request.requestId ⟨.save, requestPrint, .save result⟩
          return result
        else if request.expectedRevision = durableDocument.revision ∧
            request.expectedToken = durableToken ∧
            request.expectedRevision < maxSafeInteger ∧
            request.expectedRevision + 1 = request.document.revision then do
          onHome home (persistBytes io resolved incomingBytes)
          let result : WorkbenchSaveResult :=
            ⟨.saved, some request.document.revision, some incomingToken, request.requestId⟩
          rememberRequest home request.requestId ⟨.save, requestPrint, .save result⟩
          return result
        else return saveResultForResolved resolved .revisionConflict request.requestId

/-! ### Resetting -/

/-- The default document under another revision and another time stamp. -/
def resetDocument (revision : Nat) (savedAt : String) : WorkbenchDocumentV1 :=
  { defaultDocument with revision, savedAt }

def isResetTarget (document : WorkbenchDocumentV1) (revision : Nat) : Bool :=
  decide (document = resetDocument revision document.savedAt)

/-- Whether the backup shows that the reset of this revision and token was served.  Without a backup
of that revision only the default document, at revision 0, can have been there. -/
def resetRetryTokenMatches (io : Access) (expectedRevision : Nat) (expectedToken : String) :
    SlotM Bool := do
  failIo io.retryReadError
  let slots ← Prog.get
  let withoutBackup := decide (expectedRevision = 0 ∧
    tokenFor (serde.toVec defaultDocument) = expectedToken)
  match classifySlot serde tokenFor slots.backup with
  | .valid document _ token =>
    if document.revision = expectedRevision then return decide (token = expectedToken)
    else return withoutBackup
  | _ => return withoutBackup

/-- The part of a reset behind its shortcuts: compare, and write the default document.  `now` is the
time stamp that the clock gives for it. -/
def proposeReset (io : Access) (now home : String) (request : WorkbenchResetRequest)
    (resolved : ResolvedState) (durableRevision : Nat) (durableToken : String) :
    WorkbenchM WorkbenchResetResult :=
  if request.expectedRevision = durableRevision ∧ request.expectedToken = durableToken ∧
      request.expectedRevision < maxSafeInteger then
    let document := resetDocument (request.expectedRevision + 1) now
    match document.validate serde with
    | error :: errors => Prog.fail (.invalidDocument (error :: errors))
    | [] => do
        let bytes := serde.toVec document
        onHome home (persistBytes io resolved bytes)
        let result : WorkbenchResetResult :=
          ⟨.saved, some document.revision, some (tokenFor bytes), request.requestId, some document⟩
        rememberRequest home request.requestId
          ⟨.reset, fingerprintOf request.expectedRevision request.expectedToken, .reset result⟩
        return result
  else pure (resetResultForResolved resolved .revisionConflict request.requestId none)

def resetWorkbenchLocked (io : Access) (now home : String) (request : WorkbenchResetRequest) :
    WorkbenchM WorkbenchResetResult := do
  let resolved ← onHome home (resolveState serde tokenFor io)
  match resolved with
  | .futureSchema _ => return resetResultForResolved resolved .futureSchema request.requestId none
  | .v1 source durableDocument durableToken _ _ =>
    let requestPrint := fingerprintOf request.expectedRevision request.expectedToken
    let entry ← ledgerEntry home request.requestId
    match entry with
    | some entry =>
      match recordedReset resolved requestPrint entry with
      | some result => return result
      | none =>
        return resetResultForResolved resolved .revisionConflict request.requestId none
    | none =>
      let retried ←
        if source = .primary ∧ request.expectedRevision < maxSafeInteger ∧
            durableDocument.revision = request.expectedRevision + 1 ∧
            isResetTarget durableDocument durableDocument.revision then
          onHome home (resetRetryTokenMatches serde tokenFor io request.expectedRevision
            request.expectedToken)
        else pure false
      if retried then do
        let result : WorkbenchResetResult :=
          ⟨.saved, some durableDocument.revision, some durableToken, request.requestId,
            some durableDocument⟩
        rememberRequest home request.requestId ⟨.reset, requestPrint, .reset result⟩
        return result
      else
        proposeReset serde tokenFor io now home request resolved durableDocument.revision
          durableToken

/-! ### The fingerprint -/

theorem fingerprintOf_inj {revision revision' : Nat} {token token' : String}
    (h : fingerprintOf revision token = fingerprintOf revision' token') :
    revision = revision' ∧ token = token' := by
  have hlist := congrArg String.toList h
  simp only [fingerprintOf, String.toList_append, List.append_assoc] at hlist
  have hcolon : ∀ n : Nat, ∀ c ∈ (toString n).toList, c ≠ ':' := by
    intro n c hc hcolon
    have hmem : c ∈ Nat.toDigits 10 n := by simpa [toString, Nat.repr] using hc
    have hdig : c.isDigit := Nat.isDigit_of_mem_toDigits (by decide) (by decide) hmem
    rw [hcolon] at hdig
    exact absurd hdig (by decide)
  -- Neither number has a colon, so the first colon of the text ends both.
  have hspl : ∀ (as bs cs ds : List Char), (∀ c ∈ as, c ≠ ':') → (∀ c ∈ bs, c ≠ ':') →
      as ++ ':' :: cs = bs ++ ':' :: ds → as = bs ∧ cs = ds := by
    intro as
    induction as with
    | nil =>
      intro bs cs ds _ hbs heq
      cases bs with
      | nil => exact ⟨rfl, (List.cons.inj heq).2⟩
      | cons b bs => exact absurd (List.cons.inj heq).1.symm (hbs b (List.mem_cons_self ..))
    | cons a as ih =>
      intro bs cs ds has hbs heq
      cases bs with
      | nil => exact absurd (List.cons.inj heq).1 (has a (List.mem_cons_self ..))
      | cons b bs =>
        obtain ⟨hab, htail⟩ := List.cons.inj heq
        obtain ⟨hlist, hrest⟩ := ih bs cs ds (fun c hc => has c (List.mem_cons_of_mem _ hc))
          (fun c hc => hbs c (List.mem_cons_of_mem _ hc)) htail
        exact ⟨by rw [hab, hlist], hrest⟩
  obtain ⟨hnum, htok⟩ := hspl _ _ _ _ (hcolon revision) (hcolon revision') hlist
  exact ⟨Nat.repr_inj.1 (String.toList_inj.1 hnum), String.toList_inj.1 htok⟩

/-! ### What the ledger remembers -/

/-- An entry of a home's ledger. -/
def RequestLedgers.Remembered (ledgers : RequestLedgers) (home : String)
    (entry : RequestLedgerEntry) : Prop :=
  ∃ (ledger : HomeRequestLedger) (requestId : String),
    ledgers.homes[home]? = some ledger ∧ ledger.entries[requestId]? = some entry

theorem lookup_pruneTable {β : Type} {bound : Nat} {key : String} {value : β} :
    ∀ {order : List String} {table : Table β},
      (pruneTable bound table order).1[key]? = some value → table[key]? = some value := by
  intro order
  induction order with
  | nil => intro table h; exact h
  | cons oldest order ih =>
    intro table h
    unfold pruneTable at h
    split at h
    · have herased := ih h
      rw [Table.lookup_erase] at herased
      split at herased
      · cases herased
      · exact herased
    · exact h

/-- After a request is remembered, a ledger holds that request and what it held before. -/
theorem remembered_rememberRequest {ledgers : RequestLedgers} {home requestId : String}
    {new entry : RequestLedgerEntry} {home' : String}
    (h : (ledgers.remember home requestId new).Remembered home' entry) :
    entry = new ∧ home' = home ∨ ledgers.Remembered home' entry := by
  obtain ⟨ledger, id, hldg, hent⟩ := h
  have hlook := lookup_pruneTable hldg
  rw [Table.lookup_insert] at hlook
  split at hlook
  · rename_i heq
    obtain rfl := Option.some.inj hlook
    have hold := lookup_pruneTable hent
    rw [Table.lookup_insert] at hold
    split at hold
    · exact .inl ⟨(Option.some.inj hold).symm, heq.symm⟩
    · refine .inr ?_
      subst heq
      cases hhome : ledgers.homes[home]? with
      | none =>
        have hnone : (ledgers.touchHome home).homes[home]? = none := hhome
        rw [hnone] at hold
        exact absurd hold (by simp)
      | some old =>
        have hsome : (ledgers.touchHome home).homes[home]? = some old := hhome
        rw [hsome] at hold
        exact ⟨old, id, hhome, hold⟩
  · exact .inr ⟨ledger, id, hlook, hent⟩

end Wardian.Workbench
