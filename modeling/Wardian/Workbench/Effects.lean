/-
What one workbench request does.

A request either leaves the slots of its home alone, or it was admitted: it expected exactly the
durable revision and token, and went on to write a valid document of the next revision over the
valid primary.  The write may stop half way, with the old primary in the backup or with both slots
written.  An answer `saved` without a write says that the document is the primary already; this is
where the shortcuts for repeated requests are shown sound, and what the ledger must record for it.

Main results:

* `Workbench.does_save`, `Workbench.does_reset`, `Workbench.effect_serve` — every request has one of
  these effects.
-/

import Wardian.Workbench.Requests

set_option autoImplicit false

namespace Wardian.Workbench

open Prog (Wp wp_bind wp_get wp_ite)

/-! ### The writer and the reader -/

namespace SerdeJson

/-- The document as the reader gives it back.  A floating-point number may come back as a
neighbour. -/
def reads (serde : SerdeJson) (document : WorkbenchDocumentV1) : Option WorkbenchDocumentV1 :=
  (serde.parse (serde.toVec document)).bind serde.fromValue

/-- The integers of the document are read back as they are, if it is read at all. -/
structure KeepsIntegers (serde : SerdeJson) (document : WorkbenchDocumentV1) : Prop where
  schema : ∀ value, serde.parse (serde.toVec document) = some value →
    value.get? "schema_version" = some (.number (.posInt document.schemaVersion))
  revision : ∀ read, serde.reads document = some read → read.revision = document.revision

/-- The document is read back as a valid one of its revision.  It is unless it nests deeper than the
reader goes or holds a number at the end of its range. -/
structure ReadsBack (serde : SerdeJson) (document : WorkbenchDocumentV1) : Prop extends
    serde.KeepsIntegers document where
  strict : strictJsonPreflight serde (serde.toVec document) = true
  valid : ∃ read, serde.reads document = some read ∧ read.validate serde = []

end SerdeJson

/-! ### Requests and runs -/

inductive Request
  | save (request : WorkbenchSaveRequest)
  | reset (request : WorkbenchResetRequest)
deriving DecidableEq

namespace Request

def expectedRevision : Request → Nat
  | save request => request.expectedRevision
  | reset request => request.expectedRevision

def expectedToken : Request → String
  | save request => request.expectedToken
  | reset request => request.expectedToken

/-- The revision that the request proposes. -/
def targetRevision : Request → Nat
  | save request => request.document.revision
  | reset request => request.expectedRevision + 1

end Request

namespace StoredResult

def outcome : StoredResult → WorkbenchPersistenceOutcome
  | save result => result.outcome
  | reset result => result.outcome

def durableRevision : StoredResult → Option Nat
  | save result => result.durableRevision
  | reset result => result.durableRevision

def durableToken : StoredResult → Option String
  | save result => result.durableToken
  | reset result => result.durableToken

end StoredResult

variable (serde : SerdeJson) (tokenFor : Bytes → String)

/-- The document that a request proposes at a time. -/
def Request.proposed (now : String) : Request → WorkbenchDocumentV1
  | .save request => request.document
  | .reset request => resetDocument (request.expectedRevision + 1) now

/-- The proposed document is read back, if it is valid. -/
def Request.Readable (request : Request) : Prop :=
  ∀ now, (request.proposed now).validate serde = [] → serde.ReadsBack (request.proposed now)

/-- Serve one request. -/
def serve (io : Access) (now home : String) : Request → WorkbenchM StoredResult
  | .save request => do
      let result ← saveWorkbenchLocked serde tokenFor io home request
      return .save result
  | .reset request => do
      let result ← resetWorkbenchLocked serde tokenFor io now home request
      return .reset result

/-- One request of a run. -/
structure Event where
  home : String
  request : Request
  io : Access
  now : String
  before : World
  answer : Except WorkbenchIoError StoredResult
  after : World

/-- A run of requests, by any clients on any homes; between two of them the process may restart,
which loses the ledgers. -/
inductive Run : World → List Event → World → Prop
  | nil (world : World) : Run world [] world
  | serve {world world' world'' : World} {events : List Event} (home : String) (request : Request)
      (io : Access) (now : String) (answer : Except WorkbenchIoError StoredResult)
      (hserve : serve serde tokenFor io now home request world = (answer, world'))
      (hrun : Run world' events world'') :
      Run world (⟨home, request, io, now, world, answer, world'⟩ :: events) world''
  | restart {world world' : World} {events : List Event}
      (hrun : Run { world with ledgers := .empty } events world') : Run world events world'

/-- The durable revision and token of a home; a home of a newer schema has none. -/
def Slots.durable (slots : Slots) : Option (Nat × String) :=
  match slots.resolve serde tokenFor with
  | .ok (.v1 _ document token _ _) => some (document.revision, token)
  | _ => none

/-- The answer `saved` to a request says what became durable: the document of a save, and the
default document for a reset. -/
def Request.Settled : Request → StoredResult → Prop
  | .save request, .save result =>
    result.outcome = .saved ∧ result.durableRevision = some request.document.revision ∧
      result.durableToken = some (tokenFor (serde.toVec request.document))
  | .reset request, .reset result =>
    result.outcome = .saved ∧ result.durableRevision = some (request.expectedRevision + 1) ∧
      ∃ document, result.document = some document ∧
        isResetTarget document (request.expectedRevision + 1) = true
  | _, _ => False

/-- The primary holds the state that the answer names. -/
def Slots.Shows (slots : Slots) (result : StoredResult) : Prop :=
  ∃ document token notice bytes,
    slots.resolve serde tokenFor = .ok (.v1 .primary document token notice bytes) ∧
      result.durableRevision = some document.revision ∧ result.durableToken = some token

/-- The request passed the comparison and goes on to write `document` over the valid primary
`current`, if there is one. -/
structure Admitted (request : Request) (slots : Slots) (current : Option Bytes)
    (document : WorkbenchDocumentV1) : Prop where
  durable : ∃ source durable notice,
    slots.resolve serde tokenFor = .ok (.v1 source durable request.expectedToken notice current) ∧
      durable.revision = request.expectedRevision
  next : document.revision = request.expectedRevision + 1
  target : document.revision = request.targetRevision
  valid : document.validate serde = []
  readable : request.Readable serde → serde.ReadsBack document

/-- The slots with a new primary, and the old valid one in the backup. -/
def Slots.written (slots : Slots) (current : Option Bytes) (incomingBytes : Bytes) : Slots :=
  { slots.copied current with primary := some incomingBytes }

/-- What one request does to the slots of its home, with its answer. -/
inductive Effect (request : Request) (slots : Slots) :
    Except WorkbenchIoError StoredResult → Slots → Prop
  | failed (e : WorkbenchIoError) (he : ∀ text, e ≠ .persistIo text) :
      Effect request slots (.error e) slots
  | declined (result : StoredResult) (hres : result.outcome ≠ .saved) :
      Effect request slots (.ok result) slots
  | settled (result : StoredResult) (hsetl : request.Settled serde tokenFor result)
      (hshw : slots.Shows serde tokenFor result) : Effect request slots (.ok result) slots
  | interrupted (text : String) {current : Option Bytes} {document : WorkbenchDocumentV1}
      {slots' : Slots} (hadm : Admitted serde tokenFor request slots current document)
      (hslt : slots' = slots ∨ slots' = slots.copied current ∨
        slots' = slots.written current (serde.toVec document)) :
      Effect request slots (.error (.persistIo text)) slots'
  | wrote (result : StoredResult) {current : Option Bytes} {document : WorkbenchDocumentV1}
      (hadm : Admitted serde tokenFor request slots current document)
      (hsetl : request.Settled serde tokenFor result)
      (htoken : result.durableToken = some (tokenFor (serde.toVec document))) :
      Effect request slots (.ok result) (slots.written current (serde.toVec document))

/-! ### What the ledger records -/

/-- An entry was made for an answer `saved`. -/
def RequestLedgerEntry.Honest (entry : RequestLedgerEntry) : Prop :=
  match entry.result with
  | .save result => ∃ revision token, entry.fingerprint = fingerprintOf revision token ∧
      result.outcome = .saved ∧ result.durableRevision = some revision ∧
      result.durableToken = some token
  | .reset result => ∃ revision token document,
      entry.fingerprint = fingerprintOf revision token ∧ result.outcome = .saved ∧
      result.durableRevision = some (revision + 1) ∧ result.document = some document ∧
      isResetTarget document (revision + 1) = true

/-- Every entry of every ledger was made for an answer `saved`. -/
def RequestLedgers.Honest (ledgers : RequestLedgers) : Prop :=
  ∀ home entry, ledgers.Remembered home entry → entry.Honest

theorem honest_empty : RequestLedgers.empty.Honest := by
  intro home entry h
  obtain ⟨ledger, requestId, hldg, -⟩ := h
  rw [RequestLedgers.empty, Table.lookup_empty] at hldg
  cases hldg

variable {ledgers : RequestLedgers} {home requestId : String} {entry : RequestLedgerEntry}

theorem honest_remember (hldgs : ledgers.Honest) (hent : entry.Honest) :
    (ledgers.remember home requestId entry).Honest := by
  intro home' entry' h
  rcases remembered_rememberRequest h with ⟨rfl, -⟩ | hold
  · exact hent
  · exact hldgs _ _ hold

/-- What a request does to the world: its effect on its home, nothing elsewhere, and no false entry
in a ledger. -/
structure Does (home : String) (request : Request) (world : World)
    (answer : Except WorkbenchIoError StoredResult) (world' : World) : Prop where
  effect : Effect serde tokenFor request (world.slots home) answer (world'.slots home)
  elsewhere : ∀ other, other ≠ home → world'.slots other = world.slots other
  honest : world'.ledgers.Honest

variable {serde tokenFor} {request : Request} {slots slots' : Slots}

variable {resolved : ResolvedState} {save : WorkbenchSaveRequest}

theorem primary_of_matches {revision : Option Nat} {token : Option String}
    (hresd : slots.resolve serde tokenFor = .ok resolved)
    (h : savedResultMatchesCurrentPrimary resolved revision token = true) :
    ∃ document current notice bytes,
      slots.resolve serde tokenFor = .ok (.v1 .primary document current notice bytes) ∧
        revision = some document.revision ∧ token = some current := by
  unfold savedResultMatchesCurrentPrimary at h
  split at h
  · rename_i document current notice bytes
    exact ⟨document, current, notice, bytes, hresd, of_decide_eq_true h⟩
  · cases h

theorem settled_recordedSave {result : WorkbenchSaveResult} (hent : entry.Honest)
    (hresd : slots.resolve serde tokenFor = .ok resolved)
    (h : recordedSave resolved
      (fingerprintOf save.document.revision (tokenFor (serde.toVec save.document))) entry =
        some result) : Effect serde tokenFor (.save save) slots (.ok (.save result)) slots := by
  unfold recordedSave at h
  unfold RequestLedgerEntry.Honest at hent
  split at h
  · rename_i stored hstrd
    rw [hstrd] at hent
    split at h
    · rename_i hmat
      obtain rfl := Option.some.inj h
      obtain ⟨-, hprint, hprim⟩ := hmat
      obtain ⟨revision, token, hentryPrint, hsvd, hrevis, htoken⟩ := hent
      rw [hentryPrint] at hprint
      obtain ⟨rfl, rfl⟩ := fingerprintOf_inj hprint
      exact .settled _ ⟨hsvd, hrevis, htoken⟩ (primary_of_matches hresd hprim)
    · cases h
  · cases h

variable {reset : WorkbenchResetRequest}

theorem settled_recordedReset {result : WorkbenchResetResult} (hent : entry.Honest)
    (hresd : slots.resolve serde tokenFor = .ok resolved)
    (h : recordedReset resolved (fingerprintOf reset.expectedRevision reset.expectedToken) entry =
      some result) : Effect serde tokenFor (.reset reset) slots (.ok (.reset result)) slots := by
  unfold recordedReset at h
  unfold RequestLedgerEntry.Honest at hent
  split at h
  · rename_i stored hstrd
    rw [hstrd] at hent
    split at h
    · rename_i hmat
      obtain rfl := Option.some.inj h
      obtain ⟨-, hprint, hprim⟩ := hmat
      obtain ⟨revision, token, target, hentryPrint, hsvd, hrevis, hdoc, htgt⟩ := hent
      rw [hentryPrint] at hprint
      obtain ⟨rfl, rfl⟩ := fingerprintOf_inj hprint
      exact .settled _ ⟨hsvd, hrevis, target, hdoc, htgt⟩ (primary_of_matches hresd hprim)
    · cases h
  · cases h

/-! ### What a request does -/

variable {R : WorkbenchIoError → World → Prop} {world : World}

theorem wp_onHome {α : Type} {m : SlotM α} {Q : α → World → Prop} :
    Wp (onHome home m) Q R world ↔
      Wp m (fun a slots => Q a (world.withSlots home slots))
        (fun e slots => R e (world.withSlots home slots)) (world.slots home) := by
  change Prog.post Q R (onHome home m world) ↔ Prog.post _ _ (m (world.slots home))
  unfold onHome
  rcases m (world.slots home) with ⟨e | a, slots⟩ <;> rfl

theorem withSlots_self (world : World) (home : String) : world.withSlots home (world.slots home) = world := by
  simp [World.withSlots]

theorem wp_ledgerEntry {Q : Option RequestLedgerEntry → World → Prop}
    (h : ∀ (entry : Option RequestLedgerEntry) (ledgers : RequestLedgers),
      (∀ e ∈ entry, world.ledgers.Remembered home e) → ledgers.homes = world.ledgers.homes →
      Q entry { world with ledgers }) : Wp (ledgerEntry home requestId) Q R world := by
  have hent : ∀ e ∈ (world.ledgers.homes[home]?).bind fun ledger => ledger.entries[requestId]?,
      world.ledgers.Remembered home e := by
    intro e he
    obtain ⟨ledger, hldg, hlook⟩ := Option.bind_eq_some_iff.1 he
    exact ⟨ledger, requestId, hldg, hlook⟩
  unfold ledgerEntry
  rw [wp_bind, wp_get]
  dsimp only
  refine wp_ite (fun _ => ?_) fun _ => ?_
  · exact h _ (world.ledgers.touchHome home) hent rfl
  · exact h _ world.ledgers hent rfl

theorem honest_of_homes {ledgers' : RequestLedgers} (h : ledgers'.homes = ledgers.homes)
    (hldgs : ledgers.Honest) : ledgers'.Honest := by
  intro home entry hent
  obtain ⟨ledger, requestId, hldg, hlook⟩ := hent
  exact hldgs home entry ⟨ledger, requestId, h ▸ hldg, hlook⟩

variable {answer : Except WorkbenchIoError StoredResult}

/-- A request that leaves the slots alone does what its effect says. -/
theorem Does.stay (heff : Effect serde tokenFor request (world.slots home) answer (world.slots home))
    (hhonest : ledgers.Honest) : Does serde tokenFor home request world answer { world with ledgers } :=
  ⟨heff, fun _ _ => rfl, hhonest⟩

variable {io : Access}

theorem wp_onHome_resolveState {Q : ResolvedState → World → Prop}
    (hok : ∀ resolved, (world.slots home).resolve serde tokenFor = .ok resolved → Q resolved world)
    (herr : ∀ e, (∀ text, e ≠ .persistIo text) → R e world) :
    Wp (onHome home (resolveState serde tokenFor io)) Q R world := by
  refine wp_onHome.2 (wp_resolveState ?_ ?_)
  · intro resolved hresd
    rw [withSlots_self]
    exact hok resolved hresd
  · intro e he
    rw [withSlots_self]
    exact herr e he

/-- Writing an admitted document, with the ledger entry that follows it. -/
theorem wp_persist {document : WorkbenchDocumentV1} {α : Type} {answer : α} (toResult : α → StoredResult)
    (hadm : Admitted serde tokenFor request (world.slots home) resolved.validPrimaryBytes document)
    (hsetl : request.Settled serde tokenFor (toResult answer))
    (htoken : (toResult answer).durableToken = some (tokenFor (serde.toVec document)))
    (hldgs : ledgers.Honest) (hent : entry.Honest) :
    Wp (do
        onHome home (persistBytes io resolved (serde.toVec document))
        rememberRequest home requestId entry
        return answer)
      (fun a world' => Does serde tokenFor home request world (.ok (toResult a)) world')
      (fun e world' => Does serde tokenFor home request world (.error e) world')
      { world with ledgers } := by
  have hinte : ∀ (slots' : Slots) (text : String),
      slots' = world.slots home ∨ slots' = (world.slots home).copied resolved.validPrimaryBytes ∨
        slots' = (world.slots home).written resolved.validPrimaryBytes (serde.toVec document) →
      Does serde tokenFor home request world (.error (.persistIo text))
        (({ world with ledgers } : World).withSlots home slots') := by
    intro slots' text hslt
    refine ⟨?_, fun other hoth => ?_, hldgs⟩
    · have hself : (({ world with ledgers } : World).withSlots home slots').slots home = slots' :=
        Function.update_self ..
      rw [hself]
      exact .interrupted text hadm hslt
    · exact Function.update_of_ne hoth ..
  rw [wp_bind]
  refine wp_onHome.2 (wp_persistBytes ?_ ?_ ?_ ?_)
  · refine ⟨?_, fun other hoth => ?_, honest_remember hldgs hent⟩
    · have hself : ((({ world with ledgers } : World).withSlots home
          ((world.slots home).written resolved.validPrimaryBytes
            (serde.toVec document))).slots home) =
          (world.slots home).written resolved.validPrimaryBytes (serde.toVec document) :=
        Function.update_self ..
      exact hself ▸ .wrote _ hadm hsetl htoken
    · exact Function.update_of_ne hoth ..
  · exact fun text => hinte _ text (.inl rfl)
  · exact fun text => hinte _ text (.inr (.inl rfl))
  · exact fun text => hinte _ text (.inr (.inr rfl))

theorem conflict_ne_saved :
    (StoredResult.save (saveResultForResolved resolved .revisionConflict requestId)).outcome ≠
      .saved := by
  cases resolved <;> exact nofun

theorem resetConflict_ne_saved :
    (StoredResult.reset (resetResultForResolved resolved .revisionConflict requestId none)).outcome
      ≠ .saved := by
  cases resolved <;> exact nofun

theorem does_save (hldgs : world.ledgers.Honest) :
    Wp (saveWorkbenchLocked serde tokenFor io home save)
      (fun result world' => Does serde tokenFor home (.save save) world (.ok (.save result)) world')
      (fun e world' => Does serde tokenFor home (.save save) world (.error e) world') world := by
  unfold saveWorkbenchLocked
  rw [wp_bind]
  refine wp_onHome_resolveState (fun resolved hresd => ?_) fun e he =>
    .stay (.failed e he) hldgs
  cases resolved with
  | futureSchema notice => exact .stay (.declined _ nofun) hldgs
  | v1 source durable token notice current =>
  dsimp only
  cases hval : save.document.validate serde with
  | cons error errors => exact .stay (.failed _ fun _ => nofun) hldgs
  | nil =>
  dsimp only
  rw [wp_bind]
  refine wp_ledgerEntry fun entry ledgers hent hhomes => ?_
  have hldgs' : ledgers.Honest := honest_of_homes hhomes hldgs
  cases entry with
  | some entry =>
    dsimp only
    cases hrecd : recordedSave (.v1 source durable token notice current)
        (fingerprintOf save.document.revision (tokenFor (serde.toVec save.document))) entry with
    | some result =>
      exact .stay (settled_recordedSave (hldgs _ _ (hent _ rfl)) hresd hrecd)
        hldgs'
    | none => exact .stay (.declined _ conflict_ne_saved) hldgs'
  | none =>
  dsimp only
  refine wp_ite (fun hiden => ?_) fun _ => wp_ite (fun hcas => ?_) fun _ => ?_
  · obtain ⟨rfl, hrev, htoken⟩ := hiden
    refine .stay (.settled _ ⟨rfl, ?_, ?_⟩ ⟨durable, token, notice, current, hresd, rfl, rfl⟩)
      (honest_remember hldgs' ⟨_, _, rfl, rfl, ?_, ?_⟩)
    · rw [hrev]
    · rw [htoken]
    · rw [hrev]
    · rw [htoken]
  · obtain ⟨hrev, htoken, -, hnext⟩ := hcas
    have hadm : Admitted serde tokenFor (.save save) (world.slots home) current
        save.document :=
      { durable := ⟨source, durable, notice, by rw [hresd, ← htoken]; rfl, hrev.symm⟩
        next := hnext.symm
        target := rfl
        valid := hval
        readable := fun h => h "" hval }
    exact wp_persist .save hadm ⟨rfl, rfl, rfl⟩ rfl hldgs'
      ⟨_, _, rfl, rfl, rfl, rfl⟩
  · exact .stay (.declined _ conflict_ne_saved) hldgs'

theorem wp_onHome_resetRetryTokenMatches {expectedRevision : Nat} {expectedToken : String}
    {Q : Bool → World → Prop} (hok : ∀ retried, Q retried world) (herr : ∀ text, R (.io text) world) :
    Wp (onHome home (resetRetryTokenMatches serde tokenFor io expectedRevision expectedToken))
      Q R world := by
  rw [wp_onHome]
  unfold resetRetryTokenMatches
  rw [wp_bind]
  refine wp_failIo ?_ fun text => by rw [withSlots_self]; exact herr text
  have hreturn : ∀ retried, Q retried (world.withSlots home (world.slots home)) := by
    intro retried
    rw [withSlots_self]
    exact hok retried
  rw [wp_bind, wp_get]
  dsimp only
  split
  · exact wp_ite (fun _ => hreturn _) fun _ => hreturn _
  · exact hreturn _

theorem does_proposeReset (io : Access) (now : String) (reset : WorkbenchResetRequest)
    {source : WorkbenchLoadSource} {durable : WorkbenchDocumentV1} {token : String} {notice : Option String}
    {current : Option Bytes} (hldgs : ledgers.Honest)
    (hresd : (world.slots home).resolve serde tokenFor = .ok (.v1 source durable token notice current)) :
    Wp (proposeReset serde tokenFor io now home reset (.v1 source durable token notice current)
        durable.revision token)
      (fun result world' =>
        Does serde tokenFor home (.reset reset) world (.ok (.reset result)) world')
      (fun e world' => Does serde tokenFor home (.reset reset) world (.error e) world')
      { world with ledgers } := by
  unfold proposeReset
  refine wp_ite (fun hcas => ?_) fun _ => .stay (.declined _ resetConflict_ne_saved) hldgs
  obtain ⟨hrev, htoken, -⟩ := hcas
  dsimp only
  cases hval : (resetDocument (reset.expectedRevision + 1) now).validate serde with
  | cons error errors => exact .stay (.failed _ fun _ => nofun) hldgs
  | nil =>
  have htgt : isResetTarget (resetDocument (reset.expectedRevision + 1) now)
      (reset.expectedRevision + 1) = true := decide_eq_true rfl
  have hadm : Admitted serde tokenFor (.reset reset) (world.slots home) current
      (resetDocument (reset.expectedRevision + 1) now) :=
    { durable := ⟨source, durable, notice, by rw [hresd, ← htoken]; rfl, hrev.symm⟩
      next := rfl
      target := rfl
      valid := hval
      readable := fun h => h now hval }
  exact wp_persist .reset hadm ⟨rfl, rfl, _, rfl, htgt⟩ rfl hldgs
    ⟨_, _, _, rfl, rfl, rfl, rfl, htgt⟩

theorem does_reset {now : String} (hldgs : world.ledgers.Honest) :
    Wp (resetWorkbenchLocked serde tokenFor io now home reset)
      (fun result world' =>
        Does serde tokenFor home (.reset reset) world (.ok (.reset result)) world')
      (fun e world' => Does serde tokenFor home (.reset reset) world (.error e) world') world := by
  unfold resetWorkbenchLocked
  rw [wp_bind]
  refine wp_onHome_resolveState (fun resolved hresd => ?_) fun e he =>
    .stay (.failed e he) hldgs
  cases resolved with
  | futureSchema notice => exact .stay (.declined _ nofun) hldgs
  | v1 source durable token notice current =>
  dsimp only
  rw [wp_bind]
  refine wp_ledgerEntry fun entry ledgers hent hhomes => ?_
  have hldgs' : ledgers.Honest := honest_of_homes hhomes hldgs
  cases entry with
  | some entry =>
    dsimp only
    cases hrecd : recordedReset (.v1 source durable token notice current)
        (fingerprintOf reset.expectedRevision reset.expectedToken) entry with
    | some result =>
      exact .stay (settled_recordedReset (hldgs _ _ (hent _ rfl)) hresd hrecd)
        hldgs'
    | none => exact .stay (.declined _ resetConflict_ne_saved) hldgs'
  | none =>
  dsimp only
  have hprop := does_proposeReset io now reset hldgs' hresd
  refine wp_ite (fun hretry => ?_) fun _ => hprop
  obtain ⟨rfl, -, hrev, htgt⟩ := hretry
  rw [wp_bind]
  refine wp_onHome_resetRetryTokenMatches (fun retried => ?_) fun text =>
    .stay (.failed _ fun _ => nofun) hldgs'
  refine wp_ite (fun _ => ?_) fun _ => hprop
  have hresetTarget : isResetTarget durable (reset.expectedRevision + 1) = true := by
    rw [← hrev]
    exact htgt
  let result : WorkbenchResetResult :=
    ⟨.saved, some durable.revision, some token, reset.requestId, some durable⟩
  have hnext : result.durableRevision = some (reset.expectedRevision + 1) := by
    rw [← hrev]
  have hsetl : Request.Settled serde tokenFor (.reset reset) (.reset result) :=
    ⟨rfl, hnext, durable, rfl, hresetTarget⟩
  have hent : RequestLedgerEntry.Honest
      ⟨.reset, fingerprintOf reset.expectedRevision reset.expectedToken, .reset result⟩ :=
    ⟨reset.expectedRevision, reset.expectedToken, durable, rfl, rfl, hnext, rfl, hresetTarget⟩
  exact Does.stay (.settled _ hsetl ⟨durable, token, notice, current, hresd, rfl, rfl⟩)
    (honest_remember hldgs' hent)

/-- Every request has one of the effects, and leaves the other homes and the honesty of the ledgers
alone. -/
theorem effect_serve {now : String} {world' : World} (hldgs : world.ledgers.Honest)
    (h : serve serde tokenFor io now home request world = (answer, world')) :
    Does serde tokenFor home request world answer world' := by
  have hwp : Wp (serve serde tokenFor io now home request)
      (fun result world' => Does serde tokenFor home request world (.ok result) world')
      (fun e world' => Does serde tokenFor home request world (.error e) world') world := by
    unfold serve
    cases request with
    | save request => exact (wp_bind _ _ _ _ _).2 (does_save hldgs)
    | reset request => exact (wp_bind _ _ _ _ _).2 (does_reset hldgs)
  cases answer with
  | ok result => exact hwp.of_ok h
  | error e => exact hwp.of_error h

end Wardian.Workbench
