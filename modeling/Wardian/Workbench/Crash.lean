/-
A workbench survives a write that stops anywhere.

While the primary is replaced the backup has the old primary, and until then the primary has it; where
there was no valid primary the backup or the default was durable, and the write leaves them alone.  So
the next load finds the old document, or the new one when the reader gives it back, and the durable state
it finds can be saved over.

Main results:

* `Workbench.resolve_written` — what the slots of every stage of a write resolve to;
* `Workbench.save_succeeds` — a save of the next revision over the durable state;
* `Workbench.recovers` — the load and the save after a write that stopped anywhere.
-/

import Wardian.Workbench.AtomicFile
import Wardian.Workbench.CompareAndSwap

set_option autoImplicit false

namespace Wardian.Workbench

variable (serde : SerdeJson) (tokenFor : Bytes → String)

/-- A load removes the temporary files of both slots and reads them. -/
def resolveStateOnDisk : DirM ResolvedState := do
  Prog.modify (cleanupAtomicTemps workbenchName)
  Prog.modify (cleanupAtomicTemps workbenchBackupName)
  let dir ← Prog.get
  Prog.ofExcept ((slotsOf dir).resolve serde tokenFor)

/-- The directory once the temporary files are removed. -/
def Directory.cleaned (dir : Directory) : Directory :=
  cleanupAtomicTemps workbenchBackupName (cleanupAtomicTemps workbenchName dir)

variable {serde tokenFor} {slots slots' : Slots} {document durable : WorkbenchDocumentV1}
  {source : WorkbenchLoadSource} {token : String} {notice : Option String} {current : Option Bytes}

theorem resolveStateOnDisk_eq (dir : Directory) :
    resolveStateOnDisk serde tokenFor dir = ((slotsOf dir).resolve serde tokenFor, dir.cleaned) := by
  change ((slotsOf dir.cleaned).resolve serde tokenFor, dir.cleaned) = _
  rw [show slotsOf dir.cleaned = slotsOf dir from slotsOf_cleanup dir]

/-- The written bytes are classified as the document that the reader gives back, or as invalid. -/
theorem classifyBytes_written (tokenFor : Bytes → String) (hval : document.validate serde = [])
    (hrds : serde.KeepsIntegers document) :
    classifyBytes serde tokenFor (serde.toVec document) = .invalid ∨
      ∃ read, serde.reads document = some read ∧
        classifyBytes serde tokenFor (serde.toVec document) =
          .valid read (serde.toVec document) (tokenFor (serde.toVec document)) := by
  unfold classifyBytes
  split
  · exact .inl rfl
  · cases hpar : serde.parse (serde.toVec document) with
    | none => exact .inl rfl
    | some value =>
      simp only [hrds.schema value hpar, Option.bind_some, Value.asU64,
        schemaVersion_of_valid hval, lt_irrefl, if_false,
        Nat.not_lt.2 (violations_of_valid hval).2, ne_eq, not_true]
      cases hdoc : serde.fromValue value with
      | none => exact .inl rfl
      | some read =>
        dsimp only
        split
        · exact .inl rfl
        · exact .inr ⟨read, by rw [SerdeJson.reads, hpar, Option.bind_some, hdoc], rfl⟩

/-- Slots without a valid primary resolve by their backup alone, up to the notice. -/
theorem resolve_of_invalid (h : slots.resolve serde tokenFor = .ok (.v1 source durable token notice none))
    (slots' : Slots) (hbkp : slots'.backup = slots.backup)
    (hinv : classifySlot serde tokenFor slots'.primary = .invalid) :
    ∃ source' notice', slots'.resolve serde tokenFor = .ok (.v1 source' durable token notice' none) := by
  unfold Slots.resolve at h ⊢
  rw [hinv, hbkp]
  have hresd : ∀ primary, (primary = .missing ∨ primary = .invalid) →
      resolveSlots serde tokenFor primary (classifySlot serde tokenFor slots.backup) =
        .ok (.v1 source durable token notice none) →
      ∃ source' notice', resolveSlots serde tokenFor .invalid
        (classifySlot serde tokenFor slots.backup) = .ok (.v1 source' durable token notice' none) := by
    intro primary hprim hok
    have hdflt : ∀ backup, resolveDefault serde tokenFor primary backup =
        .ok (.v1 source durable token notice none) →
        ∃ source' notice', resolveDefault serde tokenFor .invalid backup =
          .ok (.v1 source' durable token notice' none) := by
      intro backup hok
      unfold resolveDefault at hok ⊢
      split at hok
      · cases hok
        exact ⟨_, _, rfl⟩
      · cases hok
    rcases hprim with rfl | rfl <;>
      cases hslot : classifySlot serde tokenFor slots.backup with
      | missing | invalid =>
        rw [hslot] at hok
        exact hdflt _ hok
      | futureSchema =>
        rw [hslot] at hok
        cases hok
      | valid document bytes token' =>
        rw [hslot] at hok
        cases hok
        exact ⟨_, _, rfl⟩
  cases hprim : classifySlot serde tokenFor slots.primary with
  | missing =>
    rw [hprim] at h
    exact hresd _ (.inl rfl) h
  | invalid =>
    rw [hprim] at h
    exact hresd _ (.inr rfl) h
  | futureSchema =>
    rw [hprim] at h
    cases h
  | valid document bytes token' =>
    rw [hprim] at h
    unfold resolveSlots at h
    dsimp only at h
    split at h
    · cases h
    · cases h

/-- The durable document, or the new one as the reader gives it back. -/
inductive OldOrNew (serde : SerdeJson) (tokenFor : Bytes → String) (durable : WorkbenchDocumentV1)
    (token : String) (document : WorkbenchDocumentV1) : WorkbenchDocumentV1 → String → Prop
  | old : OldOrNew serde tokenFor durable token document durable token
  | new (read : WorkbenchDocumentV1) (hread : serde.reads document = some read)
      (hrev : read.revision = document.revision) :
      OldOrNew serde tokenFor durable token document read (tokenFor (serde.toVec document))

/-- At every stage of the write the slots resolve to the old document or to the new one. -/
theorem resolve_written (h : slots.resolve serde tokenFor = .ok (.v1 source durable token notice current))
    (hval : document.validate serde = []) (hrds : serde.KeepsIntegers document)
    (hwrt : Written slots current (serde.toVec document) slots') :
    ∃ source' found foundToken notice' current',
      slots'.resolve serde tokenFor = .ok (.v1 source' found foundToken notice' current') ∧
        OldOrNew serde tokenFor durable token document found foundToken := by
  obtain ⟨hbkp, hcs⟩ := resolve_v1 h
  -- The backup behind the copy is readable, and the primary alone decides.
  have hcpd : classifySlot serde tokenFor (slots.copied current).backup ≠ .futureSchema := by
    rcases hcs with ⟨bytes, -, rfl, hclas⟩ | ⟨rfl, -⟩
    · change classifyBytes serde tokenFor bytes ≠ _
      rw [hclas]
      intro heq
      cases heq
    · exact hbkp
  cases hwrt with
  | same => exact ⟨_, _, _, _, _, h, .old⟩
  | copied =>
    rcases hcs with ⟨bytes, hprim, rfl, hclas⟩ | ⟨rfl, -⟩
    · exact ⟨_, _, _, _, _, resolve_primary hprim hclas hcpd, .old⟩
    · exact ⟨_, _, _, _, _, h, .old⟩
  | both =>
    rcases classifyBytes_written tokenFor hval hrds with hinv | ⟨read, hread, hnew⟩
    · rcases hcs with ⟨bytes, hprim, rfl, hclas⟩ | ⟨rfl, -⟩
      · -- The old primary is the valid backup of an unreadable primary.
        have hresv : Slots.resolve serde tokenFor
            { slots.copied (some bytes) with primary := some (serde.toVec document) } =
              resolveSlots serde tokenFor .invalid (.valid durable bytes token) :=
          congrArg₂ (resolveSlots serde tokenFor) hinv hclas
        exact ⟨_, _, _, _, _, hresv, .old⟩
      · obtain ⟨source', notice', hresv⟩ := resolve_of_invalid h
          { slots with primary := some (serde.toVec document) } rfl hinv
        exact ⟨source', durable, token, notice', none, hresv, .old⟩
    · exact ⟨_, _, _, _, _, resolve_primary rfl hnew hcpd,
        .new read hread (hrds.revision read hread)⟩

/-! ### Saving over what was found -/

theorem revision_le_of_valid (h : document.validate serde = []) : document.revision ≤ maxSafeInteger := by
  have hschm := (violations_of_valid h).1
  simp only [WorkbenchDocumentV1.violations, List.append_eq_nil_iff, and_assoc] at hschm
  have hrev := hschm.2.1
  unfold validateSafeInteger errorIf at hrev
  by_contra hlarge
  simp [Nat.lt_of_not_le hlarge] at hrev

theorem resolveState_fine {resolved : ResolvedState} (h : slots.resolve serde tokenFor = .ok resolved) :
    resolveState serde tokenFor .fine slots = (.ok resolved, slots) := by
  have hok : (Prog.ofExcept (slots.resolve serde tokenFor) : SlotM ResolvedState) slots =
      (.ok resolved, slots) := by
    rw [h]
    rfl
  change (if classifySlot serde tokenFor slots.primary = .futureSchema then
      (Prog.ofExcept (slots.resolve serde tokenFor) : SlotM ResolvedState)
    else do
      failIo none
      Prog.ofExcept (slots.resolve serde tokenFor)) slots = _
  split
  · exact hok
  · exact hok

theorem persistBytes_fine (resolved : ResolvedState) (bytes : Bytes) (slots : Slots) :
    persistBytes .fine resolved bytes slots =
      (.ok (), { slots.copied resolved.validPrimaryBytes with primary := some bytes }) := by
  unfold persistBytes copyToBackup
  cases resolved.validPrimaryBytes <;> rfl

theorem onHome_eq {α : Type} (world : World) (home : String) {m : SlotM α} {a : α}
    (h : m (world.slots home) = (.ok a, slots')) :
    onHome home m world = (.ok a, world.withSlots home slots') := by
  unfold onHome
  rw [h]

/-- The entry of the ledger for a request. -/
def World.entryFor (world : World) (home requestId : String) : Option RequestLedgerEntry :=
  (world.ledgers.homes[home]?).bind fun ledger => ledger.entries[requestId]?

theorem ledgerEntry_eq (world : World) (home requestId : String) :
    ∃ ledgers, ledgerEntry home requestId world =
      (.ok (world.entryFor home requestId), { world with ledgers := ledgers }) := by
  change ∃ ledgers, (do
    if world.ledgers.homes.contains home then
      Prog.modify fun world => { world with ledgers := world.ledgers.touchHome home }
    return world.entryFor home requestId : WorkbenchM (Option RequestLedgerEntry)) world = _
  split
  · exact ⟨_, rfl⟩
  · exact ⟨world.ledgers, rfl⟩

theorem bind_of_eq {σ ε α β : Type} {m : Prog σ ε α} {f : α → Prog σ ε β} {s s' : σ} {a : α}
    (h : m s = (.ok a, s')) : (m >>= f) s = f a s' := by
  change Prog.andThen m f s = _
  rw [Prog.andThen, h]

/-- A save of a valid document of the next revision, based on the durable state, is acknowledged and in
the primary. -/
theorem save_succeeds {world : World} {home : String} {request : WorkbenchSaveRequest}
    (h : (world.slots home).resolve serde tokenFor = .ok (.v1 source durable token notice current))
    (hval : request.document.validate serde = []) (hrev : request.expectedRevision = durable.revision)
    (htok : request.expectedToken = token) (hnext : request.document.revision = durable.revision + 1)
    (hnew : world.entryFor home request.requestId = none) :
    ∃ world', saveWorkbenchLocked serde tokenFor .fine home request world =
        (.ok ⟨.saved, some request.document.revision, some (tokenFor (serde.toVec request.document)),
          request.requestId⟩, world') ∧
      (world'.slots home).primary = some (serde.toVec request.document) := by
  have hresv := onHome_eq world home (resolveState_fine h)
  rw [withSlots_self] at hresv
  obtain ⟨ledgers, hldg⟩ := ledgerEntry_eq world home request.requestId
  rw [hnew] at hldg
  have hdiff : ¬ (source = .primary ∧ request.document.revision = durable.revision ∧
      tokenFor (serde.toVec request.document) = token) := by
    rintro ⟨-, hsame, -⟩
    omega
  have hcas : request.expectedRevision = durable.revision ∧ request.expectedToken = token ∧
      request.expectedRevision < maxSafeInteger ∧
        request.expectedRevision + 1 = request.document.revision := by
    have hbnd := revision_le_of_valid hval
    exact ⟨hrev, htok, by omega, by omega⟩
  have hpers := onHome_eq { world with ledgers := ledgers } home
    (persistBytes_fine (.v1 source durable token notice current) (serde.toVec request.document)
      (world.slots home))
  unfold saveWorkbenchLocked
  rw [bind_of_eq hresv]
  dsimp only
  rw [hval]
  dsimp only
  rw [bind_of_eq hldg]
  dsimp only
  rw [if_neg hdiff, if_pos hcas, bind_of_eq hpers]
  refine ⟨_, rfl, ?_⟩
  change (Function.update world.slots home { (world.slots home).copied current with
    primary := some (serde.toVec request.document) } home).primary = _
  rw [Function.update_self]

/-! ### After a write that stopped anywhere -/

/-- Wherever a write over the durable document stops, the next load finds the durable document under
its token, or the new one, as the reader gives it back, under its own, and a save of the next
revision over what it finds succeeds. -/
theorem recovers {dir : Directory}
    (hresv : (slotsOf dir).resolve serde tokenFor = .ok (.v1 source durable token notice current))
    (hval : document.validate serde = []) (hrds : serde.KeepsIntegers document) (faults : Faults)
    (ids : TempIds) :
    ∃ source' found foundToken notice' current' after,
      resolveStateOnDisk serde tokenFor
          (persistBytesOnDisk faults ids (.v1 source durable token notice current)
            (serde.toVec document) dir).2 =
        (.ok (.v1 source' found foundToken notice' current'), after) ∧
      OldOrNew serde tokenFor durable token document found foundToken ∧
      ∀ (world : World) (home : String) (request : WorkbenchSaveRequest),
        world.slots home = slotsOf after → world.entryFor home request.requestId = none →
          request.document.validate serde = [] → request.expectedRevision = found.revision →
            request.expectedToken = foundToken → request.document.revision = found.revision + 1 →
              ∃ world', saveWorkbenchLocked serde tokenFor .fine home request world =
                  (.ok ⟨.saved, some request.document.revision,
                    some (tokenFor (serde.toVec request.document)), request.requestId⟩, world') ∧
                (world'.slots home).primary = some (serde.toVec request.document) := by
  have hwrt : Written (slotsOf dir) current (serde.toVec document)
      (slotsOf (persistBytesOnDisk faults ids (.v1 source durable token notice current)
        (serde.toVec document) dir).2) := by
    have hwp : Prog.Wp (persistBytesOnDisk faults ids (.v1 source durable token notice current)
        (serde.toVec document))
        (fun _ dir' => Written (slotsOf dir) current (serde.toVec document) (slotsOf dir'))
        (fun _ dir' => Written (slotsOf dir) current (serde.toVec document) (slotsOf dir')) dir := by
      refine wp_persistBytesOnDisk (fun dir' hslt => ?_) fun _ _ hstg => hstg
      rw [hslt]
      exact .both
    exact hwp.final
  generalize (persistBytesOnDisk faults ids (.v1 source durable token notice current)
    (serde.toVec document) dir).2 = dir' at hwrt ⊢
  obtain ⟨source', found, foundToken, notice', current', hfnd, hone⟩ :=
    resolve_written hresv hval hrds hwrt
  refine ⟨source', found, foundToken, notice', current', dir'.cleaned, ?_, hone, ?_⟩
  · rw [resolveStateOnDisk_eq, hfnd]
  · intro world home request hslt hnew hval' hrev htok hnext
    have hclea : slotsOf dir'.cleaned = slotsOf dir' := slotsOf_cleanup dir'
    rw [← hclea, ← hslt] at hfnd
    exact save_succeeds hfnd hval' hrev htok hnext hnew

/-- The write stops behind the replacement of the primary. -/
def sampleFaults : Faults :=
  { Faults.none with check := fun point =>
      if point = .afterReplace .primary then some "injected fault" else none }

def sampleIds : TempIds :=
  { primary := "0123456789abcdef0123456789abcdef", backup := "fedcba9876543210fedcba9876543210" }

/-- A home that has the first of the sample documents. -/
def sampleDirectory : Directory := fun name =>
  if name = workbenchName then some Sample.first.text else none

/-- What the sample home resolves to. -/
def sampleResolved : ResolvedState :=
  .v1 .primary Sample.first.layout Sample.first.token none (some Sample.first.text)

theorem resolve_sampleDirectory :
    (slotsOf sampleDirectory).resolve sampleSerde sampleToken = .ok sampleResolved := by
  have hclas : classifyBytes sampleSerde sampleToken Sample.first.text =
      .valid Sample.first.layout Sample.first.text Sample.first.token := by decide +kernel
  have hbkp : classifySlot sampleSerde sampleToken (slotsOf sampleDirectory).backup ≠
      .futureSchema := by decide
  exact resolve_primary rfl hclas hbkp

theorem valid_precise : Sample.precise.layout.validate sampleSerde = [] := by decide +kernel

/-- The home after a write of the precise document that stopped behind the replacement. -/
def sampleStopped : Directory :=
  (persistBytesOnDisk sampleFaults sampleIds sampleResolved
    (sampleSerde.toVec Sample.precise.layout) sampleDirectory).2

theorem recovers_sample :
    ∃ source found foundToken notice current after,
      resolveStateOnDisk sampleSerde sampleToken sampleStopped =
        (.ok (.v1 source found foundToken notice current), after) ∧
      OldOrNew sampleSerde sampleToken Sample.first.layout Sample.first.token
        Sample.precise.layout found foundToken := by
  obtain ⟨source, found, foundToken, notice, current, after, hload, hone, -⟩ :=
    recovers resolve_sampleDirectory valid_precise
      (sampleSerde_readsBack valid_precise).toKeepsIntegers sampleFaults sampleIds
  exact ⟨source, found, foundToken, notice, current, after, hload, hone⟩

/-- What is found there is neither the old document nor exactly the new one, whose width is read as its
neighbour. -/
theorem found_neighbour :
    (slotsOf sampleDirectory).resolve sampleSerde sampleToken = .ok sampleResolved ∧
    Sample.precise.layout.validate sampleSerde = [] ∧
    ∃ found notice current after,
      resolveStateOnDisk sampleSerde sampleToken sampleStopped =
        (.ok (.v1 .primary found Sample.precise.token notice current), after) ∧
      found ≠ Sample.first.layout ∧ found ≠ Sample.precise.layout := by
  have hprim : (slotsOf sampleStopped).primary = some Sample.precise.text := by decide +kernel
  have hclas : classifyBytes sampleSerde sampleToken Sample.precise.text =
      .valid Sample.rounded.layout Sample.precise.text Sample.precise.token := by decide +kernel
  have hbkp : classifySlot sampleSerde sampleToken (slotsOf sampleStopped).backup ≠
      .futureSchema := by decide +kernel
  refine ⟨resolve_sampleDirectory, valid_precise, Sample.rounded.layout, none,
    some Sample.precise.text, sampleStopped.cleaned, ?_, by decide, by decide +kernel⟩
  rw [resolveStateOnDisk_eq, resolve_primary hprim hclas hbkp]

end Wardian.Workbench
