/-
What the operations do.

An operation that succeeds makes changes to the memories of one owner, or finds that it has been
carried out before; one that fails changes nothing.

Main results:

* `wp_save`, `wp_update`, `wp_remove`, `wp_commitBatch` — what each operation does.
-/

import Wardian.Memory.Effects

set_option autoImplicit false

namespace Wardian.Memory

open List
open MemoryM
open Prog (Wp wp_atomically wp_bind wp_ite wp_ofExcept_of)

/-! ### Effects -/

/-- The tables beside the revisions and their sources only grow, and no cursor moves back. -/
structure Grows (s t : Store) : Prop where
  commits : ∀ (key : String) (row : CommitRow), s.commits[key]? = some row → t.commits[key]? = some row
  cursors : ∀ (key : String) (row : CursorRow), s.cursors[key]? = some row →
    ∃ later, t.cursors[key]? = some later ∧ row.sequence ≤ later.sequence
  receipts : s.receipts <+: t.receipts
  events : s.events <+: t.events

theorem Grows.refl (s : Store) : Grows s s :=
  ⟨fun _ _ h => h, fun _ row h => ⟨row, h, Nat.le_refl _⟩, prefix_refl _, prefix_refl _⟩

theorem Grows.trans {s t u : Store} (h : Grows s t) (h' : Grows t u) : Grows s u := by
  refine ⟨?_, ?_, h.receipts.trans h'.receipts, h.events.trans h'.events⟩
  · intro key row hrow
    exact h'.commits key row (h.commits key row hrow)
  · intro key row hrow
    obtain ⟨later, hltr, hle⟩ := h.cursors key row hrow
    obtain ⟨last, hlast, hle'⟩ := h'.cursors key later hltr
    exact ⟨last, hlast, hle.trans hle'⟩

/-- What an operation on the memories of an owner may do. -/
structure Effect (owner : String) (s t : Store) : Prop where
  changes : Changes owner s t
  grows : Grows s t

namespace Effect

variable {owner : String} {s t u : Store} {holder : Option String}

theorem refl (s : Store) : Effect owner s s := ⟨.refl, .refl s⟩

theorem trans (h : Effect owner s t) (h' : Effect owner t u) : Effect owner s u :=
  ⟨h.changes.trans h'.changes, h.grows.trans h'.grows⟩

theorem first {row : MemoryRow} {sources : List MemorySource} (hwrt : Written s row sources t)
    (hown : row.agentId = owner) (hrev : row.revision = 1) (hact : row.status = .active)
    (huuid : isUuidText row.memoryId = true) : Effect owner s t := by
  obtain ⟨hfrs, stored, event, -, rfl⟩ := hwrt
  refine ⟨.single (.created hown hrev hact huuid hfrs rfl rfl), ?_⟩
  exact ⟨fun _ _ h => h, fun _ row h => ⟨row, h, Nat.le_refl _⟩, prefix_refl _,
    prefix_append _ _⟩

theorem next {current row : MemoryRow} {now : String} {sources : List MemorySource}
    (hwrt : Written (s.supersede current holder row.revisionId now) row sources t)
    (hmem : current ∈ s.records) (hcur : current.status = .active)
    (hcurOwner : current.agentId = owner) (hhldr : holder.all (· = current.agentId) = true)
    (hown : row.agentId = owner) (hmry : row.memoryId = current.memoryId)
    (hrev : row.revision = nextRevision current.revision) (hact : row.status = .active)
    (hsups : row.supersedesRevisionId = some current.revisionId) : Effect owner s t := by
  obtain ⟨hfrs, stored, event, -, rfl⟩ := hwrt
  have hfrs' : Fresh s.records row := hfrs.of_changeRow (.superseded row.revisionId now)
  refine ⟨.single (.revised hmem hcur hcurOwner hhldr hown hmry hrev hact
    hsups hfrs' rfl rfl), ?_⟩
  exact ⟨fun _ _ h => h, fun _ row h => ⟨row, h, Nat.le_refl _⟩, prefix_refl _,
    prefix_append _ _⟩

theorem retired {current : MemoryRow} {f : MemoryRow → MemoryRow} {event : MemoryEvent}
    (hmem : current ∈ s.records) (hcur : current.status = .active)
    (hcurOwner : current.agentId = owner) (hhldr : holder.all (· = current.agentId) = true)
    (hf : Settled f) (hrem : ∀ row, (f row).status = .removed) :
    Effect owner s ((s.mark current.revisionId holder f).log event) := by
  refine ⟨.single (.retired hmem hcur hcurOwner hhldr hf hrem rfl rfl), ?_⟩
  exact ⟨fun _ _ h => h, fun _ row h => ⟨row, h, Nat.le_refl _⟩, prefix_refl _,
    prefix_append _ _⟩

theorem aside (hrecs : t.records = s.records) (hsrcs : t.sources = s.sources)
    (hgrows : Grows s t) : Effect owner s t :=
  ⟨.single (.aside hrecs hsrcs), hgrows⟩

end Effect

/-! ### Saving -/

theorem find?_written {s t : Store} {row : MemoryRow} {sources : List MemorySource}
    (hwrt : Written s row sources t) : t.records.find? (·.revisionId = row.revisionId) = some row := by
  obtain ⟨hfrs, stored, event, -, rfl⟩ := hwrt
  have hnone : s.records.find? (·.revisionId = row.revisionId) = none := by
    rw [find?_eq_none]
    intro other hoth
    simpa using hfrs.id other hoth
  simp [Store.add, find?_append, hnone]

/-- What a request to save says. -/
structure SaveForm where
  agentId : String
  text : String
  evidence : String
  sources : List MemorySource

/-- The request in the form in which it is stored. -/
structure SaveForm.Of (actor : MemoryActor) (request : SaveMemoryRequest) (form : SaveForm) :
    Prop where
  agentId : actor.authorizeSubject request.agentId = .ok form.agentId
  text : normalizeText request.text = .ok form.text
  evidence : normalizeEvidence request.evidenceExcerpt = .ok form.evidence
  sources : normalizeSources request.sources = .ok form.sources

/-- A revision says what a request to save says. -/
structure SaveForm.Agrees (env : Env) (request : SaveMemoryRequest) (form : SaveForm) (s : Store)
    (row : MemoryRow) : Prop where
  agentId : row.agentId = form.agentId
  workspace : row.workspace = env.normalizeWorkspace request.workspace
  kind : row.kind = request.kind
  text : row.text = form.text
  evidence : row.evidenceExcerpt = form.evidence
  sources : s.sourcesForRevision row.revisionId = form.sources

/-- The revision that a request to save writes. -/
def SaveForm.row (env : Env) (request : SaveMemoryRequest) (form : SaveForm) (t : Session) :
    MemoryRow :=
  newRow (t.uuids 1).text (t.uuids 0).text form.agentId (env.normalizeWorkspace request.workspace)
    request.kind form.text form.evidence (env.hashText form.evidence) (t.clock 0)
    (normalizeOptional request.idempotencyKey)

section Operations

attribute [local irreducible] required normalizeText normalizeEvidence normalizeSources

variable {env : Env} {actor : MemoryActor} {t : Session} {R : MemoryError → Session → Prop}

/-- What was written under a key is found when it agrees with the request. -/
theorem wp_replayed {request : String} {agrees : Store → MemoryRow → Bool} {existing : Option MemoryRow}
    {Q : Option MemoryRow → Session → Prop} (hnone : existing = none → Q none t)
    (hsome : ∀ row, existing = some row → agrees t.store row = true → Q (some row) t) (herr : ∀ e, R e t) :
    Wp (replayed request agrees existing) Q R t := by
  unfold replayed
  cases existing with
  | none => exact hnone rfl
  | some row =>
    change Wp (store >>= _) Q R t
    rw [wp_bind, wp_store]
    exact wp_ite (fun hagrees => hsome row rfl hagrees) fun _ => herr _

variable {s : Store} {sources : List MemorySource} {Q : MemoryRecord → Session → Prop}

theorem wp_getRevision {row : MemoryRow} (hwrt : Written s row sources t.store)
    (hok : Q (t.store.attachSources row) t) : Wp (getRevision row.revisionId) Q R t := by
  unfold getRevision
  rw [wp_bind, wp_store, find?_written hwrt]
  exact hok

theorem wp_save {request : SaveMemoryRequest}
    (hrpl : ∀ form row, SaveForm.Of actor request form →
      t.store.idempotentRecord actor (normalizeOptional request.idempotencyKey) = .ok (some row) →
      form.Agrees env request t.store row → Q (t.store.attachSources row) t)
    (hnew : ∀ form t', SaveForm.Of actor request form →
      t.store.idempotentRecord actor (normalizeOptional request.idempotencyKey) = .ok none →
      Written t.store (form.row env request t) form.sources t'.store →
      Q (t'.store.attachSources (form.row env request t)) t')
    (herr : ∀ e, R e t) : Wp (save env actor request) Q R t := by
  unfold save
  rw [wp_bind]
  refine wp_ofExcept_of (fun agentId hagentId => ?_) fun e _ => herr e
  rw [wp_bind]
  refine wp_ofExcept_of (fun text htext => ?_) fun e _ => herr e
  rw [wp_bind]
  refine wp_ofExcept_of (fun evidence hevi => ?_) fun e _ => herr e
  rw [wp_bind]
  refine wp_ofExcept_of (fun sources hsrcs => ?_) fun e _ => herr e
  have hform : SaveForm.Of actor request ⟨agentId, text, evidence, sources⟩ :=
    ⟨hagentId, htext, hevi, hsrcs⟩
  rw [wp_bind]
  refine wp_atomically ?_
  rw [wp_bind, wp_store, wp_bind]
  refine wp_ofExcept_of (fun existing hexi => ?_) fun e _ => herr e
  rw [wp_bind]
  refine wp_replayed (fun hnone => ?_) (fun row hsome hagrees => ?_) herr
  · rw [hnone] at hexi
    rw [wp_bind]
    refine wp_writeNew rfl (fun t' hwrt => ?_) fun _ e _ => herr e
    exact wp_getRevision hwrt (hnew _ t' hform hexi hwrt)
  · rw [hsome] at hexi
    simp only [Bool.and_eq_true, decide_eq_true_eq] at hagrees
    obtain ⟨⟨⟨⟨⟨hagentId, hwork⟩, hkind⟩, htext⟩, hevi⟩, hsrcs⟩ := hagrees
    exact hrpl _ row hform hexi
      ⟨hagentId, hwork, hkind, htext, hevi, hsrcs⟩

/-! ### Updating -/

/-- The active revision of a memory that the actor may change. -/
structure Current (actor : MemoryActor) (s : Store) (row : MemoryRow) : Prop where
  mem : row ∈ s.records
  active : row.status = .active
  allowed : ∃ owner, actor.agentId = .ok owner ∧ owner.all (· = row.agentId) = true

theorem wp_queryActiveForActor {requested : String} {Q : MemoryRow → Session → Prop}
    (hok : ∀ memoryId row, t.store.resolveMemoryId actor requested true = .ok memoryId →
      row.memoryId = memoryId → Current actor t.store row → Q row t)
    (herr : ∀ e, R e t) : Wp (queryActiveForActor actor requested) Q R t := by
  unfold queryActiveForActor
  rw [wp_bind, wp_store, wp_bind]
  refine wp_ofExcept_of (fun memoryId hresd => ?_) fun e _ => herr e
  rw [wp_bind]
  refine wp_ofExcept_of (fun owner hown => ?_) fun e _ => herr e
  split
  · rename_i row hrow
    obtain ⟨hmem, hmry, hact, halwd⟩ := Store.queryActive_eq_some hrow
    exact hok memoryId row hresd hmry ⟨hmem, hact, owner, hown, halwd⟩
  · exact herr _

/-- What a request to update says. -/
structure UpdateForm where
  memoryId : String
  text : String
  evidence : String
  sources : List MemorySource

/-- The request in the form in which it is stored. -/
structure UpdateForm.Of (request : UpdateMemoryRequest) (form : UpdateForm) : Prop where
  memoryId : required "memory_id" request.memoryId = .ok form.memoryId
  text : normalizeText request.text = .ok form.text
  evidence : normalizeEvidence request.evidenceExcerpt = .ok form.evidence
  sources : normalizeSources request.sources = .ok form.sources

/-- A revision says what a request to update says. -/
structure UpdateForm.Agrees (form : UpdateForm) (s : Store) (row : MemoryRow) : Prop where
  memoryId : row.memoryId = form.memoryId ∨
    form.memoryId.toList.isPrefixOf row.memoryId.toList = true
  text : row.text = form.text
  evidence : row.evidenceExcerpt = form.evidence
  sources : s.sourcesForRevision row.revisionId = form.sources

/-- The revision that a request to update writes. -/
def UpdateForm.row (env : Env) (request : UpdateMemoryRequest) (form : UpdateForm)
    (previous : MemoryRow) (t : Session) : MemoryRow :=
  previous.revised (t.uuids 0).text previous.memoryId form.text form.evidence
    (env.hashText form.evidence) (t.clock 0) (normalizeOptional request.idempotencyKey)

theorem wp_update {request : UpdateMemoryRequest} (hval : t.store.Valid)
    (hrpl : ∀ form row, UpdateForm.Of request form →
      t.store.idempotentRecord actor (normalizeOptional request.idempotencyKey) = .ok (some row) →
      form.Agrees t.store row → Q (t.store.attachSources row) t)
    (hnew : ∀ form previous t', UpdateForm.Of request form →
      t.store.idempotentRecord actor (normalizeOptional request.idempotencyKey) = .ok none →
      t.store.resolveMemoryId actor form.memoryId true = .ok previous.memoryId →
      Current actor t.store previous →
      Written (t.store.supersede previous (some previous.agentId)
        (form.row env request previous t).revisionId (t.clock 0)) (form.row env request previous t)
        form.sources t'.store →
      Q (t'.store.attachSources (form.row env request previous t)) t') (herr : ∀ e, R e t) :
    Wp (update env actor request) Q R t := by
  unfold update
  rw [wp_bind]
  refine wp_ofExcept_of (fun memoryId hmemoryId => ?_) fun e _ => herr e
  rw [wp_bind]
  refine wp_ofExcept_of (fun text htext => ?_) fun e _ => herr e
  rw [wp_bind]
  refine wp_ofExcept_of (fun evidence hevi => ?_) fun e _ => herr e
  rw [wp_bind]
  refine wp_ofExcept_of (fun sources hsrcs => ?_) fun e _ => herr e
  have hform : UpdateForm.Of request ⟨memoryId, text, evidence, sources⟩ :=
    ⟨hmemoryId, htext, hevi, hsrcs⟩
  rw [wp_bind]
  refine wp_atomically ?_
  rw [wp_bind, wp_store, wp_bind]
  refine wp_ofExcept_of (fun existing hexi => ?_) fun e _ => herr e
  rw [wp_bind]
  refine wp_replayed (fun hnone => ?_) (fun row hsome hagrees => ?_) herr
  · rw [hnone] at hexi
    rw [wp_bind, wp_store, wp_bind]
    refine wp_ofExcept_of (fun resolved hresd => ?_) fun e _ => herr e
    rw [wp_bind]
    refine wp_queryActiveForActor (fun memoryId' previous hagain hprev hcur => ?_) herr
    -- a full identifier stands for itself
    have hsame : previous.memoryId = resolved := by
      obtain ⟨owner, hown, hmem⟩ := Store.resolveMemoryId_spec hresd
      obtain ⟨row, hrow, hid, -⟩ := Store.mem_candidates.1 hmem
      have hself := Store.resolveMemoryId_self hown hmem (hid ▸ hval.uuids row hrow)
      rw [hprev]
      exact Except.ok.inj (hagain.symm.trans hself)
    subst hsame
    rw [wp_bind]
    refine wp_writeRevised rfl (fun t' hwrt => ?_) fun _ e _ => herr e
    exact wp_getRevision hwrt
      (hnew _ previous t' hform hexi hresd hcur hwrt)
  · rw [hsome] at hexi
    simp only [Bool.and_eq_true, Bool.or_eq_true, decide_eq_true_eq] at hagrees
    obtain ⟨⟨⟨hmry, htext⟩, hevi⟩, hsrcs⟩ := hagrees
    exact hrpl _ row hform hexi ⟨hmry, htext, hevi, hsrcs⟩

variable {memoryId : String}

theorem wp_remove
    (hok : ∀ row t' event, Current actor t.store row →
      t'.store = (t.store.mark row.revisionId (some row.agentId) (·.retired (t.clock 0))).log event →
      Q (t'.store.attachSources (row.retired (t.clock 0))) t')
    (herr : ∀ e, R e t) : Wp (remove actor memoryId) Q R t := by
  unfold remove
  rw [wp_bind]
  refine wp_ofExcept_of (fun memoryId _ => ?_) fun e _ => herr e
  rw [wp_bind]
  refine wp_atomically ?_
  rw [wp_bind]
  refine wp_queryActiveForActor (fun _ row _ _ hcur => ?_) herr
  rw [wp_bind, wp_now, wp_bind, wp_updateRecord, wp_bind]
  refine wp_insertEvent (fun _ => ?_) fun _ e _ => herr e
  exact hok row _ _ hcur rfl

/-! ### Batches -/

/-- A memory of an agent is named. -/
def Store.Owned (s : Store) (agentId memoryId : String) : Prop :=
  ∃ row ∈ s.records, row.memoryId = memoryId ∧ row.agentId = agentId

variable {agentId : String} {s' : Store}

theorem Effect.owned {owner : String} (h : Effect owner s s')
    (howned : s.Owned agentId memoryId) : s'.Owned agentId memoryId := by
  obtain ⟨row, hrow, rfl, rfl⟩ := howned
  obtain ⟨⟨later, hltr, hsame⟩, -⟩ := h.changes.kept hrow
  obtain ⟨_, _, _, rfl⟩ := hsame
  exact ⟨_, hltr, rfl, rfl⟩

theorem wp_queryActiveForBatch {Q : String × MemoryRow → Session → Prop}
    (hok : ∀ row, row ∈ t.store.records → row.status = .active → row.agentId = agentId →
      t.store.resolveMemoryId (.agent agentId) memoryId true = .ok row.memoryId →
      Q (row.memoryId, row) t)
    (herr : ∀ e, R e t) : Wp (queryActiveForBatch agentId memoryId) Q R t := by
  unfold queryActiveForBatch
  rw [wp_bind, wp_store, wp_bind]
  refine wp_ofExcept_of (fun resolved hresd => ?_) fun e _ => herr e
  split
  · rename_i row hrow
    obtain ⟨hmem, rfl, hact, -⟩ := Store.queryActive_eq_some hrow
    refine wp_ite (fun _ => herr _) fun hown => ?_
    exact hok row hmem hact (not_not.1 hown) hresd
  · exact herr _

variable {key workspace : Option String}

theorem effect_newRow {text evidence evidenceHash now : String} {kind : MemoryKind}
    {revisionId memoryId : Uuid}
    (hwrt : Written s (newRow revisionId.text memoryId.text agentId workspace kind text evidence
      evidenceHash now key) sources s') : Effect agentId s s' :=
  .first hwrt rfl rfl rfl memoryId.valid

theorem effect_revised {text evidence evidenceHash now : String} {previous : MemoryRow} {revisionId : String}
    (hmem : previous ∈ s.records) (hact : previous.status = .active) (hown : previous.agentId = agentId)
    (hwrt : Written (s.supersede previous (some previous.agentId) revisionId now)
      (previous.revised revisionId previous.memoryId text evidence evidenceHash now key) sources
      s') : Effect agentId s s' := by
  obtain ⟨row, hrow⟩ : ∃ row, row = previous.revised revisionId previous.memoryId text evidence
      evidenceHash now key := ⟨_, rfl⟩
  have hrev : row.revisionId = revisionId := by rw [hrow]; rfl
  have hscp : (some previous.agentId).all (· = previous.agentId) := by simp
  rw [← hrow, ← hrev] at hwrt
  refine Effect.next hwrt hmem hact hown hscp ?_ ?_ ?_ ?_ ?_
  all_goals rw [hrow]
  · exact hown
  all_goals rfl

theorem mem_written {row : MemoryRow} (hwrt : Written s row sources s') : row ∈ s'.records := by
  obtain ⟨-, stored, event, -, rfl⟩ := hwrt
  exact mem_append_right _ (mem_singleton.2 rfl)

theorem wp_commitMutation {mutation : MemoryMutation} {Q : String → Session → Prop}
    (hok : ∀ memoryId t', Effect agentId t.store t'.store → t'.store.Owned agentId memoryId →
      t'.store.commits = t.store.commits → t'.store.cursors = t.store.cursors → Q memoryId t')
    (herr : ∀ e t', R e t') : Wp (commitMutation env agentId workspace mutation) Q R t := by
  cases mutation with
  | save kind text evidence sources =>
    unfold commitMutation
    rw [wp_bind]
    refine wp_ofExcept_of (fun text _ => ?_) fun e _ => herr e _
    rw [wp_bind]
    refine wp_ofExcept_of (fun evidence _ => ?_) fun e _ => herr e _
    rw [wp_bind]
    refine wp_writeNew rfl (fun t' hwrt => ?_) fun _ => herr
    have heff := effect_newRow hwrt
    obtain ⟨-, stored, event, -, hsto⟩ := id hwrt
    refine hok _ t' heff ⟨_, mem_written hwrt, rfl, rfl⟩ ?_ ?_
    · rw [hsto]
      rfl
    · rw [hsto]
      rfl
  | update memoryId text evidence sources =>
    unfold commitMutation
    rw [wp_bind]
    refine wp_queryActiveForBatch (fun prior hmem hact hown _ => ?_) fun e => herr e _
    rw [wp_bind]
    refine wp_ofExcept_of (fun text _ => ?_) fun e _ => herr e _
    rw [wp_bind]
    refine wp_ofExcept_of (fun evidence _ => ?_) fun e _ => herr e _
    rw [wp_bind]
    refine wp_writeRevised rfl (fun t' hwrt => ?_) fun _ => herr
    have heff := effect_revised hmem hact hown hwrt
    obtain ⟨-, stored, event, -, hsto⟩ := id hwrt
    refine hok _ t' heff (heff.owned ⟨prior, hmem, rfl, hown⟩) ?_ ?_
    · rw [hsto]
      rfl
    · rw [hsto]
      rfl
  | remove memoryId =>
    unfold commitMutation
    rw [wp_bind]
    refine wp_queryActiveForBatch (fun prior hmem hact hown _ => ?_) fun e => herr e _
    rw [wp_bind, wp_now, wp_bind, wp_updateRecord, wp_bind]
    refine wp_insertEvent (fun _ => ?_) fun _ => herr
    have heff : Effect agentId t.store ((t.store.mark prior.revisionId (some agentId)
        (·.retired (t.clock 0))).log (t.tick.event agentId (some prior.memoryId)
          (some prior.revisionId) "removed" none)) :=
      .retired hmem hact hown (by simp [hown]) (.retired _) fun _ => rfl
    exact hok _ _ heff (heff.owned ⟨prior, hmem, rfl, hown⟩) rfl rfl

/-- The mutations of a batch are carried out one after the other. -/
theorem wp_commitMutations {mutations : List MemoryMutation} {Q : List String → Session → Prop}
    (hok : ∀ memoryIds t', Effect agentId t.store t'.store →
      (∀ memoryId ∈ memoryIds, t'.store.Owned agentId memoryId) →
      t'.store.commits = t.store.commits → t'.store.cursors = t.store.cursors → Q memoryIds t')
    (herr : ∀ e t', R e t') : Wp (commitMutations env agentId workspace mutations) Q R t := by
  induction mutations generalizing t Q with
  | nil => exact hok [] t (.refl _) (by simp) rfl rfl
  | cons mutation mutations ih =>
    unfold commitMutations
    rw [wp_bind]
    refine wp_commitMutation (fun memoryId t' heff howned hcoms hcursrs => ?_) herr
    rw [wp_bind]
    refine ih fun memoryIds t'' heff' howned' hcoms' hcursrs' => ?_
    refine hok _ t'' (heff.trans heff') ?_ (hcoms'.trans hcoms)
      (hcursrs'.trans hcursrs)
    intro other hoth
    rcases mem_cons.1 hoth with rfl | hoth
    · exact heff'.owned howned
    · exact howned' other hoth

/-- A cursor moves forward. -/
structure Advanced (env : Env) (agentId : String) (workspace : Option String)
    (cursor : MemoryCursorUpdate) (s s' : Store) : Prop where
  forward : ∀ existing : CursorRow, s.cursors[canonicalConsolidationCursorKey env agentId workspace
    (normalizeOptional cursor.conversationId)]? = some existing → existing.sequence < cursor.sequence
  moved : ∃ row : CursorRow, row.sequence = cursor.sequence ∧ s' = { s with
    cursors := s.cursors.insert (canonicalConsolidationCursorKey env agentId workspace
      (normalizeOptional cursor.conversationId)) row }

theorem Advanced.effect {cursor : MemoryCursorUpdate} (h : Advanced env agentId workspace cursor s s') :
    Effect agentId s s' := by
  obtain ⟨hfwd, row, hseq, rfl⟩ := h
  refine .aside rfl rfl ⟨fun _ _ h => h, ?_, prefix_refl _, prefix_refl _⟩
  intro key existing hexi
  rw [Table.lookup_insert]
  split
  · rename_i heq
    refine ⟨row, rfl, ?_⟩
    rw [hseq]
    exact Nat.le_of_lt (hfwd existing (heq ▸ hexi))
  · exact ⟨existing, hexi, Nat.le_refl _⟩

end Operations

end Wardian.Memory
