/-
Batches and maintenance plans.

A batch moves a cursor, carries out its mutations and leaves a receipt; a plan writes new revisions,
creates memories and retires others.  Each is one transaction, and all that it does to the revisions
is a sequence of changes to the memories of one agent.

Main results:

* `wp_commitBatch` — what a batch does;
* `wp_applyMaintenance` — what a plan does.
-/

import Wardian.Memory.Operations

set_option autoImplicit false

namespace Wardian.Memory

open MemoryM
open Prog (Wp wp_atomically wp_bind wp_ite wp_mono wp_ofExcept_of wp_pure)

variable {env : Env} {actor : MemoryActor} {t : Session} {R : MemoryError → Session → Prop}

/-! ### Batches -/

section Batches

attribute [local irreducible] required normalizeOptional canonicalConsolidationCursorKey

variable {workspace : Option String}

theorem wp_advanceConsolidationCursor {agentId : String} {cursor : MemoryCursorUpdate}
    {Q : Unit → Session → Prop} (hok : ∀ t', Advanced env agentId workspace cursor t.store t'.store → Q () t')
    (herr : ∀ e t', R e t') : Wp (advanceConsolidationCursor env agentId workspace cursor) Q R t := by
  unfold advanceConsolidationCursor
  rw [wp_bind]
  refine wp_ofExcept_of (fun _ _ => ?_) fun e _ => herr e _
  rw [wp_bind, wp_store]
  dsimp only
  split
  · rename_i existing hexi
    refine wp_ite (fun _ => ?_) fun _ => wp_ite (fun _ => ?_) fun hltr => ?_
    · exact herr _ _
    · exact herr _ _
    · rw [wp_bind, wp_now]
      refine wp_ite (fun _ => herr _ _) fun _ => hok _ ⟨fun other hoth => ?_, _, rfl, rfl⟩
      rw [hexi] at hoth
      rw [← Option.some.inj hoth]
      exact Nat.lt_of_not_le hltr
  · rename_i hnone
    rw [wp_bind, wp_now]
    refine wp_ite (fun _ => herr _ _) fun _ => hok _ ⟨fun other hoth => ?_, _, rfl, rfl⟩
    rw [hnone] at hoth
    cases hoth

/-- The receipt of a batch is left beside those of other batches. -/
theorem effect_receipt {owner key : String} {s : Store} {row : CommitRow} (hnone : s.commits[key]? = none) :
    Effect owner s { s with commits := s.commits.insert key row } := by
  refine .aside rfl rfl ⟨?_, fun _ row h => ⟨row, h, Nat.le_refl _⟩, List.prefix_refl _,
    List.prefix_refl _⟩
  intro other stored hstrd
  rw [Table.lookup_insert]
  split
  · rename_i heq
    rw [← heq, hnone] at hstrd
    cases hstrd
  · exact hstrd

variable {batch : MemoryCommitBatch} {Q : MemoryCommitResult → Session → Prop}

/-- **A batch changes the memories of its agent**, unless it has been carried out before. -/
theorem wp_commitCanonical {agentId key : String} (hrpl : ∀ result, Q result t)
    (hok : ∀ result t', Effect agentId t.store t'.store →
      (∀ memoryId ∈ result.memoryIds, t'.store.Owned agentId memoryId) → Q result t')
    (herr : ∀ e t', R e t') : Wp (commitCanonical env agentId key workspace batch) Q R t := by
  unfold commitCanonical
  rw [wp_bind, wp_store]
  split
  · exact wp_ite (fun _ => herr _ _) fun _ => hrpl _
  · rename_i hnone
    -- the mutations and the receipt, once the cursor has moved
    have hrest : ∀ t₁, Effect agentId t.store t₁.store → t₁.store.commits = t.store.commits →
        Wp (do
          let memoryIds ← commitMutations env agentId workspace batch.operations
          let result : MemoryCommitResult := ⟨key, memoryIds, false⟩
          let time ← now
          change fun s => { s with
            commits := s.commits.insert key ⟨requestHash env batch, result, time⟩ }
          return result) Q R t₁ := by
      intro t₁ heff hcoms
      rw [wp_bind]
      refine wp_commitMutations (fun memoryIds t₂ heff' howned hcoms' _ => ?_) herr
      rw [wp_bind, wp_now, wp_bind, wp_change, wp_pure]
      have hfree : t₂.store.commits[key]? = none := by rw [hcoms', hcoms, hnone]
      obtain ⟨row, hrow⟩ : ∃ row : CommitRow, row =
        ⟨requestHash env batch, ⟨key, memoryIds, false⟩, t₂.clock 0⟩ := ⟨_, rfl⟩
      rw [← hrow]
      have heff'' : Effect agentId t₂.store
          { t₂.store with commits := t₂.store.commits.insert key row } := effect_receipt hfree
      refine hok _ _ ((heff.trans heff').trans heff'') ?_
      intro memoryId hmem
      exact heff''.owned (howned memoryId hmem)
    cases hcurs : batch.cursor with
    | some cursor =>
      rw [wp_bind]
      refine wp_advanceConsolidationCursor (fun t₁ hadvd => ?_) herr
      refine hrest t₁ hadvd.effect ?_
      obtain ⟨-, row, -, heq⟩ := hadvd
      rw [heq]
    | none =>
      exact hrest t (.refl _) rfl

theorem wp_commitBatch
    (hrpl : ∀ agentId result, actor.authorizeSubject batch.agentId = .ok agentId → Q result t)
    (hok : ∀ agentId result t', actor.authorizeSubject batch.agentId = .ok agentId →
      Effect agentId t.store t'.store →
      (∀ memoryId ∈ result.memoryIds, t'.store.Owned agentId memoryId) → Q result t')
    (herr : ∀ e, R e t) : Wp (commitBatch env actor batch) Q R t := by
  unfold commitBatch
  rw [wp_bind]
  refine wp_ofExcept_of (fun agentId hagentId => ?_) fun e _ => herr e
  rw [wp_bind]
  refine wp_ofExcept_of (fun key _ => ?_) fun e _ => herr e
  refine wp_atomically ?_
  rw [wp_bind, wp_store, wp_bind]
  refine wp_ofExcept_of (fun operations _ => ?_) fun e _ => herr e
  exact wp_commitCanonical (fun result => hrpl agentId result hagentId) (fun result t' => hok agentId result t' hagentId)
    fun e _ => herr e

end Batches

/-! ### Programs that change the memories of one agent -/

/-- Whatever the program does when it returns, it changes the memories of the owner only. -/
def Makes {α : Type} (owner : String) (m : MemoryM α) : Prop :=
  ∀ t : Session, Wp m (fun _ t' => Effect owner t.store t'.store) (fun _ _ => True) t

namespace Makes

variable {α β : Type} {owner : String}

theorem pure (a : α) : Makes owner (Pure.pure a : MemoryM α) := fun t => .refl t.store

theorem bind {m : MemoryM α} {f : α → MemoryM β} (hm : Makes owner m)
    (hf : ∀ a, Makes owner (f a)) : Makes owner (m >>= f) := by
  intro t
  rw [wp_bind]
  refine wp_mono (hm t) (fun a t₁ h => ?_) fun _ _ _ => trivial
  exact wp_mono (hf a t₁) (fun _ _ h' => h.trans h') fun _ _ _ => trivial

theorem foldlM {f : β → α → MemoryM β} (hf : ∀ b a, Makes owner (f b a)) :
    ∀ (xs : List α) (b : β), Makes owner (xs.foldlM f b) := by
  intro xs
  induction xs with
  | nil => intro b; exact .pure b
  | cons x xs ih =>
    intro b
    rw [List.foldlM_cons]
    exact (hf b x).bind ih

theorem forM {f : α → MemoryM Unit} (hf : ∀ a, Makes owner (f a)) :
    ∀ xs : List α, Makes owner (xs.forM f) := by
  intro xs
  induction xs with
  | nil => exact .pure ()
  | cons x xs ih =>
    exact (hf x).bind fun _ => ih

end Makes

/-! ### Plans -/

section Plans

attribute [local irreducible] combineSources normalizeText normalizeEvidence
  MemoryMaintenanceScope.workspace? planPayload

theorem wp_activeRecord {agentId memoryId : String} {Q : MemoryRecord → Session → Prop}
    (hok : ∀ record : MemoryRecord, record.toMemoryRow ∈ t.store.records →
      record.status = .active → record.agentId = agentId → record.memoryId = memoryId → Q record t)
    (herr : ∀ e, R e t) : Wp (activeRecord agentId memoryId) Q R t := by
  unfold activeRecord
  rw [wp_bind, wp_store]
  split
  · rename_i record hrec
    obtain ⟨row, hrow, rfl⟩ := Option.map_eq_some_iff.1 hrec
    obtain ⟨hmem, hmry, hact, hown⟩ := Store.queryActive_eq_some hrow
    have hown' : agentId = row.agentId := by simpa using hown
    exact hok _ hmem hact hown'.symm hmry
  · exact herr _

theorem wp_writeMaintained {a : Applying} {current : MemoryRow} {revisionId : String}
    {workspace : Option String} {kind : MemoryKind} {text evidence evidenceHash : String}
    {sources : List MemorySource} {target : TargetKey} {Q : Unit → Session → Prop}
    (hmem : current ∈ t.store.records) (hact : current.status = .active)
    (hown : current.agentId = a.plan.agentId)
    (hok : ∀ t', Effect a.plan.agentId t.store t'.store → Q () t') (herr : ∀ e t', R e t') :
    Wp (writeMaintained a current (current.maintained revisionId a.plan.agentId workspace kind
      text evidence evidenceHash a.appliedAt) sources target) Q R t := by
  obtain ⟨row, hrow⟩ : ∃ row, row = current.maintained revisionId a.plan.agentId workspace kind
    text evidence evidenceHash a.appliedAt := ⟨_, rfl⟩
  rw [← hrow]
  unfold writeMaintained
  rw [wp_bind, wp_updateRecord, wp_bind]
  refine wp_insertRecord (fun hfrs => ?_) fun _ e => herr e _
  rw [wp_bind]
  refine wp_insertSources (fun stored hstrd => ?_) fun e t' _ => herr e t'
  refine wp_insertEvent (fun _ => ?_) fun _ => herr
  have hwrt : Written (t.store.supersede current none row.revisionId a.appliedAt) row sources
      ((t.store.supersede current none row.revisionId a.appliedAt).add row stored
        (t.event a.plan.agentId (some current.memoryId) (some row.revisionId) "revise"
          (some (planPayload a.plan.planId
            [("supersedes_revision_id", .string current.revisionId), ("absorbed_memory_ids",
              .array ((absorbedIds a.plan target).map .string))])))) :=
    ⟨hfrs, stored, _, hstrd, rfl⟩
  refine hok _ (Effect.next hwrt hmem hact hown rfl ?_ ?_ ?_ ?_ ?_)
  all_goals rw [hrow]; rfl

theorem makes_applyCreate (a : Applying) (created : Table (String × String))
    (operation : MemoryMaintenanceOperation) :
    Makes a.plan.agentId (applyCreate env a created operation) := by
  intro t
  cases operation with
  | create clientKey text kind scope evidenceExcerpt sources =>
    unfold applyCreate
    rw [wp_bind, wp_newUuid, wp_bind, wp_newUuid, wp_bind]
    refine wp_ofExcept_of (fun combined _ => ?_) fun _ _ => trivial
    rw [wp_bind]
    refine wp_ofExcept_of (fun text _ => ?_) fun _ _ => trivial
    rw [wp_bind]
    refine wp_ofExcept_of (fun evidence _ => ?_) fun _ _ => trivial
    refine wp_add rfl (fun stored hfrs hstrd _ => ?_) fun _ _ _ => trivial
    exact effect_newRow ⟨hfrs, stored, _, hstrd, rfl⟩
  | revise | retire | retireInto => exact .refl _

theorem makes_applyRevise (a : Applying) (revised : Table String) (operation : MemoryMaintenanceOperation) :
    Makes a.plan.agentId (applyRevise env a revised operation) := by
  intro t
  cases operation with
  | revise memoryId expectedRevisionId text kind scope evidenceExcerpt addSources =>
    unfold applyRevise
    rw [wp_bind]
    refine wp_activeRecord (fun current hmem hact hown _ => ?_) fun _ => trivial
    rw [wp_bind, wp_newUuid, wp_bind]
    refine wp_ofExcept_of (fun combined _ => ?_) fun _ _ => trivial
    rw [wp_bind]
    refine wp_ofExcept_of (fun text _ => ?_) fun _ _ => trivial
    rw [wp_bind]
    refine wp_ofExcept_of (fun evidence _ => ?_) fun _ _ => trivial
    rw [wp_bind]
    exact wp_writeMaintained hmem hact hown (fun t' heff => heff) fun _ _ => trivial
  | create | retire | retireInto => exact .refl _

theorem makes_applyTarget (a : Applying) (reviseOps : List String) (revised : Table String)
    (targetId : String) : Makes a.plan.agentId (applyTarget a reviseOps revised targetId) := by
  intro t
  unfold applyTarget
  refine wp_ite (fun _ => .refl _) fun _ => ?_
  rw [wp_bind]
  refine wp_activeRecord (fun current hmem hact hown _ => ?_) fun _ => trivial
  rw [wp_bind, wp_newUuid, wp_bind]
  refine wp_ofExcept_of (fun combined _ => ?_) fun _ _ => trivial
  rw [wp_bind]
  exact wp_writeMaintained hmem hact hown (fun t' heff => heff) fun _ _ => trivial

theorem makes_applyRetire (a : Applying) (operation : MemoryMaintenanceOperation) :
    Makes a.plan.agentId (applyRetire a operation) := by
  intro t
  cases operation with
  | retire memoryId expectedRevisionId reason =>
    unfold applyRetire
    rw [wp_bind]
    refine wp_activeRecord (fun current hmem hact hown _ => ?_) fun _ => trivial
    rw [wp_bind, wp_updateRecord]
    refine wp_insertEvent (fun _ => ?_) fun _ _ _ => trivial
    exact .retired hmem hact hown rfl (.retired a.appliedAt) fun _ => rfl
  | revise | create | retireInto => exact .refl _

/-- A memory that is merged into another one names the new revision of that one. -/
theorem Settled.mergedInto (now revisionId : String) :
    Settled fun row => { row.retired now with replacedByRevisionId := some revisionId } :=
  fun _ => ⟨_, _, _, rfl⟩

theorem makes_applyRetireInto (a : Applying) (created : Table (String × String))
    (revised : Table String) (operation : MemoryMaintenanceOperation) :
    Makes a.plan.agentId (applyRetireInto a created revised operation) := by
  intro t
  cases operation with
  | retireInto memoryId expectedRevisionId targetMemoryId targetClientKey targetExpected reason =>
    unfold applyRetireInto
    rw [wp_bind]
    refine wp_activeRecord (fun current hmem hact hown _ => ?_) fun _ => trivial
    rw [wp_bind]
    refine wp_ofExcept_of (fun resolved _ => ?_) fun _ _ => trivial
    rw [wp_bind, wp_updateRecord]
    refine wp_insertEvent (fun _ => ?_) fun _ _ _ => trivial
    exact .retired hmem hact hown rfl (.mergedInto a.appliedAt resolved.2) fun _ => rfl
  | revise | create | retire => exact .refl _

theorem makes_applyOperations (a : Applying) : Makes a.plan.agentId (applyOperations env a) := by
  unfold applyOperations
  refine (Makes.foldlM (fun created => makes_applyCreate a created) _ _).bind fun created => ?_
  refine (Makes.foldlM (fun revised => makes_applyRevise a revised) _ _).bind fun revised => ?_
  refine (Makes.foldlM (makes_applyTarget a _) _ _).bind fun revised => ?_
  refine (Makes.forM (makes_applyRetire a) _).bind fun _ => ?_
  refine (Makes.forM (makes_applyRetireInto a created revised) _).bind fun _ => ?_
  exact .pure _

theorem makes_collectAbsorbed (plan : MemoryMaintenancePlan) (owner : String)
    (merges : List (String × TargetKey)) : Makes owner (collectAbsorbed plan merges) := by
  induction merges with
  | nil => exact .pure _
  | cons merge merges ih =>
    refine Makes.bind (fun t => ?_) fun record => Makes.bind (fun t => .refl t.store) fun _ =>
      ih.bind fun _ => .pure _
    exact wp_activeRecord (fun _ _ _ _ _ => .refl _) fun _ => trivial

theorem makes_applyNew (plan : MemoryMaintenancePlan) (previewDigest : String) :
    Makes plan.agentId (applyNew env plan previewDigest) := by
  unfold applyNew
  refine Makes.bind (fun t => .refl t.store) fun s => ?_
  refine Makes.bind (fun t => wp_ofExcept_of (fun _ _ => .refl t.store) fun _ _ => trivial)
    fun preview => ?_
  split
  · exact fun t => trivial
  · split
    · exact fun t => trivial
    · refine Makes.bind (fun t => .refl t.store) fun appliedAt => ?_
      refine (makes_collectAbsorbed plan plan.agentId _).bind fun collected => ?_
      refine (makes_applyOperations ⟨plan, appliedAt, _⟩).bind fun done => ?_
      refine Makes.bind (fun t => ?_) fun _ => .pure _
      exact .aside rfl rfl ⟨fun _ _ h => h, fun _ row h => ⟨row, h, Nat.le_refl _⟩,
        List.prefix_append _ _, List.prefix_refl _⟩

/-- **A plan of an operator changes the memories of its agent**, unless it has been applied. -/
theorem wp_applyMaintenance {plan : MemoryMaintenancePlan} {previewDigest : String}
    {Q : MemoryMaintenanceReceipt → Session → Prop}
    (hok : ∀ receipt t', actor = .operator → Effect plan.agentId t.store t'.store → Q receipt t')
    (herr : ∀ e, R e t) : Wp (applyMaintenance env actor plan previewDigest) Q R t := by
  unfold applyMaintenance
  rw [wp_bind]
  refine wp_ofExcept_of (fun _ hactor => ?_) fun e _ => herr e
  have hoper : actor = .operator := by
    cases actor with
    | operator => rfl
    | agent => cases hactor
  rw [wp_bind]
  refine wp_ofExcept_of (fun _ _ => ?_) fun e _ => herr e
  refine wp_atomically ?_
  rw [wp_bind, wp_store]
  split
  · exact wp_ite (fun _ => herr _) fun _ => hok _ t hoper (.refl _)
  · exact wp_mono (makes_applyNew plan previewDigest t)
      (fun receipt t' heff => hok receipt t' hoper heff) fun e _ _ => herr e

end Plans

end Wardian.Memory
