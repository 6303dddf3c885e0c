/-
The memory store over its whole history.

Operations of any actors come one after the other; each of them may fail wherever its transaction
may fail.  Whatever happens, the keys stay in order, every memory is a chain of revisions of one
owner as long as its revisions can be numbered, and it has at most one revision in force.

Main results:

* `wp_perform` — what an operation does, in one statement.
-/

import Wardian.Memory.Transactions

set_option autoImplicit false

namespace Wardian.Memory

open List
open MemoryM

/-! ### Operations -/

inductive Operation where
  | save (actor : MemoryActor) (request : SaveMemoryRequest)
  | update (actor : MemoryActor) (request : UpdateMemoryRequest)
  | remove (actor : MemoryActor) (memoryId : String)
  | commitBatch (actor : MemoryActor) (batch : MemoryCommitBatch)
  | applyMaintenance (actor : MemoryActor) (plan : MemoryMaintenancePlan) (previewDigest : String)

inductive Outcome where
  | record (record : MemoryRecord)
  | batch (result : MemoryCommitResult)
  | receipt (receipt : MemoryMaintenanceReceipt)

namespace Operation

def actor : Operation → MemoryActor
  | .save actor _ | .update actor _ | .remove actor _ | .commitBatch actor _
  | .applyMaintenance actor _ _ => actor

def perform (env : Env) : Operation → MemoryM Outcome
  | .save actor request => do return .record (← Memory.save env actor request)
  | .update actor request => do return .record (← Memory.update env actor request)
  | .remove actor memoryId => do return .record (← Memory.remove actor memoryId)
  | .commitBatch actor batch => do return .batch (← Memory.commitBatch env actor batch)
  | .applyMaintenance actor plan previewDigest => do
      return .receipt (← Memory.applyMaintenance env actor plan previewDigest)

end Operation

/-- The actor may operate on the memories of the owner. -/
def MemoryActor.May (actor : MemoryActor) (owner : String) : Prop :=
  ∀ name, actor = .agent name → trimmed name = owner

/-- A revision that is returned is the owner's. -/
def Outcome.Of (owner : String) : Outcome → Prop
  | .record r => r.agentId = owner
  | .batch _ => True
  | .receipt _ => True

theorem MemoryActor.may_of_authorizeSubject {actor : MemoryActor} {subject owner : String}
    (h : actor.authorizeSubject subject = .ok owner) : actor.May owner := by
  intro name hactor
  subst hactor
  unfold authorizeSubject at h
  obtain ⟨own, hown, h⟩ := Results.bind_eq_ok.1 h
  obtain ⟨actorId, hactorId, h⟩ := Results.bind_eq_ok.1 h
  split at h
  · cases h
  · rename_i heq
    rw [← Except.ok.inj h, ← not_not.1 heq]
    exact (required_eq_ok.1 hactorId).1.symm

theorem MemoryActor.may_of_all {actor : MemoryActor} {holder : Option String} {owner : String}
    (hhldr : actor.agentId = .ok holder) (h : holder.all (· = owner) = true) : actor.May owner := by
  intro name hactor
  obtain ⟨-, hoper⟩ | ⟨agentId, rfl, hagt⟩ := MemoryActor.agentId_eq_ok hhldr
  · rw [hoper] at hactor
    cases hactor
  · rw [hagt] at hactor
    cases hactor
    simpa using h

/-- What is found under an idempotency key is the actor's own. -/
theorem Store.idempotentRecord_may {s : Store} {actor : MemoryActor} {key : Option String} {row : MemoryRow}
    (h : s.idempotentRecord actor key = .ok (some row)) : actor.May row.agentId := by
  intro name hactor
  subst hactor
  cases key with
  | none => cases h
  | some key =>
    unfold idempotentRecord at h
    obtain ⟨holder, hhldr, h⟩ := Results.bind_eq_ok.1 h
    obtain ⟨-, hoper⟩ | ⟨agentId, rfl, hagt⟩ := MemoryActor.agentId_eq_ok hhldr
    · cases hoper
    · cases hagt
      split at h
      · rename_i actorId found hactorId _
        split at h
        · cases h
        · rename_i heq
          cases hactorId
          rw [← Option.some.inj (Except.ok.inj h)]
          exact (not_not.1 heq).symm
      · rename_i hoth
        exact absurd (Except.ok.inj h) fun hfnd => hoth _ _ rfl hfnd

/-! ### What an operation does -/

/-- **An operation that succeeds changes the memories of an owner on whose memories the actor may
operate, and one that fails changes nothing.** -/
theorem wp_perform {env : Env} {t : Session} (hval : t.store.Valid) (operation : Operation) :
    Prog.Wp (operation.perform env)
      (fun outcome t' => ∃ owner, operation.actor.May owner ∧ outcome.Of owner ∧
        Effect owner t.store t'.store)
      (fun _ t' => t' = t) t := by
  cases operation with
  | save actor request =>
    unfold Operation.perform
    rw [Prog.wp_bind]
    refine wp_save (fun form row hform _ hagrees => ?_) (fun form t' hform _ hwrt => ?_)
      fun _ => rfl
    · exact ⟨form.agentId, MemoryActor.may_of_authorizeSubject hform.agentId, hagrees.agentId,
        .refl _⟩
    · exact ⟨form.agentId, MemoryActor.may_of_authorizeSubject hform.agentId, rfl,
        effect_newRow hwrt⟩
  | update actor request =>
    unfold Operation.perform
    rw [Prog.wp_bind]
    refine wp_update hval (fun form row _ hexi _ => ?_)
      (fun form previous t' _ _ _ hcur hwrt => ?_) fun _ => rfl
    · exact ⟨row.agentId, Store.idempotentRecord_may hexi, rfl, .refl _⟩
    · obtain ⟨holder, hhldr, hall⟩ := hcur.allowed
      exact ⟨previous.agentId, MemoryActor.may_of_all hhldr hall, rfl,
        effect_revised hcur.mem hcur.active rfl hwrt⟩
  | remove actor memoryId =>
    unfold Operation.perform
    rw [Prog.wp_bind]
    refine wp_remove (fun row t' event hcur hsto => ?_) fun _ => rfl
    obtain ⟨holder, hhldr, hall⟩ := hcur.allowed
    refine ⟨row.agentId, MemoryActor.may_of_all hhldr hall, rfl, ?_⟩
    rw [hsto]
    exact .retired hcur.mem hcur.active rfl (by simp) (.retired _) fun _ => rfl
  | commitBatch actor batch =>
    unfold Operation.perform
    rw [Prog.wp_bind]
    refine wp_commitBatch (fun owner result howner => ?_) (fun owner result t' howner heff _ => ?_)
      fun _ => rfl
    · exact ⟨owner, MemoryActor.may_of_authorizeSubject howner, trivial, .refl _⟩
    · exact ⟨owner, MemoryActor.may_of_authorizeSubject howner, trivial, heff⟩
  | applyMaintenance actor plan previewDigest =>
    unfold Operation.perform
    rw [Prog.wp_bind]
    refine wp_applyMaintenance (fun receipt t' hactor heff => ?_) fun _ => rfl
    refine ⟨plan.agentId, fun name hname => ?_, trivial, heff⟩
    change actor = _ at hname
    rw [hactor] at hname
    cases hname

/-! ### One revision in force -/

/-- Every memory has a first revision, and at most one of its revisions is in force. -/
structure Store.Single (s : Store) : Prop where
  started : ∀ row ∈ s.records, ∃ first ∈ s.records,
    first.memoryId = row.memoryId ∧ first.revision = 1
  unique : ∀ row ∈ s.records, ∀ other ∈ s.records, row.status = .active →
    other.status = .active → row.memoryId = other.memoryId → row = other

section Single

variable {owner : String} {s t : Store}

theorem Store.single_empty : Store.empty.Single :=
  ⟨by simp [Store.empty], by simp [Store.empty]⟩

variable {row : MemoryRow} {holder : Option String} {f : MemoryRow → MemoryRow}

/-- A row that is changed is no longer in force, and the others are as they were. -/
theorem active_changeRow {current : MemoryRow} (hhldr : holder.all (· = current.agentId) = true)
    (hf : ∀ row, (f row).status ≠ .active) (hrow : row ∈ changeRow s.records current.revisionId holder f)
    (hact : row.status = .active) : row ∈ s.records ∧ row ≠ current := by
  obtain ⟨before, hbef, heq⟩ := mem_map.1 hrow
  split at heq
  · rw [← heq] at hact
    exact absurd hact (hf before)
  · rename_i hif
    subst heq
    refine ⟨hbef, fun hcur => hif ?_⟩
    rw [hcur]
    simpa using hhldr

theorem started_changeRow (h : s.Single) {id : String} (hf : Settled f)
    (hrow : row ∈ changeRow s.records id holder f) :
    ∃ first ∈ changeRow s.records id holder f,
      first.memoryId = row.memoryId ∧ first.revision = 1 := by
  have hmry : ∃ before ∈ s.records, row.memoryId = before.memoryId := by
    obtain ⟨before, hbef, rfl | ⟨-, -, rfl⟩⟩ := mem_changeRow hrow
    · exact ⟨_, hbef, rfl⟩
    · exact ⟨before, hbef, (hf.keep before).2.1⟩
  obtain ⟨before, hbef, hmry⟩ := hmry
  obtain ⟨first, hfst, hsame, hone⟩ := h.started before hbef
  obtain ⟨later, hltr, hkept⟩ := exists_same_changeRow hf hfst
  obtain ⟨_, _, _, rfl⟩ := hkept
  exact ⟨_, hltr, hsame.trans hmry.symm, hone⟩

/-- **Every change keeps one revision of a memory in force.** -/
theorem Change.single (h : s.Single) (hchg : Change owner s t) : t.Single := by
  cases hchg with
  | @created row sources howner hrev hact huuid hfrs hrecs _ =>
    have hnew : ∀ other ∈ s.records, other.memoryId ≠ row.memoryId := by
      intro other hoth heq
      obtain ⟨first, hfst, hmry, hone⟩ := h.started other hoth
      exact hfrs.number first hfst (hmry.trans heq) (hone.trans hrev.symm)
    refine ⟨?_, ?_⟩ <;> rw [hrecs]
    · intro other hoth
      rcases mem_append.1 hoth with hoth | hoth
      · obtain ⟨first, hfst, hrest⟩ := h.started other hoth
        exact ⟨first, mem_append_left _ hfst, hrest⟩
      · rw [mem_singleton.1 hoth]
        exact ⟨row, by simp, rfl, hrev⟩
    · intro first hfst second hsec hfirstActive hsecondActive heq
      rcases mem_append.1 hfst with hfst | hfst <;>
        rcases mem_append.1 hsec with hsec | hsec
      · exact h.unique first hfst second hsec hfirstActive hsecondActive heq
      · rw [mem_singleton.1 hsec] at heq
        exact absurd heq (hnew first hfst)
      · rw [mem_singleton.1 hfst] at heq
        exact absurd heq.symm (hnew second hsec)
      · rw [mem_singleton.1 hfst, mem_singleton.1 hsec]
  | @revised current row holder now sources hmem hcur hcurOwner hhldr howner hmry
      hrev hact hsups hfrs hrecs _ =>
      have hold : ∀ other ∈ changeRow s.records current.revisionId holder
          (·.superseded row.revisionId now), other.status = .active →
          other ∈ s.records ∧ other ≠ current := fun other hoth hoth' =>
        active_changeRow hhldr (fun _ => by simp [MemoryRow.superseded]) hoth hoth'
      have hnew : ∀ other ∈ changeRow s.records current.revisionId holder
          (·.superseded row.revisionId now), other.status = .active →
          other.memoryId ≠ row.memoryId := by
        intro other hoth hoth' heq
        obtain ⟨hrec, hne⟩ := hold other hoth hoth'
        exact hne (h.unique other hrec current hmem hoth' hcur (heq.trans hmry))
      refine ⟨?_, ?_⟩ <;> rw [hrecs]
      · intro other hoth
        rcases mem_append.1 hoth with hoth | hoth
        · obtain ⟨first, hfst, hrest⟩ := started_changeRow h (.superseded _ _) hoth
          exact ⟨first, mem_append_left _ hfst, hrest⟩
        · obtain ⟨later, hltr, hkept⟩ : ∃ later ∈ changeRow s.records current.revisionId holder
              (·.superseded row.revisionId now), MemoryRow.Same current later :=
            exists_same_changeRow (.superseded row.revisionId now) hmem
          obtain ⟨first, hfst, hsame, hone⟩ := started_changeRow h (.superseded _ _) hltr
          obtain ⟨_, _, _, rfl⟩ := hkept
          rw [mem_singleton.1 hoth, hmry]
          exact ⟨first, mem_append_left _ hfst, hsame, hone⟩
      · intro first hfst second hsec hfirstActive hsecondActive heq
        rcases mem_append.1 hfst with hfst | hfst <;>
          rcases mem_append.1 hsec with hsec | hsec
        · exact h.unique first (hold first hfst hfirstActive).1 second
            (hold second hsec hsecondActive).1 hfirstActive hsecondActive heq
        · rw [mem_singleton.1 hsec] at heq
          exact absurd heq (hnew first hfst hfirstActive)
        · rw [mem_singleton.1 hfst] at heq
          exact absurd heq.symm (hnew second hsec hsecondActive)
        · rw [mem_singleton.1 hfst, mem_singleton.1 hsec]
  | @retired current holder f hmem hcur _ hhldr hf hrem hrecs _ =>
    refine ⟨?_, ?_⟩ <;> rw [hrecs]
    · exact fun row hrow => started_changeRow h hf hrow
    · intro first hfst second hsec hfirstActive hsecondActive heq
      have hnot : ∀ row, (f row).status ≠ .active := fun row => by simp [hrem row]
      exact h.unique first
        (active_changeRow hhldr hnot hfst hfirstActive).1 second
        (active_changeRow hhldr hnot hsec hsecondActive).1 hfirstActive
        hsecondActive heq
  | aside hrecs _ => exact ⟨hrecs ▸ h.started, hrecs ▸ h.unique⟩

theorem Changes.single (h : s.Single) (hchgs : Changes owner s t) : t.Single := by
  induction hchgs with
  | refl => exact h
  | tail _ hchg ih => exact hchg.single ih

end Single

/-! ### Histories -/

/-- What a store can become.  Any operation may be carried out; one whose transaction fails leaves
the tables as they were, and the next identifiers and times may be any. -/
inductive Reaches (env : Env) : Session → Prop where
  | opened (uuids : Nat → Uuid) (clock : Nat → String) : Reaches env ⟨.empty, uuids, clock⟩
  | performed {t : Session} (h : Reaches env t) (operation : Operation) :
      Reaches env (operation.perform env t).2
  | failed {t : Session} (h : Reaches env t) (uuids : Nat → Uuid) (clock : Nat → String) :
      Reaches env ⟨t.store, uuids, clock⟩

namespace Reaches

variable {env : Env} {t : Session}

/-- What an operation does to the tables, whether it succeeds or fails. -/
theorem perform_effect (env : Env) (hval : t.store.Valid) (operation : Operation) :
    ∃ owner, operation.actor.May owner ∧
      Effect owner t.store (operation.perform env t).2.store ∨
      (operation.perform env t).2.store = t.store := by
  refine Prog.Wp.final (P := fun t' : Session => ∃ owner, operation.actor.May owner ∧
    Effect owner t.store t'.store ∨ t'.store = t.store) ?_
  refine Prog.wp_mono (wp_perform hval operation) ?_ ?_
  · rintro outcome t' ⟨owner, hmay, -, heff⟩
    exact ⟨owner, .inl ⟨hmay, heff⟩⟩
  · rintro e t' rfl
    exact ⟨"", .inr rfl⟩

theorem valid (h : Reaches env t) : t.store.Valid := by
  induction h with
  | opened => exact Store.valid_empty
  | performed _ operation ih =>
    obtain ⟨owner, ⟨-, heff⟩ | hsame⟩ := perform_effect env ih operation
    · exact heff.changes.valid ih
    · exact hsame ▸ ih
  | failed _ _ _ ih => exact ih

theorem single (h : Reaches env t) : t.store.Single := by
  induction h with
  | opened => exact Store.single_empty
  | performed hbef operation ih =>
    obtain ⟨owner, ⟨-, heff⟩ | hsame⟩ := perform_effect env hbef.valid operation
    · exact heff.changes.single ih
    · exact hsame ▸ ih
  | failed _ _ _ ih => exact ih

theorem chained (h : Reaches env t) (hsml : t.store.Small) : t.store.Chained := by
  induction h with
  | opened => exact Store.chained_empty
  | performed hbef operation ih =>
    obtain ⟨owner, ⟨-, heff⟩ | hsame⟩ := perform_effect env hbef.valid operation
    · refine heff.changes.chained hbef.valid (ih fun memoryId => ?_) hsml
      exact Nat.lt_of_le_of_lt (heff.changes.length_le memoryId) (hsml memoryId)
    · rw [hsame] at hsml ⊢
      exact ih hsml
  | failed _ _ _ ih => exact ih hsml

end Reaches

end Wardian.Memory
