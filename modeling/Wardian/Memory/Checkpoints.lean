/-
What a compiled brief says of the store.

A brief is made of the memories in force and of the checkpoint that the process had before.  The
rows of a checkpoint stay in the store, so that a brief can always be compiled, and what it tells
can be read off from the two lists of memories.

Main results:

* `wp_draftBrief` — what a brief is made of;
* `wp_recordInjection` — what a checkpoint is made of.
-/

import Wardian.Memory.History
import Wardian.Memory.Selection

set_option autoImplicit false

namespace Wardian.Memory

open List
open MemoryM
open Prog (Wp wp_atomically wp_bind wp_get wp_ite wp_modify wp_ofExcept_of wp_pure)

/-! ### Recall -/

/-- The workspace that a recall looks in; its name is normalised twice. -/
def recallScope (env : BriefEnv) (workspace : Option String) : Option String :=
  env.normalizeWorkspace (env.normalizeWorkspace workspace)

/-- The revision is in force for the agent in the workspace, and its evidence is intact. -/
structure InForce (env : BriefEnv) (s : Store) (agentId : String) (workspace : Option String)
    (row : MemoryRow) : Prop where
  mem : row ∈ s.records
  scope : row.inScope agentId (recallScope env workspace) = true
  evidence : env.hashText row.evidenceExcerpt = row.evidenceHash

/-- The memories that are in force, each once. -/
structure Lists (env : BriefEnv) (s : Store) (agentId : String) (workspace : Option String)
    (records : List MemoryRecord) : Prop where
  inForce : ∀ record ∈ records, InForce env s agentId workspace record.toMemoryRow
  all : ∀ row, InForce env s agentId workspace row →
    ∃ record ∈ records, record.toMemoryRow = row
  nodup : (records.map (·.memoryId)).Nodup

section Recall

variable {env : BriefEnv} {actor : MemoryActor} {t : Session} {R : MemoryError → Session → Prop}

variable {agentId : String} {workspace : Option String} {records : List MemoryRecord}

/-- What is listed for an agent, after those with broken evidence have been passed over. -/
theorem lists_listActive {s : Store} {owner : String} (hval : s.Valid) (hsngl : s.Single)
    (hown : actor.authorizeSubject agentId = .ok owner)
    (h : listActive env.toEnv s actor agentId (env.normalizeWorkspace workspace) = .ok records) :
    Lists env s owner workspace (records.filter fun record =>
      env.hashText record.evidenceExcerpt = record.evidenceHash) := by
  obtain ⟨owner', hown', h⟩ := Results.bind_eq_ok.1 h
  rw [hown] at hown'
  cases hown'
  rw [← Except.ok.inj h]
  obtain ⟨rows, hrows⟩ : ∃ rows, rows =
    (s.records.filter (·.inScope owner (recallScope env workspace))).mergeSort
      fun left right => left.order ≤ right.order := ⟨_, rfl⟩
  have hmem : ∀ row, row ∈ rows ↔
      row ∈ s.records ∧ row.inScope owner (recallScope env workspace) = true := by
    intro row
    rw [hrows, (mergeSort_perm _ _).mem_iff, mem_filter]
  have hndp : (rows.map (·.memoryId)).Nodup := by
    refine Nodup.map_on ?_ ?_
    · intro row hrow other hoth heq
      obtain ⟨hrow, hscp⟩ := (hmem row).1 hrow
      obtain ⟨hoth, hscp'⟩ := (hmem other).1 hoth
      simp only [MemoryRow.inScope, Bool.and_eq_true, decide_eq_true_eq] at hscp hscp'
      exact hsngl.unique row hrow other hoth hscp.1.2 hscp'.1.2 heq
    · rw [hrows, (mergeSort_perm _ _).nodup_iff]
      exact (Nodup.of_map _ hval.ids).filter _
  change Lists env s owner workspace ((List.map s.attachSources (mergeSort _ _)).filter _)
  rw [show (mergeSort (s.records.filter (·.inScope owner
    (env.normalizeWorkspace (env.normalizeWorkspace workspace)))) fun left right =>
      decide (left.order ≤ right.order)) = rows from hrows.symm]
  refine ⟨?_, ?_, ?_⟩
  · intro record hrec
    obtain ⟨hrec, hevi⟩ := mem_filter.1 hrec
    obtain ⟨row, hrow, rfl⟩ := mem_map.1 hrec
    obtain ⟨hrow, hscp⟩ := (hmem row).1 hrow
    exact ⟨hrow, hscp, of_decide_eq_true hevi⟩
  · intro row hrow
    refine ⟨s.attachSources row, mem_filter.2 ⟨mem_map_of_mem ?_, ?_⟩, rfl⟩
    · exact (hmem row).2 ⟨hrow.mem, hrow.scope⟩
    · exact decide_eq_true hrow.evidence
  · refine Nodup.sublist (filter_sublist.map _) ?_
    rw [map_map]
    exact hndp

theorem Lists.perm {s : Store} {records' : List MemoryRecord} (h : Lists env s agentId workspace records)
    (hperm : records'.Perm records) : Lists env s agentId workspace records' := by
  refine ⟨fun record hrec => h.inForce record (hperm.mem_iff.1 hrec), fun row hrow => ?_,
    (hperm.map _).nodup_iff.2 h.nodup⟩
  obtain ⟨record, hrec, heq⟩ := h.all row hrow
  exact ⟨record, hperm.mem_iff.2 hrec, heq⟩

theorem wp_recall {Q : RecallResult → Session → Prop} (hval : t.store.Valid) (hsngl : t.store.Single)
    (hok : ∀ owner recalled, actor.authorizeSubject agentId = .ok owner →
      Lists env t.store owner workspace
        ((recalled.stable ++ recalled.current).map (·.record)) → Q recalled t.tick)
    (herr : ∀ e t', actor.authorizeSubject agentId = .error e → R e t') :
    Wp (recallMemories env actor agentId workspace) Q R t := by
  unfold recallMemories
  simp only
  rw [wp_bind, wp_now, wp_bind]
  refine wp_ofExcept_of (fun owner hown => ?_) fun e he => herr e _ he
  rw [wp_bind, wp_store, wp_bind]
  refine wp_ofExcept_of (fun records hrecs => ?_) fun e he => ?_
  · rw [wp_pure]
    refine hok owner _ hown ((lists_listActive hval hsngl hown hrecs).perm ?_)
    -- stable memories and current states are all there are
    obtain ⟨entries, hents⟩ : ∃ entries, entries = (records.filter fun record =>
      env.hashText record.evidenceExcerpt = record.evidenceHash).map fun record =>
        (⟨record, briefRecordIsStale env record.toMemoryRow (t.clock 0)⟩ : RecallEntry) := ⟨_, rfl⟩
    have hspl : (entries.filter (·.record.kind = .stable) ++
        entries.filter (·.record.kind = .current)).Perm entries := by
      have hnot : (entries.filter fun entry => decide (entry.record.kind = .current)) =
          entries.filter fun entry => !decide (entry.record.kind = .stable) := by
        refine filter_congr fun entry _ => ?_
        cases entry.record.kind <;> rfl
      rw [hnot]
      exact filter_append_perm _ _
    have hmap := hspl.map (·.record)
    have hrec : entries.map (·.record) = records.filter fun record =>
        env.hashText record.evidenceExcerpt = record.evidenceHash := by
      rw [hents, map_map]
      exact map_id _
    rw [hrec] at hmap
    rw [← hents]
    exact hmap
  · unfold listActive at he
    rw [hown] at he
    cases he

end Recall

/-! ### Changes -/

/-- The revision of a memory in a list. -/
def revisionOf (records : List MemoryRecord) (memoryId : String) : Option String :=
  (records.reverse.find? (·.memoryId = memoryId)).map (·.revisionId)

/-- The memory and the revision, which is all that a brief takes from a checkpoint. -/
def MemoryRecord.key (record : MemoryRecord) : String × String :=
  (record.memoryId, record.revisionId)

section Delta

variable {previous previous' active records : List MemoryRecord} {record : MemoryRecord}
  {memoryId revisionId : String}

theorem revisionOf_eq_none :
    revisionOf records memoryId = none ↔ ∀ record ∈ records, record.memoryId ≠ memoryId := by
  simp [revisionOf]

theorem exists_of_revisionOf (h : revisionOf records memoryId = some revisionId) :
    ∃ record ∈ records, record.memoryId = memoryId ∧ record.revisionId = revisionId := by
  obtain ⟨record, hfnd, hrev⟩ := Option.map_eq_some_iff.1 h
  exact ⟨record, mem_reverse.1 (mem_of_find?_eq_some hfnd),
    by simpa using find?_some hfnd, hrev⟩

/-- In a list that names every memory once, the revision of a memory is that of its record. -/
theorem revisionOf_mem (hndp : (records.map (·.memoryId)).Nodup) (hmem : record ∈ records) :
    revisionOf records record.memoryId = some record.revisionId := by
  cases hfnd : revisionOf records record.memoryId with
  | none => exact absurd rfl (revisionOf_eq_none.1 hfnd record hmem)
  | some revisionId =>
    obtain ⟨other, hoth, hmry, hrev⟩ := exists_of_revisionOf hfnd
    rw [inj_on_of_nodup_map hndp hoth hmem hmry] at hrev
    rw [hrev]

/-- What has changed depends on the keys of the checkpoint only. -/
theorem briefDelta_congr (h : previous.map (·.key) = previous'.map (·.key)) :
    briefDelta previous active = briefDelta previous' active := by
  -- both lists of the delta are functions of the keys
  have hrem : ∀ records : List MemoryRecord, (records.filter fun record =>
      !active.any (·.memoryId = record.memoryId)).map (·.memoryId) =
        ((records.map (·.key)).filter fun key => !active.any (·.memoryId = key.1)).map (·.1) := by
    intro records
    rw [filter_map, map_map]
    rfl
  have hprior : ∀ (records : List MemoryRecord) (record : MemoryRecord),
      (records.reverse.find? (·.memoryId = record.memoryId)).all (·.revisionId ≠ record.revisionId) =
        ((records.map (·.key)).reverse.find? (·.1 = record.memoryId)).all
          (·.2 ≠ record.revisionId) := by
    intro records record
    rw [← map_reverse, find?_map, Option.all_map]
    rfl
  unfold briefDelta
  simp only [hrem previous, hrem previous', hprior previous, hprior previous', h]

theorem mem_briefDelta_fst : record ∈ (briefDelta previous active).1 → record ∈ active := by
  unfold briefDelta
  simp only
  split
  · exact id
  · exact fun h => (mem_filter.1 h).1

theorem changed_of_revisionOf (hmem : record ∈ active)
    (hne : revisionOf previous record.memoryId ≠ some record.revisionId) :
    record ∈ (briefDelta previous active).1 := by
  unfold briefDelta
  simp only
  split
  · exact hmem
  · refine mem_filter.2 ⟨hmem, ?_⟩
    unfold revisionOf at hne
    cases hfnd : previous.reverse.find? (·.memoryId = record.memoryId) with
    | none => rfl
    | some prior =>
      rw [hfnd] at hne
      exact decide_eq_true fun heq => hne (congrArg some heq)

/-- **When nothing has changed, all that is in force is told again.** -/
theorem briefDelta_of_unchanged
    (hsame : ∀ record ∈ active, revisionOf previous record.memoryId = some record.revisionId)
    (hin : ∀ record ∈ previous, ∃ other ∈ active, other.memoryId = record.memoryId) :
    (briefDelta previous active).1 = active := by
  unfold briefDelta
  refine if_pos ?_
  rw [Bool.and_eq_true, List.isEmpty_iff, List.isEmpty_iff, map_eq_nil_iff,
    filter_eq_nil_iff, filter_eq_nil_iff]
  constructor
  · intro record hrec
    obtain ⟨prior, hprior, hrev⟩ := Option.map_eq_some_iff.1 (hsame record hrec)
    simp [hprior, hrev]
  · intro record hrec
    obtain ⟨other, hoth, hmry⟩ := hin record hrec
    simpa using ⟨other, hoth, hmry⟩

theorem mem_briefDelta_snd : memoryId ∈ (briefDelta previous active).2 ↔
    (∃ record ∈ previous, record.memoryId = memoryId) ∧
      ∀ record ∈ active, record.memoryId ≠ memoryId := by
  unfold briefDelta
  simp only [mem_map, mem_filter, Bool.not_eq_true', any_eq_false,
    decide_eq_true_eq]
  constructor
  · rintro ⟨record, ⟨hmem, hnone⟩, rfl⟩
    exact ⟨⟨record, hmem, rfl⟩, hnone⟩
  · rintro ⟨⟨record, hmem, rfl⟩, hnone⟩
    exact ⟨record, ⟨hmem, hnone⟩, rfl⟩

end Delta

/-- A brief tells all that is in force when there is none before it, and else what has changed. -/
def Follows (previous : Option BriefDraft) (draft : BriefDraft) : Prop :=
  match previous with
  | none => draft.changed = draft.allActive ∧ draft.removed = []
  | some previous =>
    (draft.changed, draft.removed) = briefDelta previous.allActive draft.allActive

/-- The revisions of a checkpoint are in the store, and belong to the memories they belonged to. -/
def Kept (s : Store) (draft : BriefDraft) : Prop :=
  ∀ record ∈ draft.allActive, ∃ row ∈ s.records,
    row.revisionId = record.revisionId ∧ row.memoryId = record.memoryId

/-! ### Programs over the desk -/

section Desk

variable {env : BriefEnv} {actor : MemoryActor} {d : Desk} {R : MemoryError → Desk → Prop}

@[simp] theorem wp_memory {α : Type} {m : MemoryM α} {Q : α → Desk → Prop} :
    Wp (DeskM.memory m) Q R d ↔ Wp m (fun a t => Q a { d with session := t })
      (fun e t => R e { d with session := t }) d.session := by
  unfold Wp DeskM.memory
  rcases m d.session with ⟨a | e, t⟩ <;> exact Iff.rfl

variable {S : MemoryError → Session → Prop}

theorem wp_memoryFingerprint {t : Session} {records : List MemoryRecord} {Q : String → Session → Prop}
    (hok : ∀ fingerprint, Q fingerprint t.tick) : Wp (memoryFingerprint env records) Q S t := by
  unfold memoryFingerprint
  rw [wp_bind, wp_now, wp_pure]
  exact hok _

theorem wp_recordsByRevisionIds {t : Session}
    (hval : t.store.Valid) {previous : List MemoryRecord} {Q : List MemoryRecord → Session → Prop}
    (hkept : ∀ record ∈ previous, ∃ row ∈ t.store.records,
      row.revisionId = record.revisionId ∧ row.memoryId = record.memoryId)
    (hok : ∀ records, records.map (·.key) = previous.map (·.key) → Q records t) :
    Wp (recordsByRevisionIds (previous.map (·.revisionId))) Q S t := by
  induction previous generalizing Q with
  | nil => exact hok [] rfl
  | cons record previous ih =>
    obtain ⟨row, hrow, hid, hmry⟩ := hkept record mem_cons_self
    have hfind : t.store.records.find? (·.revisionId = record.revisionId) = some row := by
      cases hfnd : t.store.records.find? (·.revisionId = record.revisionId) with
      | none =>
        exact absurd (decide_eq_true hid) (by simpa using find?_eq_none.1 hfnd row hrow)
      | some other =>
        have hoth : other.revisionId = record.revisionId := by
          simpa using find?_some hfnd
        rw [hval.eq_of_id (mem_of_find?_eq_some hfnd) hrow (hoth.trans hid.symm)]
    rw [map_cons]
    unfold recordsByRevisionIds getRevision
    rw [wp_bind, wp_bind, wp_store, hfind]
    change Wp (_ >>= _) Q S t
    rw [wp_bind]
    refine ih (fun other hoth => hkept other (mem_cons_of_mem _ hoth))
      fun records hrecs => ?_
    refine hok _ ?_
    rw [map_cons, map_cons, hrecs]
    congr 1
    unfold MemoryRecord.key
    rw [← hid, ← hmry]
    rfl

/-- The process that a brief is for. -/
structure Process where
  agentId : String
  provider : String
  processKey : String

/-- The row is a checkpoint of the process. -/
def Process.has (p : Process) (row : InjectionRow) : Bool :=
  row.agentId = p.agentId && row.provider = p.provider && row.providerProcessKey = p.processKey

/-- The checkpoint that a brief of the process is compared with. -/
def Process.checkpoint (p : Process) (injections : List InjectionRow) (resumed : Bool) :
    Option InjectionRow :=
  if resumed then latestInjection injections p.agentId p.provider p.processKey else none

variable {p : Process}

variable {workspace : Option String}

/-- **What a brief is made of**: the memories in force, and what is new among them. -/
theorem wp_draftBrief {resumed : Bool} {previous : Option BriefDraft} {Q : BriefDraft → Desk → Prop}
    (hval : d.session.store.Valid) (hsngl : d.session.store.Single)
    (hcp : (p.checkpoint d.injections resumed).map (·.revisionIds) = previous.map (·.revisionIds))
    (hkept : ∀ draft ∈ previous, Kept d.session.store draft)
    (hok : ∀ owner draft t', actor.authorizeSubject p.agentId = .ok owner →
      t'.store = d.session.store → Lists env d.session.store owner workspace draft.allActive →
      Follows previous draft → Q draft { d with session := t' })
    (herr : ∀ e d', actor.authorizeSubject p.agentId = .error e → R e d') :
    Wp (draftBrief env actor p.agentId workspace p.provider p.processKey resumed) Q R d := by
  unfold draftBrief
  rw [wp_bind]
  refine wp_ofExcept_of (fun owner hown => ?_) fun e he => herr e _ he
  rw [wp_bind, wp_memory]
  refine wp_recall hval hsngl (fun owner' recalled hown' hlst => ?_)
    fun e _ he => herr e _ he
  rw [hown] at hown'
  cases hown'
  rw [wp_bind, wp_memory]
  refine wp_memoryFingerprint fun fingerprint => ?_
  rw [wp_bind, wp_get]
  unfold Process.checkpoint at hcp
  cases hfnd : (if resumed = true then
      latestInjection d.injections p.agentId p.provider p.processKey else none) with
  | none =>
    rw [hfnd] at hcp
    have hnone : previous = none := by
      cases previous with
      | none => rfl
      | some previous => cases hcp
    subst hnone
    exact hok owner _ _ hown rfl hlst ⟨rfl, rfl⟩
  | some row =>
    rw [hfnd] at hcp
    cases previous with
    | none => cases hcp
    | some previous =>
      have hids : row.revisionIds = previous.allActive.map (·.revisionId) :=
        Option.some.inj hcp
      change Wp (_ >>= _) Q R _
      rw [wp_bind, wp_memory, hids]
      refine wp_recordsByRevisionIds (t := d.session.tick.tick) hval (hkept previous rfl)
        fun records hrecs => ?_
      refine hok owner _ _ hown rfl hlst ?_
      change (_, _) = briefDelta previous.allActive _
      rw [← briefDelta_congr hrecs]

/-- **What a checkpoint is made of**: the row of an injection, and nothing else that is in force. -/
theorem wp_recordInjection {agentId provider processKey : String} {brief : CompiledMemoryBrief}
    {Q : Option String → Desk → Prop} (hnone : brief.isEmpty = true → Q none d)
    (hok : ∀ owner row t', actor.authorizeSubject agentId = .ok owner → row.agentId = owner →
      row.provider = provider → row.providerProcessKey = processKey →
      row.revisionIds = brief.revisionIds → t'.store.records = d.session.store.records →
      t'.store.sources = d.session.store.sources →
      Q (some row.injectionId) ⟨t', d.injections ++ [row]⟩) (herr : ∀ e, R e d) :
    Wp (recordInjection env actor agentId workspace provider processKey brief) Q R d := by
  unfold recordInjection
  rw [wp_bind]
  refine wp_ofExcept_of (fun owner hown => ?_) fun e _ => herr e
  refine wp_ite hnone fun _ => wp_atomically ?_
  rw [wp_bind, wp_memory, wp_newUuid, wp_bind, wp_memory, wp_now, wp_bind]
  unfold insertInjection
  rw [wp_bind, wp_get]
  refine wp_ite (fun _ => herr _) fun _ => ?_
  rw [wp_modify, wp_bind, wp_memory]
  refine wp_insertEvent (fun _ => ?_) fun _ e _ => herr e
  exact hok owner ⟨_, owner, _, provider, processKey, brief.fingerprint, brief.revisionIds, _, _⟩ _
    hown rfl rfl rfl rfl rfl rfl

end Desk

end Wardian.Memory
