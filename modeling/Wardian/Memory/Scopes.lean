/-
What is saved in a workspace and what is recalled there.

A memory is stored under the normalised name of its workspace.  The memories of a workspace are listed by
its normalised name, and recalled by the name that has been normalised twice.

Main results:

* `mem_listActive`, `recall_eq` — what is listed and recalled;
* `roundTrips_iff_settled` — the memories of a workspace are recalled exactly where its name is settled.
-/

import Wardian.Memory.Chains
import Wardian.Memory.Resumes
import Wardian.Memory.Workspaces

set_option autoImplicit false

namespace Wardian.Memory

open List
open MemoryM
open Prog (Wp wp_atomically wp_bind wp_ofExcept_of wp_ofExcept_ok wp_pure)

/-! ### What is listed and recalled -/

/-- Whether the evidence of a memory is what was stored. -/
def Env.intact (env : Env) (row : MemoryRow) : Bool :=
  env.hashText row.evidenceExcerpt = row.evidenceHash

variable {env : Env} {actor : MemoryActor} {agentId : String}

theorem mem_listActive {s : Store} {owner : String} {workspace : Option String} {listed : List MemoryRecord}
    (hown : actor.authorizeSubject agentId = .ok owner)
    (h : listActive env s actor agentId workspace = .ok listed) (record : MemoryRecord) :
    record ∈ listed ↔ ∃ row ∈ s.records,
      row.inScope owner (env.normalizeWorkspace workspace) = true ∧ record = s.attachSources row := by
  obtain ⟨owner', hown', h⟩ := Results.bind_eq_ok.1 h
  rw [hown] at hown'
  cases hown'
  rw [← Except.ok.inj h, mem_map]
  constructor
  · rintro ⟨row, hrow, rfl⟩
    rw [(mergeSort_perm _ _).mem_iff, mem_filter] at hrow
    exact ⟨row, hrow.1, hrow.2, rfl⟩
  · rintro ⟨row, hmem, hscp, rfl⟩
    refine ⟨row, ?_, rfl⟩
    rw [(mergeSort_perm _ _).mem_iff, mem_filter]
    exact ⟨hmem, hscp⟩

theorem listActive_ok (env : Env) (s : Store) {owner : String}
    (workspace : Option String) (hown : actor.authorizeSubject agentId = .ok owner) :
    ∃ listed, listActive env s actor agentId workspace = .ok listed :=
  ⟨_, Results.bind_eq_ok.2 ⟨owner, hown, rfl⟩⟩

def recallEntry (env : BriefEnv) (staleBefore : String) (record : MemoryRecord) : RecallEntry :=
  ⟨record, briefRecordIsStale env record.toMemoryRow staleBefore⟩

/-- What a recall makes of the memories that are listed. -/
def recallOf (env : BriefEnv) (agentId : String) (workspace : Option String) (staleBefore : String)
    (records : List MemoryRecord) : RecallResult :=
  let entries := (records.filter fun record =>
    env.hashText record.evidenceExcerpt = record.evidenceHash).map (recallEntry env staleBefore)
  { agentId := agentId
    workspace := workspace
    stable := entries.filter (·.record.kind = .stable)
    current := entries.filter (·.record.kind = .current) }

def RecallResult.records (result : RecallResult) : List MemoryRecord :=
  (result.stable ++ result.current).map (·.record)

theorem mem_recallOf (env : BriefEnv) (agentId : String) (workspace : Option String)
    (staleBefore : String) (records : List MemoryRecord) (record : MemoryRecord) :
    record ∈ (recallOf env agentId workspace staleBefore records).records ↔
      record ∈ records ∧ env.intact record.toMemoryRow = true := by
  unfold RecallResult.records recallOf Env.intact
  dsimp only
  rw [map_append, mem_append]
  constructor
  · rintro (h | h)
    · obtain ⟨entry, hent, rfl⟩ := mem_map.1 h
      obtain ⟨found, hfnd, rfl⟩ := mem_map.1 (mem_filter.1 hent).1
      exact mem_filter.1 hfnd
    · obtain ⟨entry, hent, rfl⟩ := mem_map.1 h
      obtain ⟨found, hfnd, rfl⟩ := mem_map.1 (mem_filter.1 hent).1
      exact mem_filter.1 hfnd
  · rintro ⟨hmem, hint⟩
    have hfnd : record ∈ records.filter fun record =>
        env.hashText record.evidenceExcerpt = record.evidenceHash := mem_filter.2 ⟨hmem, hint⟩
    have hent := mem_map_of_mem (f := recallEntry env staleBefore) hfnd
    cases hkind : record.kind with
    | stable =>
      exact .inl (mem_map.2 ⟨_, mem_filter.2 ⟨hent, decide_eq_true hkind⟩, rfl⟩)
    | current =>
      exact .inr (mem_map.2 ⟨_, mem_filter.2 ⟨hent, decide_eq_true hkind⟩, rfl⟩)

/-- A recall lists what is in force under the normalised name of the workspace. -/
theorem recall_eq (env : BriefEnv) (actor : MemoryActor) (agentId : String)
    (workspace : Option String) (t : Session) :
    (recallMemories env actor agentId workspace t).1 =
      (listActive env.toEnv t.store actor agentId (env.normalizeWorkspace workspace)).map
        (recallOf env agentId (env.normalizeWorkspace workspace) (t.clock 0)) := by
  obtain ⟨result, hres⟩ : ∃ result, result =
    (listActive env.toEnv t.store actor agentId (env.normalizeWorkspace workspace)).map
      (recallOf env agentId (env.normalizeWorkspace workspace) (t.clock 0)) := ⟨_, rfl⟩
  have hwp : Wp (recallMemories env actor agentId workspace) (fun recalled _ => .ok recalled = result)
      (fun e _ => .error e = result) t := by
    unfold recallMemories
    dsimp only
    rw [wp_bind, wp_now, wp_bind]
    refine wp_ofExcept_of (fun owner hown => ?_) fun e he => ?_
    · rw [wp_bind, wp_store, wp_bind]
      refine wp_ofExcept_of (fun records hrecs => ?_) fun e he => ?_
      · rw [wp_pure, hres]
        change listActive env.toEnv t.store actor agentId _ = _ at hrecs
        rw [hrecs]
        rfl
      · change listActive env.toEnv t.store actor agentId _ = _ at he
        rw [hres, he]
        rfl
    · rw [hres]
      unfold listActive
      rw [he]
      rfl
  rw [← hres]
  rcases hrun : recallMemories env actor agentId workspace t with ⟨e | recalled, t'⟩
  · exact hwp.of_error hrun
  · exact hwp.of_ok hrun

/-! ### Sessions -/

/-- The sessions that follow a session. -/
inductive Continues (env : Env) (start : Session) : Session → Prop
  | here : Continues env start start
  | performed {t : Session} (h : Continues env start t) (operation : Operation) :
      Continues env start (operation.perform env t).2
  | failed {t : Session} (h : Continues env start t) (uuids : Nat → Uuid) (clock : Nat → String) :
      Continues env start ⟨t.store, uuids, clock⟩

variable {t : Session}

theorem Continues.reaches {start : Session} (hstart : Reaches env start)
    (h : Continues env start t) : Reaches env t := by
  induction h with
  | here => exact hstart
  | performed _ operation ih => exact ih.performed operation
  | failed _ uuids clock ih => exact ih.failed uuids clock

variable {row : MemoryRow}

theorem Continues.kept {start : Session} (hstart : Reaches env start) (h : Continues env start t)
    (hrow : row ∈ start.store.records) : ∃ later ∈ t.store.records, MemoryRow.Same row later := by
  induction h with
  | here => exact ⟨row, hrow, .refl row⟩
  | performed hbef operation ih =>
    obtain ⟨later, hltr, hsame⟩ := ih
    obtain ⟨owner, ⟨-, heff⟩ | hsto⟩ :=
      Reaches.perform_effect env (hbef.reaches hstart).valid operation
    · obtain ⟨⟨last, hlast, hsame'⟩, -⟩ := heff.changes.kept hltr
      exact ⟨last, hlast, hsame.trans hsame'⟩
    · exact ⟨later, hsto ▸ hltr, hsame⟩
  | failed _ _ _ ih => exact ih

/-! ### Saving -/

theorem Store.idempotentRecord_mem {s : Store} {key : Option String}
    (h : s.idempotentRecord actor key = .ok (some row)) : row ∈ s.records := by
  cases key with
  | none => cases h
  | some key =>
    unfold idempotentRecord at h
    obtain ⟨holder, -, h⟩ := Results.bind_eq_ok.1 h
    split at h
    next found _ hfnd =>
      split at h
      · cases h
      · obtain rfl := Option.some.inj (Except.ok.inj h)
        exact mem_of_find?_eq_some hfnd
    next => exact mem_of_find?_eq_some (Except.ok.inj h)

theorem wp_save_row {request : SaveMemoryRequest} :
    Wp ((Operation.save actor request).perform env)
      (fun outcome t' => ∃ record owner, outcome = .record record ∧
        actor.authorizeSubject request.agentId = .ok owner ∧
          ∃ row ∈ t'.store.records, row.revisionId = record.revisionId ∧ row.agentId = owner ∧
            row.workspace = env.normalizeWorkspace request.workspace)
      (fun _ _ => True) t := by
  unfold Operation.perform
  rw [wp_bind]
  refine wp_save (fun form row hform hexi hagrees => ?_) (fun form t' hform _ hwrt => ?_)
    fun _ => trivial
  · exact ⟨_, form.agentId, rfl, hform.agentId, row, Store.idempotentRecord_mem hexi, rfl,
      hagrees.agentId, hagrees.workspace⟩
  · obtain ⟨-, stored, event, -, hsto⟩ := hwrt
    refine ⟨_, form.agentId, rfl, hform.agentId, form.row env request t, ?_, rfl, rfl, rfl⟩
    rw [hsto]
    exact mem_append_right _ (mem_singleton.2 rfl)

/-- A revision that was saved under the name of a workspace, and is in force with its evidence. -/
structure SavedUnder (env : Env) (actor : MemoryActor) (agentId workspace : String) (row : MemoryRow)
    (t : Session) : Prop where
  saved : ∃ before request record, Reaches env before ∧ request.agentId = agentId ∧
    request.workspace = some workspace ∧
    ((Operation.save actor request).perform env before).1 = .ok (.record record) ∧
    Continues env ((Operation.save actor request).perform env before).2 t ∧
    row.revisionId = record.revisionId
  stored : row ∈ t.store.records
  active : row.status = .active
  evidence : env.intact row = true

theorem SavedUnder.scope {workspace : String} (h : SavedUnder env actor agentId workspace row t) :
    Reaches env t ∧ ∃ owner, actor.authorizeSubject agentId = .ok owner ∧ row.agentId = owner ∧
      row.workspace = env.normalizeWorkspace (some workspace) := by
  obtain ⟨before, request, record, hbef, hagt, hwork, hsvd, hconts, hid⟩ := h.saved
  have hstart : Reaches env ((Operation.save actor request).perform env before).2 := hbef.performed _
  have hrchs := hconts.reaches hstart
  obtain ⟨found, owner, hfnd, hown, first, hfst, hfirstId, hfirstOwner, hfirstWorkspace⟩ :=
    (@wp_save_row env actor before request).of_ok (Prod.ext hsvd rfl)
  obtain rfl := Outcome.record.inj hfnd
  obtain ⟨later, hltr, hsame⟩ := hconts.kept hstart hfst
  have hrow : row = later := by
    refine hrchs.valid.eq_of_id h.stored hltr ?_
    obtain ⟨_, _, _, rfl⟩ := hsame
    exact hid.trans hfirstId.symm
  obtain ⟨_, _, _, rfl⟩ := hsame
  refine ⟨hrchs, owner, hagt ▸ hown, ?_, ?_⟩
  · rw [hrow]
    exact hfirstOwner
  · rw [hrow, ← hwork]
    exact hfirstWorkspace

/-! ### The round trip -/

/-- What is saved under the name of a workspace is listed and recalled under that name, and there is
recalled what is listed, as far as its evidence is intact. -/
def RoundTrips (env : BriefEnv) (workspace : String) : Prop :=
  (∀ actor agentId row t, SavedUnder env.toEnv actor agentId workspace row t →
      (∃ listed, listActive env.toEnv t.store actor agentId (some workspace) = .ok listed ∧
        t.store.attachSources row ∈ listed) ∧
      ∃ recalled, (recallMemories env actor agentId (some workspace) t).1 = .ok recalled ∧
        t.store.attachSources row ∈ recalled.records) ∧
    ∀ t, Reaches env.toEnv t → ∀ actor agentId listed,
      listActive env.toEnv t.store actor agentId (some workspace) = .ok listed →
      ∃ recalled, (recallMemories env actor agentId (some workspace) t).1 = .ok recalled ∧
        ∀ record, record ∈ recalled.records ↔
          record ∈ listed ∧ env.intact record.toMemoryRow = true

/-- The memory of the agent that is saved into an empty store. -/
def firstRequest (workspace : String) : SaveMemoryRequest :=
  ⟨"a", some workspace, .stable, "x", "e", [], none⟩

theorem exists_savedUnder (env : Env) (workspace : String) :
    ∃ t row, SavedUnder env .operator "a" workspace row t := by
  obtain ⟨start, hstart⟩ : ∃ start : Session, start = ⟨.empty, bitsUuid, fun _ => "1"⟩ := ⟨_, rfl⟩
  have hrchs : Reaches env start := hstart ▸ .opened _ _
  have hwp : Wp ((Operation.save .operator (firstRequest workspace)).perform env)
      (fun outcome t => ∃ record, outcome = .record record ∧ ∃ row ∈ t.store.records,
        row.revisionId = record.revisionId ∧ row.status = .active ∧ env.intact row = true)
      (fun _ _ => False) start := by
    have hagt : MemoryActor.operator.authorizeSubject "a" = .ok "a" := by decide
    have htext : normalizeText "x" = .ok "x" := by decide
    have hevi : normalizeEvidence "e" = .ok "e" := by decide
    have hsrcs : normalizeSources [] = .ok [] := by decide +kernel
    unfold Operation.perform
    rw [wp_bind]
    unfold save firstRequest
    dsimp only
    rw [wp_bind, hagt, wp_ofExcept_ok, wp_bind, htext, wp_ofExcept_ok,
      wp_bind, hevi, wp_ofExcept_ok, wp_bind, hsrcs, wp_ofExcept_ok,
      wp_bind]
    refine wp_atomically ?_
    rw [wp_bind, wp_store, wp_bind]
    change Wp (Prog.ofExcept (.ok none)) _ _ _
    rw [wp_ofExcept_ok, wp_bind]
    change Wp (pure none) _ _ _
    rw [wp_pure, wp_bind]
    refine wp_writeNew rfl (fun t hwrt => ?_) fun hrfsd _ _ => ?_
    · rw [wp_pure]
      refine wp_getRevision hwrt ?_
      obtain ⟨-, stored, event, -, hsto⟩ := hwrt
      refine ⟨_, rfl, _, ?_, rfl, rfl, decide_eq_true rfl⟩
      rw [hsto]
      exact mem_append_right _ (mem_singleton.2 rfl)
    · -- nothing is in the way of the first revision
      obtain hstale | ⟨e, he⟩ | hused := hrfsd
      · refine hstale ⟨fun other hoth => ?_, fun other hoth _ => ?_, fun hsome => ?_⟩
        · rw [hstart] at hoth
          cases hoth
        · rw [hstart] at hoth
          cases hoth
        · cases hsome
      · cases he
      · refine hused fun event hmem => ?_
        rw [hstart] at hmem
        cases hmem
  rcases hrun : (Operation.save .operator (firstRequest workspace)).perform env start with ⟨e | outcome, t⟩
  · exact (hwp.of_error hrun).elim
  · obtain ⟨record, rfl, row, hrow, hid, hact, hint⟩ := hwp.of_ok hrun
    refine ⟨t, row, ⟨start, firstRequest workspace, record, hrchs, rfl, rfl, ?_, ?_, hid⟩, hrow,
      hact, hint⟩
    · rw [hrun]
    · rw [hrun]
      exact .here

theorem roundTrips_iff_twice (env : BriefEnv) (workspace : String) :
    RoundTrips env workspace ↔
      env.normalizeWorkspace (env.normalizeWorkspace (some workspace)) =
        env.normalizeWorkspace (some workspace) := by
  constructor
  · intro h
    obtain ⟨t, row, hsvd⟩ := exists_savedUnder env.toEnv workspace
    obtain ⟨-, recalled, hreca, hmem⟩ := h.1 _ _ row t hsvd
    obtain ⟨hrchs, owner, hown, hagt, hwork⟩ := hsvd.scope
    rw [recall_eq] at hreca
    obtain ⟨listed, hlstd⟩ := listActive_ok env.toEnv t.store
      (env.normalizeWorkspace (some workspace)) hown
    rw [hlstd] at hreca
    rw [← Except.ok.inj hreca, mem_recallOf, mem_listActive hown hlstd] at hmem
    obtain ⟨⟨found, -, hscp, hfnd⟩, -⟩ := hmem
    have hrow : row = found := congrArg MemoryRecord.toMemoryRow hfnd
    rw [← hrow] at hscp
    simp only [MemoryRow.inScope, Bool.and_eq_true, Bool.or_eq_true, decide_eq_true_eq] at hscp
    rw [hwork] at hscp
    rcases hscp.2 with hnone | hsame
    · rw [hnone]
      rfl
    · exact hsame.symm
  · intro htwice
    have hrecall : ∀ actor agentId (t : Session),
        (recallMemories env actor agentId (some workspace) t).1 =
          (listActive env.toEnv t.store actor agentId (some workspace)).map
            (recallOf env agentId (env.normalizeWorkspace (some workspace)) (t.clock 0)) := by
      intro actor agentId t
      rw [recall_eq]
      unfold listActive
      rw [htwice]
    refine ⟨fun actor agentId row t hsvd => ?_, fun t _ actor agentId listed hlstd => ?_⟩
    · obtain ⟨hrchs, owner, hown, hagt, hwork⟩ := hsvd.scope
      obtain ⟨listed, hlstd⟩ := listActive_ok env.toEnv t.store (some workspace) hown
      have hmem : t.store.attachSources row ∈ listed := by
        rw [mem_listActive hown hlstd]
        refine ⟨row, hsvd.stored, ?_, rfl⟩
        simp only [MemoryRow.inScope, Bool.and_eq_true, Bool.or_eq_true, decide_eq_true_eq]
        exact ⟨⟨hagt, hsvd.active⟩, .inr hwork⟩
      refine ⟨⟨listed, hlstd, hmem⟩, _, by rw [hrecall, hlstd]; rfl, ?_⟩
      rw [mem_recallOf]
      exact ⟨hmem, hsvd.evidence⟩
    · refine ⟨_, by rw [hrecall, hlstd]; rfl, fun record => ?_⟩
      rw [mem_recallOf]

/-- What is saved under the name of a workspace is listed and recalled under it, exactly where the name
is settled. -/
theorem roundTrips_iff_settled (env : BriefEnv) (workspace : String) :
    RoundTrips env workspace ↔ SettledName env.windows workspace := by
  rw [roundTrips_iff_twice]
  exact normalizeWorkspace_twice_iff env.windows workspace

/-- The memory of a directory whose name ends with a blank is not recalled under the name that a shell
completes. -/
theorem blank_slash_not_recalled : ¬RoundTrips sampleBriefEnv "/home/u/proj /" := by
  rw [roundTrips_iff_twice]
  decide

end Wardian.Memory
