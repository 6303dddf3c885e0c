/-
Recovering replacements is all-or-nothing, and can be repeated.

Whatever is on the disk when a run is cut off, the configurations that were written are the ones that hold,
and nothing else has changed; so the next run decides as the one before.  A journal is removed only after its
configuration has reached the state file and the database.

Main results:

* `recoverRecord_spec`, `recoverRecords_spec` — one journal, and all of them;
* `inv_step` — what a cut off run, a run and a completion preserve;
* `recovery_repeatable` — the next run, after any others.
-/

import Wardian.Agents.Replacement

set_option autoImplicit false

namespace Wardian.Replacement

open List

/-! ### State files in which some configurations are replaced -/

/-- The first configuration of each session for which there is another is replaced by it. -/
def overwrite (choice : String → Option AgentConfig) : List AgentConfig → List AgentConfig
  | [] => []
  | config :: configs =>
    (choice config.sessionId).getD config ::
      overwrite (fun sessionId => if sessionId = config.sessionId then none else choice sessionId) configs

/-- The configurations are those of the sessions. -/
def Keeps (choice : String → Option AgentConfig) : Prop :=
  ∀ sessionId config, choice sessionId = some config → config.sessionId = sessionId

variable {choice : String → Option AgentConfig}

theorem Keeps.without (h : Keeps choice) (other : String) :
    Keeps fun sessionId => if sessionId = other then none else choice sessionId := by
  intro sessionId config hcfg
  dsimp only at hcfg
  split at hcfg
  · cases hcfg
  · exact h sessionId config hcfg

theorem Keeps.getD (h : Keeps choice) (config : AgentConfig) :
    ((choice config.sessionId).getD config).sessionId = config.sessionId := by
  cases hchoice : choice config.sessionId with
  | none => rfl
  | some other => exact h _ _ hchoice

variable {configs : List AgentConfig}

theorem overwrite_congr {other : String → Option AgentConfig}
    (h : ∀ sessionId, choice sessionId = other sessionId) : overwrite choice configs = overwrite other configs := by
  rw [funext h]

theorem overwrite_none (configs : List AgentConfig) : overwrite (fun _ => none) configs = configs := by
  induction configs with
  | nil => rfl
  | cons config configs ih =>
    rw [overwrite]
    refine congrArg₂ List.cons rfl ((overwrite_congr fun sessionId => ?_).trans ih)
    split <;> rfl

theorem find_overwrite (h : Keeps choice) (configs : List AgentConfig)
    (sessionId : String) : (overwrite choice configs).find? (·.sessionId = sessionId) =
      (configs.find? (·.sessionId = sessionId)).map fun config => (choice sessionId).getD config := by
  induction configs generalizing choice with
  | nil => rfl
  | cons config configs ih =>
    rw [overwrite, find?_cons, find?_cons, h.getD config]
    by_cases heq : config.sessionId = sessionId
    · rw [decide_eq_true heq, heq]
      rfl
    · rw [decide_eq_false heq, ih (h.without _), if_neg (Ne.symm heq)]

theorem replaceConfig_overwrite (h : Keeps choice) {config : AgentConfig}
    (hmem : ∃ existing ∈ configs, existing.sessionId = config.sessionId) :
    replaceConfig config (overwrite choice configs) =
      some (overwrite (fun sessionId =>
        if sessionId = config.sessionId then some config else choice sessionId) configs) := by
  induction configs generalizing choice with
  | nil =>
    obtain ⟨existing, hexi, -⟩ := hmem
    exact absurd hexi not_mem_nil
  | cons first configs ih =>
    rw [overwrite, overwrite, replaceConfig, h.getD first]
    by_cases heq : first.sessionId = config.sessionId
    · rw [if_pos heq, if_pos heq]
      refine congrArg some (congrArg₂ List.cons rfl (overwrite_congr fun sessionId => ?_))
      rw [heq]
      split <;> rfl
    · have hrest : ∃ existing ∈ configs, existing.sessionId = config.sessionId := by
        obtain ⟨existing, hexi, hsame⟩ := hmem
        rcases mem_cons.1 hexi with rfl | hexi
        · exact absurd hsame heq
        · exact ⟨existing, hexi, hsame⟩
      rw [if_neg heq, if_neg heq, ih (h.without _) hrest]
      refine congrArg some (congrArg₂ List.cons rfl (overwrite_congr fun sessionId => ?_))
      by_cases hfst : sessionId = first.sessionId
      · rw [if_pos hfst, if_pos hfst, if_neg fun hcfg => heq (hfst.symm.trans hcfg)]
      · rw [if_neg hfst, if_neg hfst]

theorem forall_overwrite (h : Keeps choice) (configs : List AgentConfig) :
    Forall₂ (fun before after : AgentConfig => after.sessionId = before.sessionId ∧
      (choice before.sessionId = none → after = before)) configs (overwrite choice configs) := by
  induction configs generalizing choice with
  | nil => exact .nil
  | cons config configs ih =>
    rw [overwrite]
    refine .cons ⟨h.getD config, fun hnone => ?_⟩ ((ih (h.without _)).imp fun before after hsame => ?_)
    · rw [hnone]
      rfl
    · refine ⟨hsame.1, fun hnone => hsame.2 ?_⟩
      split
      · rfl
      · exact hnone

/-! ### What a run makes of a journal -/

section Journals

variable (archive : Archive)

/-- Whether the new configuration of a journal holds, where that can be told. -/
def forward (record : PendingAgentReplacement) : Bool := (rollForwardOf archive record).toOption.getD false

/-- The configuration that holds. -/
def decided (record : PendingAgentReplacement) : AgentConfig := (record.choose (forward archive record)).1

/-- A journal stays until what is left to do is completed. -/
def retained (record : PendingAgentReplacement) : Bool := (intentOf record (forward archive record)).isSome

def report (record : PendingAgentReplacement) : RecoveredAgentReplacement :=
  ⟨record.sessionId, record.generationId, intentOf record (forward archive record)⟩

/-- The configurations that hold. -/
def final (journals : List PendingAgentReplacement) (sessionId : String) : Option AgentConfig :=
  (journals.find? (·.sessionId = sessionId)).map (decided archive)

/-- The boundary at which a conversation was to end is in the archive index, and closed. -/
def BoundaryClosed (record : PendingAgentReplacement) : Prop :=
  ∃ conversationId, record.archiveConversationId = some conversationId ∧
    isSafePathComponent record.sessionId = true ∧ ∃ lines, archive record.sessionId = some lines ∧
      ∃ entry, some entry ∈ lines ∧ entry.conversationId = conversationId ∧ entry.status ≠ .opened

/-- The new configuration holds from the boundary on. -/
def RollsForward (record : PendingAgentReplacement) : Prop :=
  record.phase = .boundaryCommitted ∨ record.phase = .liveInstalled ∨
    (record.phase = .boundaryCommitting ∧ record.archiveExpected = true ∧ BoundaryClosed archive record)

/-- What is on the disk at first: journals of different sessions, each with configurations of its session of
which one is in the state file; the archive index that decides can be read, and the name that holds is not
that of another agent. -/
structure WellFormed (stores : Stores) : Prop where
  sessions : (stores.journals.map (·.sessionId)).Nodup
  schema : ∀ record ∈ stores.journals, record.schema = journalSchema
  configs : ∀ record ∈ stores.journals, record.originalConfig.sessionId = record.sessionId ∧
    record.replacementConfig.sessionId = record.sessionId
  state : ∀ record ∈ stores.journals, ∃ config, currentStateConfig stores record.sessionId = .ok config ∧
    (config = record.originalConfig ∨ config = record.replacementConfig)
  index : ∀ record ∈ stores.journals, record.phase = .boundaryCommitting → record.archiveExpected = true →
    ∀ lines, archive record.sessionId = some lines → none ∉ lines
  names : ∀ record ∈ stores.journals, ∀ sessionId row, stores.agents[sessionId]? = some row →
    sessionId ≠ record.sessionId → row.sessionName ≠ (decided archive record).sessionName
  distinct : ∀ record ∈ stores.journals, ∀ other ∈ stores.journals, record.sessionId ≠ other.sessionId →
    (decided archive record).sessionName ≠ (decided archive other).sessionName

end Journals

/-- The row has all that a configuration says. -/
def Carries (row : AgentRow) (config : AgentConfig) : Prop := row = rowOf config row.createdAt

/-- The row of a journal's session has the configuration that holds. -/
def RowCarries (archive : Archive) (agents : Table AgentRow) (record : PendingAgentReplacement) : Prop :=
  ∃ row, agents[record.sessionId]? = some row ∧ Carries row (decided archive record)

/-- What is on the disk after some sessions were settled: only configurations that hold were written. -/
structure Recovering (archive : Archive) (start stores : Stores) (settled : String → Prop) : Prop where
  state : ∃ written : List String,
    (∀ record ∈ start.journals, settled record.sessionId → record.sessionId ∈ written) ∧
      stores.state = overwrite (fun sessionId =>
        if sessionId ∈ written then final archive start.journals sessionId else none) start.state
  rows : ∀ sessionId, stores.agents[sessionId]? = start.agents[sessionId]? ∨
    ∃ record ∈ start.journals, record.sessionId = sessionId ∧ RowCarries archive stores.agents record
  settledRows : ∀ record ∈ start.journals, settled record.sessionId → RowCarries archive stores.agents record
  journals : ∀ record ∈ stores.journals, record ∈ start.journals
  removed : ∀ record ∈ start.journals, record ∉ stores.journals → settled record.sessionId

section Run

variable {archive : Archive} {start : Stores} {record : PendingAgentReplacement}

variable {journals : List PendingAgentReplacement} {other : PendingAgentReplacement}

theorem eq_of_session (h : (journals.map (·.sessionId)).Nodup) (hrec : record ∈ journals)
    (hoth : other ∈ journals) (heq : record.sessionId = other.sessionId) : record = other :=
  inj_on_of_nodup_map h hrec hoth heq

variable {sessionId : String}

theorem session_of_find
    (h : journals.find? (·.sessionId = sessionId) = some record) : record.sessionId = sessionId := by
  have hses := find?_some h
  exact of_decide_eq_true hses

variable {config : AgentConfig}

theorem session_of_find_state {configs : List AgentConfig}
    (h : configs.find? (·.sessionId = sessionId) = some config) : config.sessionId = sessionId := by
  have hses := find?_some h
  exact of_decide_eq_true hses

theorem final_of_mem (h : (journals.map (·.sessionId)).Nodup)
    (hmem : record ∈ journals) : final archive journals record.sessionId = some (decided archive record) := by
  unfold final
  have hfnd : (journals.find? (·.sessionId = record.sessionId)).isSome :=
    find?_isSome.2 ⟨record, hmem, decide_eq_true rfl⟩
  obtain ⟨other, hoth⟩ := Option.isSome_iff_exists.1 hfnd
  have hsame : other = record :=
    eq_of_session h (mem_of_find?_eq_some hoth) hmem (session_of_find hoth)
  rw [hoth, hsame]
  rfl

theorem final_some (h : final archive journals sessionId = some config) :
    ∃ record ∈ journals, record.sessionId = sessionId ∧ decided archive record = config := by
  obtain ⟨record, hrec, hcfg⟩ := Option.map_eq_some_iff.1 h
  exact ⟨record, mem_of_find?_eq_some hrec, session_of_find hrec, hcfg⟩

theorem WellFormed.decided_session (h : WellFormed archive start) (hmem : record ∈ start.journals) :
    (decided archive record).sessionId = record.sessionId := by
  obtain ⟨horig, hrepl⟩ := h.configs record hmem
  unfold decided PendingAgentReplacement.choose
  split
  · exact hrepl
  · exact horig

theorem WellFormed.keeps (h : WellFormed archive start) (written : List String) :
    Keeps fun sessionId => if sessionId ∈ written then final archive start.journals sessionId else none := by
  intro sessionId config hcfg
  dsimp only at hcfg
  split at hcfg
  · obtain ⟨record, hmem, rfl, rfl⟩ := final_some hcfg
    exact h.decided_session hmem
  · cases hcfg

theorem recovering_start (archive : Archive) (start : Stores) :
    Recovering archive start start fun _ => False where
  state := by
    refine ⟨[], fun record _ hfls => hfls.elim, ?_⟩
    refine ((overwrite_congr fun sessionId => ?_).trans (overwrite_none _)).symm
    exact if_neg not_mem_nil
  rows sessionId := .inl rfl
  settledRows record _ hfls := hfls.elim
  journals record hmem := hmem
  removed record hmem hnot := hnot hmem

theorem archivedBoundaryIsClosed_ok (hlns : ∀ lines, archive record.sessionId = some lines → none ∉ lines) :
    ∃ closed, archivedBoundaryIsClosed archive record = .ok closed ∧
      (closed = true ↔ BoundaryClosed archive record) := by
  unfold archivedBoundaryIsClosed BoundaryClosed
  cases hconv : record.archiveConversationId with
  | none =>
    refine ⟨false, rfl, iff_of_false Bool.false_ne_true ?_⟩
    rintro ⟨conversationId, hsome, -⟩
    cases hsome
  | some conversationId =>
    cases hsafe : isSafePathComponent record.sessionId with
    | false =>
      refine ⟨false, rfl, iff_of_false Bool.false_ne_true ?_⟩
      rintro ⟨_, -, hfls, -⟩
      cases hfls
    | true =>
      dsimp only
      rw [Bool.not_true, if_neg Bool.false_ne_true]
      cases hidx : archive record.sessionId with
      | none =>
        refine ⟨false, rfl, iff_of_false Bool.false_ne_true ?_⟩
        rintro ⟨_, -, -, lines, hsome, -⟩
        cases hsome
      | some lines =>
        dsimp only
        have hread : lines.any (·.isNone) = false := by
          rw [any_eq_false]
          intro line hline hnone
          rw [Option.isNone_iff_eq_none.1 hnone] at hline
          exact hlns lines hidx hline
        rw [hread, if_neg Bool.false_ne_true]
        refine ⟨_, rfl, ?_⟩
        rw [any_eq_true]
        constructor
        · rintro ⟨entry, hent, hmatch⟩
          rw [Bool.and_eq_true, decide_eq_true_iff, decide_eq_true_iff] at hmatch
          obtain ⟨line, hline, hsome⟩ := mem_filterMap.1 hent
          have hline' : line = some entry := hsome
          exact ⟨conversationId, rfl, rfl, lines, rfl, entry, hline' ▸ hline, hmatch⟩
        · rintro ⟨_, hid, -, _, hsome, entry, hent, hmatch⟩
          obtain rfl := Option.some.inj hid
          obtain rfl := Option.some.inj hsome
          refine ⟨entry, mem_filterMap.2 ⟨some entry, hent, rfl⟩, ?_⟩
          rw [Bool.and_eq_true, decide_eq_true_iff, decide_eq_true_iff]
          exact hmatch

theorem WellFormed.decision (h : WellFormed archive start) (hmem : record ∈ start.journals) :
    ∃ decision, rollForwardOf archive record = .ok decision ∧
      (decision = true ↔ RollsForward archive record) := by
  unfold rollForwardOf RollsForward
  cases hph : record.phase with
  | prepared | statePersisted | metadataPersisted =>
    refine ⟨false, rfl, iff_of_false Bool.false_ne_true ?_⟩
    rintro (hfls | hfls | ⟨hfls, -⟩) <;> cases hfls
  | boundaryCommitted => exact ⟨true, rfl, iff_of_true rfl (.inl rfl)⟩
  | liveInstalled => exact ⟨true, rfl, iff_of_true rfl (.inr (.inl rfl))⟩
  | boundaryCommitting =>
    cases hexpd : record.archiveExpected with
    | false =>
      refine ⟨false, rfl, iff_of_false Bool.false_ne_true ?_⟩
      rintro (hfls | hfls | ⟨-, hfls, -⟩) <;> cases hfls
    | true =>
      obtain ⟨closed, hclsd, hiff⟩ := archivedBoundaryIsClosed_ok (h.index record hmem hph hexpd)
      refine ⟨closed, hclsd, hiff.trans ⟨fun hbdry => .inr (.inr ⟨rfl, rfl, hbdry⟩), ?_⟩⟩
      rintro (hfls | hfls | ⟨-, -, hbdry⟩)
      · cases hfls
      · cases hfls
      · exact hbdry

theorem WellFormed.rollForward (h : WellFormed archive start) (hmem : record ∈ start.journals) :
    rollForwardOf archive record = .ok (forward archive record) := by
  obtain ⟨decision, hdec, -⟩ := h.decision hmem
  unfold forward
  rw [hdec]
  rfl

theorem WellFormed.forward_iff (h : WellFormed archive start) (hmem : record ∈ start.journals) :
    forward archive record = true ↔ RollsForward archive record := by
  obtain ⟨decision, hdec, hiff⟩ := h.decision hmem
  unfold forward
  rw [hdec]
  exact hiff

variable {stores : Stores} {settled : String → Prop}

/-- The configuration in the state file is one of the journal. -/
theorem Recovering.current (hwf : WellFormed archive start) (h : Recovering archive start stores settled)
    (hmem : record ∈ start.journals) : ∃ config, currentStateConfig stores record.sessionId = .ok config ∧
      (config = record.originalConfig ∨ config = record.replacementConfig) := by
  obtain ⟨config, hcfg, hone⟩ := hwf.state record hmem
  obtain ⟨written, -, hst⟩ := h.state
  unfold currentStateConfig at hcfg ⊢
  cases hfind : start.state.find? (·.sessionId = record.sessionId) with
  | none =>
    rw [hfind] at hcfg
    cases hcfg
  | some found =>
    rw [hfind] at hcfg
    obtain rfl := Except.ok.inj hcfg
    rw [hst, find_overwrite (hwf.keeps written), hfind]
    refine ⟨_, rfl, ?_⟩
    dsimp only
    by_cases hin : record.sessionId ∈ written
    · rw [if_pos hin, final_of_mem hwf.sessions hmem, Option.getD_some]
      unfold decided PendingAgentReplacement.choose
      split
      · exact .inr rfl
      · exact .inl rfl
    · rw [if_neg hin]
      exact hone

theorem Recovering.nameTaken (hwf : WellFormed archive start) (h : Recovering archive start stores settled)
    (hmem : record ∈ start.journals) :
    nameTaken stores.agents (decided archive record).sessionId (decided archive record).sessionName = false := by
  unfold Replacement.nameTaken
  rw [hwf.decided_session hmem, any_eq_false]
  rintro ⟨sessionId, row⟩ hrow htkn
  have hfnd := Table.mem_toList.1 hrow
  rw [Bool.and_eq_true, decide_eq_true_iff, decide_eq_true_iff] at htkn
  obtain ⟨hne, hname⟩ := htkn
  rcases h.rows sessionId with hsame | ⟨other, hoth, rfl, row', hrow', hcarr⟩
  · rw [hfnd] at hsame
    exact hwf.names record hmem sessionId row hsame.symm hne hname
  · rw [hfnd] at hrow'
    obtain rfl := Option.some.inj hrow'
    refine hwf.distinct other hoth record hmem hne (Eq.trans ?_ hname)
    rw [hcarr]
    rfl

/-- The configuration that holds is written to the state file. -/
theorem Recovering.write_state (hwf : WellFormed archive start) (h : Recovering archive start stores settled)
    (hmem : record ∈ start.journals) : ∃ configs,
      replaceConfig (decided archive record) stores.state = some configs ∧
        Recovering archive start { stores with state := configs } settled ∧
          ∃ written : List String, record.sessionId ∈ written ∧
            (∀ other ∈ start.journals, settled other.sessionId → other.sessionId ∈ written) ∧
              configs = overwrite (fun sessionId =>
                if sessionId ∈ written then final archive start.journals sessionId else none) start.state := by
  have hses := hwf.decided_session hmem
  obtain ⟨written, hwrt, hst⟩ := h.state
  have hthere : ∃ existing ∈ start.state, existing.sessionId = (decided archive record).sessionId := by
    obtain ⟨config, hcfg, -⟩ := hwf.state record hmem
    unfold currentStateConfig at hcfg
    cases hfind : start.state.find? (·.sessionId = record.sessionId) with
    | none =>
      rw [hfind] at hcfg
      cases hcfg
    | some found =>
      exact ⟨found, mem_of_find?_eq_some hfind, (session_of_find_state hfind).trans hses.symm⟩
  have hmore : ∀ sessionId, (if sessionId = (decided archive record).sessionId then some (decided archive record)
      else if sessionId ∈ written then final archive start.journals sessionId else none) =
        if sessionId ∈ record.sessionId :: written then final archive start.journals sessionId else none := by
    intro sessionId
    by_cases heq : sessionId = record.sessionId
    · rw [if_pos (heq.trans hses.symm), if_pos (heq ▸ mem_cons_self ..), heq,
        final_of_mem hwf.sessions hmem]
    · have hiff : sessionId ∈ record.sessionId :: written ↔ sessionId ∈ written :=
        mem_cons.trans (or_iff_right heq)
      rw [if_neg fun h => heq (h.trans hses)]
      exact if_congr hiff.symm rfl rfl
  have hrepc := replaceConfig_overwrite (hwf.keeps written) hthere
  rw [← hst, overwrite_congr hmore] at hrepc
  have hsetl : ∀ other ∈ start.journals, settled other.sessionId →
      other.sessionId ∈ record.sessionId :: written :=
    fun other hoth hin => mem_cons_of_mem _ (hwrt other hoth hin)
  refine ⟨_, hrepc, ?_, record.sessionId :: written, mem_cons_self .., hsetl, rfl⟩
  exact ⟨⟨record.sessionId :: written, hsetl, rfl⟩, h.rows, h.settledRows, h.journals, h.removed⟩

variable {agents : Table AgentRow}

theorem upsertAgent_ok (now : String)
    (createdAt : Option String) (hfree : Replacement.nameTaken agents config.sessionId config.sessionName = false) :
    ∃ made, upsertAgent agents now config createdAt = some (agents.insert config.sessionId (rowOf config made)) := by
  unfold upsertAgent
  rw [hfree]
  cases agents[config.sessionId]? with
  | none | some row => exact ⟨_, rfl⟩

theorem rowCarries_insert (agents : Table AgentRow) (record : PendingAgentReplacement) (made : String) :
    RowCarries archive (agents.insert record.sessionId (rowOf (decided archive record) made)) record := by
  refine ⟨rowOf (decided archive record) made, ?_, rfl⟩
  rw [Table.lookup_insert, if_pos rfl]

theorem RowCarries.insert (h : RowCarries archive agents other) (hne : record.sessionId ≠ other.sessionId)
    (row : AgentRow) : RowCarries archive (agents.insert record.sessionId row) other := by
  obtain ⟨found, hfnd, hcarr⟩ := h
  refine ⟨found, ?_, hcarr⟩
  rw [Table.lookup_insert, if_neg hne]
  exact hfnd

theorem Recovering.write_row (hwf : WellFormed archive start) (h : Recovering archive start stores settled)
    (hmem : record ∈ start.journals) (hst : ∃ written : List String, record.sessionId ∈ written ∧
      (∀ other ∈ start.journals, settled other.sessionId → other.sessionId ∈ written) ∧
        stores.state = overwrite (fun sessionId =>
          if sessionId ∈ written then final archive start.journals sessionId else none) start.state)
    (now : String) (createdAt : Option String) : ∃ agents,
      upsertAgent stores.agents now (decided archive record) createdAt = some agents ∧
        Recovering archive start { stores with agents := agents }
          fun sessionId => settled sessionId ∨ sessionId = record.sessionId := by
  obtain ⟨made, hupsert⟩ := upsertAgent_ok now createdAt (h.nameTaken hwf hmem)
  rw [hwf.decided_session hmem] at hupsert
  obtain ⟨written, hin, hwrt, hsame⟩ := hst
  refine ⟨_, hupsert, ⟨⟨written, ?_, hsame⟩, ?_, ?_, h.journals, ?_⟩⟩
  · rintro other hoth (hsetl | heq)
    · exact hwrt other hoth hsetl
    · exact heq ▸ hin
  · intro sessionId
    by_cases heq : record.sessionId = sessionId
    · exact .inr ⟨record, hmem, heq, rowCarries_insert ..⟩
    · rcases h.rows sessionId with hold | ⟨other, hoth, rfl, hcarr⟩
      · refine .inl (Eq.trans ?_ hold)
        exact (Table.lookup_insert ..).trans (if_neg heq)
      · exact .inr ⟨other, hoth, rfl, hcarr.insert heq _⟩
  · rintro other hoth (hsetl | heq)
    · by_cases hses : record.sessionId = other.sessionId
      · rw [← eq_of_session hwf.sessions hmem hoth hses]
        exact rowCarries_insert ..
      · exact (h.settledRows other hoth hsetl).insert hses _
    · rw [eq_of_session hwf.sessions hoth hmem heq]
      exact rowCarries_insert ..
  · exact fun other hoth hgone => .inl (h.removed other hoth hgone)

variable {p : Progress}

/-- One journal: the state file and then the database get the configuration that holds. -/
theorem recoverRecord_spec (hwf : WellFormed archive start)
    (h : Recovering archive start p.stores settled) (hmem : record ∈ start.journals) (now : String) :
    ∃ first second, recoverRecord archive now p record =
        ((p.write first).write second, .ok (forward archive record)) ∧
      first.journals = p.stores.journals ∧ second.journals = p.stores.journals ∧
        Recovering archive start first settled ∧
          Recovering archive start second fun sessionId => settled sessionId ∨ sessionId = record.sessionId := by
  obtain ⟨current, hcur, hone⟩ := h.current hwf hmem
  have hses := hwf.decided_session hmem
  obtain ⟨configs, hrepc, hfst, hwrt⟩ := h.write_state hwf hmem
  obtain ⟨agents, hupsert, hsec⟩ :=
    hfst.write_row hwf hmem hwrt now (record.choose (forward archive record)).2
  refine ⟨{ p.stores with state := configs }, { p.stores with state := configs, agents := agents }, ?_, rfl,
    rfl, hfst, hsec⟩
  have hst : replaceConfigInState p (record.choose (forward archive record)).1 =
      (p.write { p.stores with state := configs }, .ok ()) := by
    unfold replaceConfigInState
    unfold decided at hrepc
    rw [hrepc]
  have hrow : persistConfig now (p.write { p.stores with state := configs })
      (record.choose (forward archive record)).1 (record.choose (forward archive record)).2 =
        ((p.write { p.stores with state := configs }).write
          { p.stores with state := configs, agents := agents }, .ok ()) := by
    unfold persistConfig
    unfold decided at hupsert
    have hsts : (p.write { p.stores with state := configs }).stores.agents = p.stores.agents := rfl
    rw [hsts, hupsert]
    rfl
  unfold recoverRecord
  rw [hwf.rollForward hmem]
  dsimp only
  rw [hcur]
  dsimp only
  rw [if_neg, hst]
  · dsimp only
    rw [hrow]
  · rintro ⟨horig, hrepl⟩
    rcases hone with hone | hone
    · exact horig hone
    · exact hrepl hone

/-- What may be on the disk while some journals are gone through. -/
structure Between (archive : Archive) (start before : Stores) (settled : String → Prop) (stores : Stores) :
    Prop where
  recovering : ∃ more, Recovering archive start stores more ∧ ∀ sessionId, settled sessionId → more sessionId
  journals : ∀ record ∈ stores.journals, record ∈ before.journals
  kept : ∀ record ∈ before.journals, retained archive record = true → record ∈ stores.journals

theorem Between.trans {before middle : Stores} {more : String → Prop}
    (h : Between archive start middle more stores) (hsetl : ∀ sessionId, settled sessionId → more sessionId)
    (hjrns : ∀ record ∈ middle.journals, record ∈ before.journals)
    (hkept : ∀ record ∈ before.journals, retained archive record = true → record ∈ middle.journals) :
    Between archive start before settled stores where
  recovering := by
    obtain ⟨most, hrcvg, hmost⟩ := h.recovering
    exact ⟨most, hrcvg, fun sessionId hin => hmost sessionId (hsetl sessionId hin)⟩
  journals record hmem := hjrns record (h.journals record hmem)
  kept record hmem hretd := h.kept record (hkept record hmem hretd) hretd

theorem mem_removeJournal :
    other ∈ (removeJournal stores sessionId).journals ↔
      other ∈ stores.journals ∧ other.sessionId ≠ sessionId := by
  unfold removeJournal
  rw [mem_filter, decide_eq_true_iff]

theorem Recovering.remove (h : Recovering archive start stores settled) (hsetl : settled record.sessionId) :
    Recovering archive start (removeJournal stores record.sessionId) settled where
  state := h.state
  rows := h.rows
  settledRows := h.settledRows
  journals other hoth := h.journals other (mem_removeJournal.1 hoth).1
  removed other hoth hgone := by
    by_cases hin : other ∈ stores.journals
    · have heq : other.sessionId = record.sessionId := by
        by_contra hne
        exact hgone (mem_removeJournal.2 ⟨hin, hne⟩)
      exact heq ▸ hsetl
    · exact h.removed other hoth hin

theorem Recovering.congr (h : Recovering archive start stores settled) {other : String → Prop}
    (hiff : ∀ sessionId, settled sessionId ↔ other sessionId) : Recovering archive start stores other := by
  have heq : settled = other := funext fun sessionId => propext (hiff sessionId)
  exact heq ▸ h

theorem Recovering.between {before : Stores} {more : String → Prop} (h : Recovering archive start stores more)
    (hmore : ∀ sessionId, settled sessionId → more sessionId) (hsame : stores.journals = before.journals) :
    Between archive start before settled stores where
  recovering := ⟨more, h, hmore⟩
  journals record hmem := by rwa [hsame] at hmem
  kept record hmem _ := by rwa [hsame]

theorem recoverRecords_cons (hwf : WellFormed archive start) (now : String) (hmem : record ∈ start.journals)
    (records : List PendingAgentReplacement) (h : Recovering archive start p.stores settled)
    (recovered : List RecoveredAgentReplacement) :
    ∃ p', recoverRecords archive now p recovered (record :: records) =
        recoverRecords archive now p' (recovered ++ [report archive record]) records ∧
      Recovering archive start p'.stores (fun sessionId => settled sessionId ∨ sessionId = record.sessionId) ∧
      (∀ other, other ∈ p'.stores.journals ↔ other ∈ p.stores.journals ∧
        ¬(record.sessionId = other.sessionId ∧ retained archive record = false)) ∧
      ∀ stores ∈ p'.before ++ [p'.stores],
        stores ∈ p.before ∨ Between archive start p.stores settled stores := by
  obtain ⟨first, second, hrec, hfst, hsec, hone, htwo⟩ := recoverRecord_spec hwf h hmem now
  have hbtw : ∀ stores ∈ p.before ++ [p.stores, first, second],
      stores ∈ p.before ∨ Between archive start p.stores settled stores := by
    intro stores hsts
    rcases mem_append.1 hsts with hbef | hnow
    · exact .inl hbef
    · rw [mem_cons, mem_cons, mem_singleton] at hnow
      rcases hnow with rfl | rfl | rfl
      · exact .inr (h.between (fun _ hin => hin) rfl)
      · exact .inr (hone.between (fun _ hin => hin) hfst)
      · exact .inr (htwo.between (fun _ hin => .inl hin) hsec)
  have hbef : ((p.write first).write second).before ++ [second] = p.before ++ [p.stores, first, second] := by
    unfold Progress.write
    rw [append_assoc, append_assoc]
    rfl
  rw [recoverRecords, if_neg fun hne => hne (hwf.schema record hmem), hrec]
  refine ⟨_, rfl, ?_⟩
  cases hretd : retained archive record with
  | true =>
    have hintt : (intentOf record (forward archive record)).isNone = false := by
      unfold retained at hretd
      rw [← Option.not_isSome, hretd]
      rfl
    rw [hintt, if_neg Bool.false_ne_true]
    refine ⟨htwo, fun other => ?_, fun stores hsts => hbtw stores (hbef ▸ hsts)⟩
    have hsame : ((p.write first).write second).stores.journals = p.stores.journals := hsec
    rw [hsame]
    refine (and_iff_left ?_).symm
    rintro ⟨-, hfls⟩
    cases hfls
  | false =>
    have hintt : (intentOf record (forward archive record)).isNone = true := by
      unfold retained at hretd
      rw [← Option.not_isSome, hretd]
      rfl
    have hrem := htwo.remove (.inr rfl)
    rw [hintt, if_pos rfl]
    have hjrns : ∀ other, other ∈ (removeJournal second record.sessionId).journals ↔
        other ∈ p.stores.journals ∧ ¬record.sessionId = other.sessionId := by
      intro other
      rw [mem_removeJournal, hsec]
      exact and_congr_right fun _ => not_congr eq_comm
    refine ⟨hrem, fun other => ?_, fun stores hsts => ?_⟩
    · refine (hjrns other).trans (and_congr_right fun _ => not_congr ?_)
      exact (and_iff_left rfl).symm
    · rcases mem_append.1 hsts with hsts | hnow
      · exact hbtw stores (hbef ▸ hsts)
      · rw [mem_singleton.1 hnow]
        refine .inr ⟨⟨_, hrem, fun _ hin => .inl hin⟩, fun other hoth => ((hjrns other).1 hoth).1, ?_⟩
        -- the journal that is removed is not one that is retained
        intro other hoth hkeep
        refine (hjrns other).2 ⟨hoth, fun heq => ?_⟩
        rw [eq_of_session hwf.sessions hmem (h.journals other hoth) heq, hkeep] at hretd
        cases hretd

theorem recoverRecords_spec (hwf : WellFormed archive start) (now : String)
    (records : List PendingAgentReplacement) (hrecs : ∀ record ∈ records, record ∈ start.journals)
    (h : Recovering archive start p.stores settled) (recovered : List RecoveredAgentReplacement) :
    ∃ p', recoverRecords archive now p recovered records =
        (p', .ok (recovered ++ records.map (report archive))) ∧
      Recovering archive start p'.stores
        (fun sessionId => settled sessionId ∨ sessionId ∈ records.map (·.sessionId)) ∧
      (∀ other, other ∈ p'.stores.journals ↔ other ∈ p.stores.journals ∧
        ¬∃ record ∈ records, record.sessionId = other.sessionId ∧ retained archive record = false) ∧
      ∀ stores ∈ p'.before ++ [p'.stores],
        stores ∈ p.before ∨ Between archive start p.stores settled stores := by
  induction records generalizing p recovered settled with
  | nil =>
    refine ⟨p, ?_, h.congr fun sessionId => (or_iff_left not_mem_nil).symm, fun other => ?_, ?_⟩
    · rw [map_nil, append_nil]
      rfl
    · refine (and_iff_left ?_).symm
      rintro ⟨record, hrec, -⟩
      exact not_mem_nil hrec
    · intro stores hsts
      rcases mem_append.1 hsts with hbef | hnow
      · exact .inl hbef
      · rw [mem_singleton.1 hnow]
        exact .inr (h.between (fun _ hin => hin) rfl)
  | cons record records ih =>
    have hmem := hrecs record (mem_cons_self ..)
    obtain ⟨p₁, hone, hrcvg, hjrns, htr⟩ := recoverRecords_cons hwf now hmem records h recovered
    obtain ⟨p', hrun, hrcvg', hjrns', htr'⟩ :=
      ih (fun other hoth => hrecs other (mem_cons_of_mem record hoth)) hrcvg
        (recovered ++ [report archive record])
    refine ⟨p', ?_, hrcvg'.congr fun sessionId => ?_, fun other => ?_, fun stores hsts => ?_⟩
    · rw [hone, hrun, append_assoc]
      rfl
    · rw [map_cons, mem_cons, or_assoc]
    · rw [hjrns', hjrns, and_assoc, ← not_or]
      refine and_congr_right fun _ => not_congr ⟨?_, ?_⟩
      · rintro (hfst | ⟨later, hltr, hsame⟩)
        · exact ⟨record, mem_cons_self .., hfst⟩
        · exact ⟨later, mem_cons_of_mem _ hltr, hsame⟩
      · rintro ⟨later, hltr, hsame⟩
        rcases mem_cons.1 hltr with rfl | hltr
        · exact .inl hsame
        · exact .inr ⟨later, hltr, hsame⟩
    · rcases htr' stores hsts with hbef | hltr
      · exact htr stores (mem_append_left _ hbef)
      · refine .inr (hltr.trans (fun _ hin => .inl hin) (fun other hoth => ((hjrns other).1 hoth).1) ?_)
        intro other hoth hkeep
        refine (hjrns other).2 ⟨hoth, fun hboth => ?_⟩
        rw [eq_of_session hwf.sessions hmem (h.journals other hoth) hboth.1, hkeep] at hboth
        cases hboth.2

/-! ### Runs one after the other -/

/-- What holds after any runs: what was reported is settled, and a journal with something left to do stays
until that is completed. -/
structure Inv (archive : Archive) (start : Stores) (node : Node) : Prop where
  recovering : ∃ settled, Recovering archive start node.stores settled ∧
    ∀ record ∈ node.reported, settled record.sessionId
  reported : ∀ reported ∈ node.reported, ∃ record ∈ start.journals, report archive record = reported
  kept : ∀ record ∈ start.journals, retained archive record = true →
    (record ∈ node.stores.journals ↔ report archive record ∉ node.completed)

theorem inv_start (archive : Archive) (start : Stores) : Inv archive start ⟨start, [], []⟩ where
  recovering := ⟨fun _ => False, recovering_start archive start, fun _ hmem => absurd hmem not_mem_nil⟩
  reported _ hmem := absurd hmem not_mem_nil
  kept _ hmem _ := iff_of_true hmem not_mem_nil

theorem records_statusOf (recovered : List RecoveredAgentReplacement) : (statusOf recovered).records = recovered := by
  cases recovered with
  | nil => rfl
  | cons record records => rfl

variable {node : Node}

theorem run_spec (hwf : WellFormed archive start) (h : Inv archive start node) (now : String) :
    ∃ p, recoverPendingReplacements archive now true node.stores =
        (p, .ok (statusOf (node.stores.journals.map (report archive)))) ∧
      (∃ settled, Recovering archive start p.stores settled ∧ ∀ record ∈ start.journals, settled record.sessionId) ∧
      (∀ record, record ∈ p.stores.journals ↔ record ∈ node.stores.journals ∧ retained archive record = true) ∧
      ∀ stores ∈ p.before ++ [p.stores], Inv archive start { node with stores := stores } := by
  obtain ⟨settled, hrcvg, hsetl⟩ := h.recovering
  obtain ⟨p, hrun, hdone, hjrns, htr⟩ := recoverRecords_spec (p := ⟨node.stores, []⟩) hwf now
    node.stores.journals hrcvg.journals hrcvg []
  refine ⟨p, ?_, ⟨_, hdone, fun record hmem => ?_⟩, fun record => ?_, fun stores hsts => ?_⟩
  · unfold recoverPendingReplacements
    rw [Bool.not_true, if_neg Bool.false_ne_true, hrun]
    rfl
  · by_cases hin : record ∈ node.stores.journals
    · exact .inr (mem_map_of_mem hin)
    · exact .inl (hrcvg.removed record hmem hin)
  · rw [hjrns]
    refine and_congr_right fun hin => ⟨fun hnone => ?_, ?_⟩
    · by_contra hnot
      exact hnone ⟨record, hin, rfl, Bool.eq_false_of_not_eq_true hnot⟩
    · rintro hkeep ⟨other, hoth, hsame, hnot⟩
      have heq := eq_of_session hwf.sessions (hrcvg.journals other hoth)
        (hrcvg.journals record hin) hsame
      rw [heq, hkeep] at hnot
      cases hnot
  · have hbtw := (htr stores hsts).resolve_left not_mem_nil
    obtain ⟨more, hmore, hle⟩ := hbtw.recovering
    refine ⟨⟨more, hmore, fun record hmem => hle _ (hsetl record hmem)⟩, h.reported, ?_⟩
    intro record hmem hkeep
    refine Iff.trans ⟨fun hin => ?_, fun hin => ?_⟩ (h.kept record hmem hkeep)
    · exact hbtw.journals record hin
    · exact hbtw.kept record hin hkeep

theorem inv_complete (hwf : WellFormed archive start) (h : Inv archive start node)
    {reported : RecoveredAgentReplacement} (hrptd : reported ∈ node.reported) :
    Inv archive start
      { node with
        stores := (completeRecoveredReplacement node.stores reported.sessionId reported.generationId).2
        completed := reported :: node.completed } := by
  obtain ⟨settled, hrcvg, hsetl⟩ := h.recovering
  obtain ⟨record, hmem, rfl⟩ := h.reported reported hrptd
  have hses : (report archive record).sessionId = record.sessionId := rfl
  have haft : ∀ other ∈ start.journals,
      other ∈ (completeRecoveredReplacement node.stores record.sessionId record.generationId).2.journals ↔
        other ∈ node.stores.journals ∧ other ≠ record := by
    intro other hoth
    unfold completeRecoveredReplacement
    cases hfind : node.stores.journals.find? (·.sessionId = record.sessionId) with
    | none =>
      refine (and_iff_left_of_imp ?_).symm
      rintro hin rfl
      exact find?_eq_none.1 hfind other hin (decide_eq_true rfl)
    | some current =>
      have hcur : current = record := eq_of_session hwf.sessions
        (hrcvg.journals current (mem_of_find?_eq_some hfind)) hmem (session_of_find hfind)
      dsimp only
      rw [hcur, if_neg (not_not.2 rfl), mem_removeJournal]
      refine and_congr_right fun _ => not_congr ⟨fun heq => ?_, fun heq => heq ▸ rfl⟩
      exact eq_of_session hwf.sessions hoth hmem heq
  have hoths : (completeRecoveredReplacement node.stores record.sessionId record.generationId).2.state =
        node.stores.state ∧
      (completeRecoveredReplacement node.stores record.sessionId record.generationId).2.agents =
        node.stores.agents ∧
      ∀ other ∈ (completeRecoveredReplacement node.stores record.sessionId record.generationId).2.journals,
        other ∈ node.stores.journals := by
    unfold completeRecoveredReplacement
    split
    · exact ⟨rfl, rfl, fun _ hoth => hoth⟩
    · split
      · exact ⟨rfl, rfl, fun _ hoth => hoth⟩
      · exact ⟨rfl, rfl, fun _ hoth => (mem_removeJournal.1 hoth).1⟩
  obtain ⟨hst, hagts, hjrns⟩ := hoths
  refine ⟨⟨settled, ⟨?_, ?_, ?_, ?_, ?_⟩, hsetl⟩, h.reported, ?_⟩
  · rw [hses]
    exact hst ▸ hrcvg.state
  · exact hagts ▸ hrcvg.rows
  · exact hagts ▸ hrcvg.settledRows
  · exact fun other hoth => hrcvg.journals other (hjrns other hoth)
  · intro other hoth hgone
    by_cases heq : other = record
    · exact heq ▸ hsetl _ hrptd
    · exact hrcvg.removed other hoth fun hin => hgone ((haft other hoth).2 ⟨hin, heq⟩)
  · intro other hoth hkeep
    refine (haft other hoth).trans ?_
    rw [h.kept other hoth hkeep, mem_cons, not_or, and_comm]
    refine and_congr_left fun _ => not_congr ⟨fun heq => heq ▸ rfl, fun heq => ?_⟩
    exact eq_of_session hwf.sessions hoth hmem (congrArg RecoveredAgentReplacement.sessionId heq)

theorem inv_step (hwf : WellFormed archive start) {node' : Node} (h : Inv archive start node)
    (hstep : Step archive node node') : Inv archive start node' := by
  cases hstep with
  | killed now barrier hrun hsts =>
    cases barrier with
    | false =>
      obtain ⟨rfl, -⟩ := Prod.mk.inj hrun
      rw [mem_singleton.1 hsts]
      exact h
    | true =>
      obtain ⟨p, hrun', -, -, htr⟩ := run_spec hwf h now
      obtain ⟨rfl, -⟩ := Prod.mk.inj (hrun'.symm.trans hrun)
      exact htr _ hsts
  | finished now barrier hrun =>
    cases barrier with
    | false =>
      obtain ⟨rfl, hstat⟩ := Prod.mk.inj hrun
      obtain rfl := Except.ok.inj hstat
      have hnoth : node.reported ++ RecoveryStatus.busy.records = node.reported := append_nil _
      rw [hnoth]
      exact h
    | true =>
      obtain ⟨p, hrun', ⟨settled, hrcvg, hsetl⟩, -, htr⟩ := run_spec hwf h now
      obtain ⟨rfl, hstat⟩ := Prod.mk.inj (hrun'.symm.trans hrun)
      obtain rfl := Except.ok.inj hstat
      have hnow := htr _ (mem_append_right _ (mem_singleton_self _))
      obtain ⟨before, hbef, -⟩ := h.recovering
      have hrptd : ∀ reported ∈ node.reported ++
          (statusOf (node.stores.journals.map (report archive))).records,
            ∃ record ∈ start.journals, report archive record = reported := by
        intro reported hmem
        rw [records_statusOf] at hmem
        rcases mem_append.1 hmem with hold | hnew
        · exact h.reported reported hold
        · obtain ⟨record, hrec, rfl⟩ := mem_map.1 hnew
          exact ⟨record, hbef.journals record hrec, rfl⟩
      refine ⟨⟨settled, hrcvg, fun reported hmem => ?_⟩, hrptd, hnow.kept⟩
      obtain ⟨record, hrec, rfl⟩ := hrptd reported hmem
      exact hsetl record hrec
  | completed hrptd => exact inv_complete hwf h hrptd

theorem inv_runs (hwf : WellFormed archive start)
    (h : Relation.ReflTransGen (Step archive) ⟨start, [], []⟩ node) : Inv archive start node := by
  induction h with
  | refl => exact inv_start archive start
  | tail _ hstep ih => exact inv_step hwf ih hstep

/-- The session of a journal has a configuration in both places. -/
def Has (stores : Stores) (record : PendingAgentReplacement) (config : AgentConfig) : Prop :=
  currentStateConfig stores record.sessionId = .ok config ∧
    ∃ row, stores.agents[record.sessionId]? = some row ∧ Carries row config

/-- Each session with a journal has the configuration that holds, and nothing else has changed. -/
structure Settled (archive : Archive) (start stores : Stores) : Prop where
  ahead : ∀ record ∈ start.journals, RollsForward archive record → Has stores record record.replacementConfig
  back : ∀ record ∈ start.journals, ¬RollsForward archive record → Has stores record record.originalConfig
  entries : Forall₂ (fun before after : AgentConfig => after.sessionId = before.sessionId ∧
    (before.sessionId ∉ start.journals.map (·.sessionId) → after = before)) start.state stores.state
  rows : ∀ sessionId, sessionId ∉ start.journals.map (·.sessionId) →
    stores.agents[sessionId]? = start.agents[sessionId]?

theorem final_eq_none
    (h : sessionId ∉ journals.map (·.sessionId)) : final archive journals sessionId = none := by
  cases hfin : final archive journals sessionId with
  | none => rfl
  | some config =>
    obtain ⟨record, hmem, rfl, -⟩ := final_some hfin
    exact absurd (mem_map_of_mem hmem) h

theorem WellFormed.keeps_final (h : WellFormed archive start) : Keeps (final archive start.journals) := by
  intro sessionId config hcfg
  obtain ⟨record, hmem, rfl, rfl⟩ := final_some hcfg
  exact h.decided_session hmem

theorem Recovering.state_eq (h : Recovering archive start stores settled)
    (hall : ∀ record ∈ start.journals, settled record.sessionId) :
    stores.state = overwrite (final archive start.journals) start.state := by
  obtain ⟨written, hwrt, hst⟩ := h.state
  rw [hst]
  refine overwrite_congr fun sessionId => ?_
  split
  next => rfl
  next hnot =>
    refine (final_eq_none fun hmem => ?_).symm
    obtain ⟨record, hrec, rfl⟩ := mem_map.1 hmem
    exact hnot (hwrt record hrec (hall record hrec))

theorem Recovering.all_settled (hwf : WellFormed archive start) (h : Recovering archive start stores settled)
    (hall : ∀ record ∈ start.journals, settled record.sessionId) : Settled archive start stores := by
  have hst := h.state_eq hall
  have hhas : ∀ record ∈ start.journals, Has stores record (decided archive record) := by
    intro record hmem
    refine ⟨?_, h.settledRows record hmem (hall record hmem)⟩
    obtain ⟨config, hcfg, -⟩ := hwf.state record hmem
    unfold currentStateConfig at hcfg ⊢
    rw [hst, find_overwrite hwf.keeps_final, final_of_mem hwf.sessions hmem]
    cases hfind : start.state.find? (·.sessionId = record.sessionId) with
    | none =>
      rw [hfind] at hcfg
      cases hcfg
    | some found => rfl
  constructor
  case ahead =>
    intro record hmem hfwd
    have hdecd : decided archive record = record.replacementConfig := by
      unfold decided
      rw [(hwf.forward_iff hmem).2 hfwd]
      rfl
    exact hdecd ▸ hhas record hmem
  case back =>
    intro record hmem hback
    have hdecd : decided archive record = record.originalConfig := by
      unfold decided
      rw [Bool.eq_false_of_not_eq_true (mt (hwf.forward_iff hmem).1 hback)]
      rfl
    exact hdecd ▸ hhas record hmem
  case entries =>
    rw [hst]
    refine (forall_overwrite hwf.keeps_final start.state).imp fun before after hsame => ?_
    exact ⟨hsame.1, fun hnot => hsame.2 (final_eq_none hnot)⟩
  case rows =>
    intro sessionId hnot
    refine (h.rows sessionId).resolve_right ?_
    rintro ⟨record, hmem, rfl, -⟩
    exact hnot (mem_map_of_mem hmem)

theorem WellFormed.perm (h : WellFormed archive start) {other : Stores} (hst : other.state = start.state)
    (hagts : other.agents = start.agents) (hperm : other.journals.Perm start.journals) :
    WellFormed archive other := by
  have hmem : ∀ record ∈ other.journals, record ∈ start.journals := fun record hin => hperm.mem_iff.1 hin
  constructor
  case sessions => exact (hperm.map _).nodup_iff.2 h.sessions
  case schema => exact fun record hin => h.schema record (hmem record hin)
  case configs => exact fun record hin => h.configs record (hmem record hin)
  case state =>
    intro record hin
    obtain ⟨config, hcfg, hone⟩ := h.state record (hmem record hin)
    refine ⟨config, ?_, hone⟩
    unfold currentStateConfig at hcfg ⊢
    rwa [hst]
  case index => exact fun record hin => h.index record (hmem record hin)
  case names =>
    intro record hin
    rw [hagts]
    exact h.names record (hmem record hin)
  case distinct =>
    exact fun record hin other' hin' => h.distinct record (hmem record hin) other' (hmem other' hin')

theorem final_perm {others : List PendingAgentReplacement} (hndp : (others.map (·.sessionId)).Nodup)
    (hperm : journals.Perm others) : final archive journals = final archive others := by
  funext sessionId
  by_cases hmem : sessionId ∈ others.map (·.sessionId)
  · obtain ⟨record, hrec, rfl⟩ := mem_map.1 hmem
    rw [final_of_mem hndp hrec,
      final_of_mem ((hperm.map _).nodup_iff.2 hndp) (hperm.mem_iff.2 hrec)]
  · rw [final_eq_none hmem, final_eq_none fun hin => hmem ((hperm.map _).mem_iff.1 hin)]

theorem retained_iff (hwf : WellFormed archive start) (hmem : record ∈ start.journals) :
    retained archive record = true ↔ RollsForward archive record ∧ record.sessionCloseIntent.isSome = true := by
  rw [← hwf.forward_iff hmem]
  unfold retained intentOf
  cases forward archive record with
  | false =>
    rw [if_neg Bool.false_ne_true]
    exact iff_of_false Bool.false_ne_true fun h => Bool.false_ne_true h.1
  | true =>
    rw [if_pos rfl]
    exact (and_iff_right rfl).symm

/-- After any runs, cut off or not, the next run settles all sessions, in whatever order the journals are, and
keeps a journal with something left to do until that is completed. -/
theorem recovery_repeatable (hwf : WellFormed archive start) {node : Node}
    (hruns : Relation.ReflTransGen (Step archive) ⟨start, [], []⟩ node) (now : String) :
    ∃ p, recoverPendingReplacements archive now true node.stores =
        (p, .ok (statusOf (node.stores.journals.map (report archive)))) ∧
      Settled archive start p.stores ∧
      (∀ record, record ∈ p.stores.journals ↔ record ∈ node.stores.journals ∧
        RollsForward archive record ∧ record.sessionCloseIntent.isSome = true) ∧
      (∀ record ∈ start.journals, RollsForward archive record → ∀ intent,
        record.sessionCloseIntent = some intent → (record ∈ node.stores.journals ↔
          ⟨record.sessionId, record.generationId, some intent⟩ ∉ node.completed)) ∧
      ∀ (other : Stores) (node' : Node) (now' : String), other.state = start.state →
        other.agents = start.agents → other.journals.Perm start.journals →
          Relation.ReflTransGen (Step archive) ⟨other, [], []⟩ node' →
            (recoverPendingReplacements archive now' true node'.stores).1.stores.state = p.stores.state := by
  have hinv := inv_runs hwf hruns
  obtain ⟨p, hrun, ⟨settled, hrcvg, hall⟩, hjrns, -⟩ := run_spec hwf hinv now
  obtain ⟨before, hbef, -⟩ := hinv.recovering
  refine ⟨p, hrun, hrcvg.all_settled hwf hall, fun record => ?_, ?_, ?_⟩
  · rw [hjrns]
    exact and_congr_right fun hin => retained_iff hwf (hbef.journals record hin)
  · intro record hmem hfwd intent hintt
    have hrpt : report archive record = ⟨record.sessionId, record.generationId, some intent⟩ := by
      unfold report intentOf
      rw [(hwf.forward_iff hmem).2 hfwd, if_pos rfl, hintt]
    rw [← hrpt]
    refine hinv.kept record hmem ((retained_iff hwf hmem).2 ⟨hfwd, ?_⟩)
    rw [hintt]
    rfl
  · intro other node' now' hst hagts hperm hruns'
    have hwf' := hwf.perm hst hagts hperm
    obtain ⟨p', hrun', ⟨settled', hrcvg', hall'⟩, -, -⟩ := run_spec hwf' (inv_runs hwf' hruns') now'
    rw [hrun', hrcvg'.state_eq hall', hrcvg.state_eq hall, hst,
      final_perm hwf.sessions hperm]

end Run

/-! ### Two agents -/

def plannerConfig (sessionId sessionName : String) (isOff : Bool) : AgentConfig where
  sessionId := sessionId
  sessionName := sessionName
  description := ""
  agentClass := "Planner"
  folder := "/work/project"
  isOff := isOff
  provider := "claude"
  others := ""

def plannerIntent : SessionCloseIntent where
  boundaryId := "boundary-1"
  agentId := "agent-1"
  agentName := "First"
  workspace := "/work/project"
  provider := "claude"
  boundaryReason := "clear"
  archiveAvailable := true
  conversationId := some "conversation-1"
  sourceSequence := none

def plannerJournal (sessionId sessionName : String) (phase : ReplacementPhase) :
    PendingAgentReplacement where
  schema := journalSchema
  generationId := "generation-1"
  operation := "clear"
  sessionId := sessionId
  originalConfig := plannerConfig sessionId sessionName true
  replacementConfig := plannerConfig sessionId sessionName false
  originalCreatedAt := none
  replacementCreatedAt := none
  archiveConversationId := some "conversation-1"
  archiveExpected := true
  sessionCloseIntent := some plannerIntent
  phase := phase

/-- The first agent is at its boundary, the second is not. -/
def plannerStores : Stores where
  state := [plannerConfig "agent-1" "First" true, plannerConfig "agent-2" "Second" false]
  agents := ∅
  journals := [plannerJournal "agent-1" "First" .boundaryCommitting,
    plannerJournal "agent-2" "Second" .statePersisted]

def plannerArchive : Archive := fun _ => some [some ⟨"conversation-1", .closed⟩]

theorem wellFormed_planner : WellFormed plannerArchive plannerStores := by
  constructor
  case sessions => decide
  case schema => decide
  case configs => decide
  case state =>
    intro record hmem
    rcases mem_cons.1 hmem with rfl | hmem
    · exact ⟨_, rfl, .inl rfl⟩
    · obtain rfl := mem_singleton.1 hmem
      exact ⟨_, rfl, .inr rfl⟩
  case index =>
    intro record _ _ _ lines hlns hnone
    obtain rfl := Option.some.inj hlns
    cases mem_singleton.1 hnone
  case names =>
    intro record _ sessionId row hrow
    rw [show plannerStores.agents = ∅ from rfl, Table.lookup_empty] at hrow
    cases hrow
  case distinct => decide

/-- A run is cut off when the second agent is back in the state file and not yet in the database. -/
theorem recovery_planner :
    ∃ cut ∈ (recoverPendingReplacements plannerArchive "2026-10-01" true plannerStores).1.before,
      cut.state.map (·.isOff) = [false, true] ∧ cut.agents["agent-1"]?.isSome ∧
      cut.agents["agent-2"]?.isNone ∧ ∃ p, recoverPendingReplacements plannerArchive "2026-10-02" true cut = (p, .ok (.recovered
          [⟨"agent-1", "generation-1", some plannerIntent⟩, ⟨"agent-2", "generation-1", none⟩])) ∧
        p.stores.agents["agent-2"]?.isSome ∧ Settled plannerArchive plannerStores p.stores := by
  let run := recoverPendingReplacements plannerArchive "2026-10-01" true plannerStores
  let cut := run.1.before.get ⟨3, by decide⟩
  have hcut : cut ∈ run.1.before := run.1.before.get_mem _
  refine ⟨cut, hcut, rfl, rfl, rfl, ?_⟩
  have hkilled : Step plannerArchive ⟨plannerStores, [], []⟩ ⟨cut, [], []⟩ :=
    .killed "2026-10-01" true rfl (mem_append_left _ hcut)
  obtain ⟨p, hrun, hsetl, -⟩ := recovery_repeatable wellFormed_planner (.single hkilled) "2026-10-02"
  refine ⟨p, hrun, ?_, hsetl⟩
  have hp : _ = p := congrArg Prod.fst hrun
  rw [← hp]
  rfl

/-- The name of the first agent is that of a third one in the database. -/
def takenStores : Stores :=
  { plannerStores with agents := (∅ : Table AgentRow).insert "agent-3" (rowOf (plannerConfig "agent-3" "First" true) "") }

/-- An archive index with a line that cannot be read, and a database in which the name belongs to another
agent. -/
theorem recovery_stops :
    recoverPendingReplacements (fun _ => some [none]) "2026-10-01" true plannerStores =
        (⟨plannerStores, []⟩, .error (.unreadableIndex "agent-1")) ∧
      ¬Settled (fun _ => some [none]) plannerStores plannerStores ∧
      (recoverPendingReplacements plannerArchive "2026-10-01" true takenStores).2 = .error .nameTaken ∧
      (recoverPendingReplacements plannerArchive "2026-10-01" true takenStores).1.stores.agents["agent-1"]? =
        none := by
  refine ⟨rfl, fun h => ?_, by rfl, by rfl⟩
  have hback := h.back (plannerJournal "agent-2" "Second" .statePersisted)
    (mem_cons_of_mem _ (mem_singleton_self _)) ?_
  · cases Except.ok.inj hback.1
  · rintro (hfls | hfls | ⟨hfls, -⟩) <;> cases hfls

end Wardian.Replacement
