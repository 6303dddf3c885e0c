/-
The briefs of a provider process, read one after the other.

The reader of the briefs knows of each memory the last line it was told about it.  A checkpoint is
recorded with every brief and holds all that was in force, told or not, so that what a brief leaves
out is not told again unless it changes or nothing at all has changed.  As long as the last brief
with something to say about a memory has said it, the reader knows what the checkpoint holds of it,
and the next brief with enough room brings it up to date.

Main results:

* `Delivers.up_to_date` — the next brief with enough room brings the reader up to date;
* `resume_strands` — what was left out before is not told.
-/

import Wardian.Memory.Checkpoints

set_option autoImplicit false

namespace Wardian.Memory

open List
open MemoryM

/-! ### Readers -/

/-- A brief that has been compiled, and the page that its reader sees. -/
structure Delivered where
  draft : BriefDraft
  page : BriefPage

namespace Delivered

/-- The brief has something to say about the memory. -/
def Concerns (brief : Delivered) (memoryId : String) : Prop :=
  (∃ record ∈ brief.draft.changed, record.memoryId = memoryId) ∨ memoryId ∈ brief.draft.removed

/-- The brief says something about the memory. -/
def Shows (brief : Delivered) (memoryId : String) : Prop :=
  (∃ record ∈ brief.page.listed, record.memoryId = memoryId) ∨ memoryId ∈ brief.page.gone

end Delivered

/-- A line that lists a memory sets it, and one that says that it no longer applies deletes it. -/
def BriefPage.read (known : String → Option MemoryRecord) (page : BriefPage) (memoryId : String) :
    Option MemoryRecord :=
  if memoryId ∈ page.gone then none
  else (page.listed.reverse.find? (·.memoryId = memoryId)).or (known memoryId)

/-- What the reader of some briefs knows. -/
def reading (log : List Delivered) : String → Option MemoryRecord :=
  log.foldl (fun known brief => brief.page.read known) fun _ => none

/-- The revision that the last checkpoint holds of the memory. -/
def checkpointed (log : List Delivered) (memoryId : String) : Option String :=
  log.getLast?.bind fun brief => revisionOf brief.draft.allActive memoryId

/-- What is in force is what the last checkpoint holds. -/
structure Unchanged (env : BriefEnv) (s : Store) (agentId : String) (workspace : Option String)
    (log : List Delivered) : Prop where
  same : ∀ row, InForce env s agentId workspace row →
    checkpointed log row.memoryId = some row.revisionId
  there : ∀ memoryId, (checkpointed log memoryId).isSome →
    ∃ row, InForce env s agentId workspace row ∧ row.memoryId = memoryId

/-- The last brief with something to say about the memory has left it out. -/
def Missed (log : List Delivered) (memoryId : String) : Prop :=
  ∃ earlier brief later, log = earlier ++ brief :: later ∧ brief.Concerns memoryId ∧
    ¬brief.Shows memoryId ∧ ∀ other ∈ later, ¬other.Concerns memoryId

section Readers

variable {log : List Delivered} {brief : Delivered} {memoryId : String}

theorem reading_concat : reading (log ++ [brief]) = brief.page.read (reading log) := by
  simp [reading]

theorem Missed.of_last (hconc : brief.Concerns memoryId) (hshw : ¬brief.Shows memoryId) :
    Missed (log ++ [brief]) memoryId := ⟨log, brief, [], rfl, hconc, hshw, by simp⟩

theorem Missed.concat (h : Missed log memoryId) (hconc : ¬brief.Concerns memoryId) :
    Missed (log ++ [brief]) memoryId := by
  obtain ⟨earlier, first, later, rfl, hfst, hshw, hltr⟩ := h
  refine ⟨earlier, first, later ++ [brief], by simp, hfst, hshw, fun other hoth => ?_⟩
  rcases mem_append.1 hoth with hoth | hoth
  · exact hltr other hoth
  · rw [mem_singleton.1 hoth]
    exact hconc

/-- A brief that is not about a memory leaves what is known of it alone. -/
theorem read_of_not_shows {known : String → Option MemoryRecord} {page : BriefPage}
    (hlstd : ∀ record ∈ page.listed, record.memoryId ≠ memoryId) (hgone : memoryId ∉ page.gone) :
    page.read known memoryId = known memoryId := by
  have hnone : page.listed.reverse.find? (·.memoryId = memoryId) = none := by
    rw [find?_eq_none]
    intro record hrec
    simpa using hlstd record (mem_reverse.1 hrec)
  unfold BriefPage.read
  rw [if_neg hgone, hnone, Option.none_or]

end Readers

/-! ### One brief after another -/

/-- A brief as it is compiled: its memories are named once, and its page comes from its draft. -/
structure Sound (s : Store) (brief : Delivered) : Prop where
  kept : Kept s brief.draft
  nodup : (brief.draft.allActive.map (·.memoryId)).Nodup
  listed : brief.page.listed.Sublist brief.draft.changed
  gone : brief.page.gone.Sublist brief.draft.removed

/-- The reader knows what the checkpoint holds of the memories whose last news were told. -/
def Knows (log : List Delivered) : Prop :=
  ∀ memoryId, ¬Missed log memoryId →
    (reading log memoryId).map (·.revisionId) = checkpointed log memoryId

section Follows

variable {s : Store} {log : List Delivered} {brief : Delivered} {memoryId : String}

variable {previous : Option BriefDraft} {draft : BriefDraft}

theorem Follows.mem_allActive (h : Follows previous draft) {record : MemoryRecord}
    (hmem : record ∈ draft.changed) : record ∈ draft.allActive := by
  cases previous with
  | none => exact h.1 ▸ hmem
  | some previous =>
    have hchgd : draft.changed = (briefDelta previous.allActive draft.allActive).1 :=
      congrArg Prod.fst h
    exact mem_briefDelta_fst (hchgd ▸ hmem)

theorem Follows.not_active (h : Follows previous draft) (hmem : memoryId ∈ draft.removed) :
    ∀ record ∈ draft.allActive, record.memoryId ≠ memoryId := by
  cases previous with
  | none =>
    rw [h.2] at hmem
    cases hmem
  | some previous =>
    have hrem : draft.removed = (briefDelta previous.allActive draft.allActive).2 :=
      congrArg Prod.snd h
    exact (mem_briefDelta_snd.1 (hrem ▸ hmem)).2

/-- A memory that a brief has nothing to say about is as it was. -/
theorem Follows.unchanged (h : Follows previous brief.draft) (hnot : ¬brief.Concerns memoryId) :
    revisionOf brief.draft.allActive memoryId =
      previous.bind fun draft => revisionOf draft.allActive memoryId := by
  cases previous with
  | none =>
    refine revisionOf_eq_none.2 fun record hrec heq => hnot (.inl ⟨record, ?_, heq⟩)
    exact h.1 ▸ hrec
  | some previous =>
    have hchgd : brief.draft.changed =
      (briefDelta previous.allActive brief.draft.allActive).1 := congrArg Prod.fst h
    have hrem : brief.draft.removed =
      (briefDelta previous.allActive brief.draft.allActive).2 := congrArg Prod.snd h
    change _ = revisionOf previous.allActive memoryId
    cases hnow : revisionOf brief.draft.allActive memoryId with
    | none =>
      refine (revisionOf_eq_none.2 fun record hrec heq => hnot (.inr ?_)).symm
      rw [hrem]
      exact mem_briefDelta_snd.2 ⟨⟨record, hrec, heq⟩, revisionOf_eq_none.1 hnow⟩
    | some revisionId =>
      obtain ⟨record, hrec, rfl, rfl⟩ := exists_of_revisionOf hnow
      by_contra hne
      refine hnot (.inl ⟨record, ?_, rfl⟩)
      rw [hchgd]
      exact changed_of_revisionOf hrec fun heq => hne heq.symm

/-- **The reader of one more brief knows what its checkpoint holds.** -/
theorem Knows.concat (h : Knows log) (hnew : Sound s brief) (hfols : Follows (log.getLast?.map (·.draft)) brief.draft) :
    Knows (log ++ [brief]) := by
  intro memoryId hmissed
  rw [reading_concat, checkpointed, getLast?_concat, Option.bind_some]
  by_cases hconc : brief.Concerns memoryId
  · -- what the brief had to say it has said
    have hshw : brief.Shows memoryId := by
      by_contra hnot
      exact hmissed (.of_last hconc hnot)
    by_cases hgone : memoryId ∈ brief.page.gone
    · have hnone := hfols.not_active (hnew.gone.subset hgone)
      rw [BriefPage.read, if_pos hgone, revisionOf_eq_none.2 hnone]
      rfl
    · obtain ⟨record, hrec, hmry⟩ := hshw.resolve_right hgone
      rw [BriefPage.read, if_neg hgone]
      cases hfnd : brief.page.listed.reverse.find? (·.memoryId = memoryId) with
      | none =>
        have hnot := find?_eq_none.1 hfnd record (mem_reverse.2 hrec)
        exact absurd (decide_eq_true hmry) hnot
      | some told =>
        have htold : told.memoryId = memoryId := by simpa using find?_some hfnd
        have hlstd := mem_reverse.1 (mem_of_find?_eq_some hfnd)
        have hact := hfols.mem_allActive (hnew.listed.subset hlstd)
        rw [← htold, revisionOf_mem hnew.nodup hact]
        rfl
  · have hnotListed : ∀ record ∈ brief.page.listed, record.memoryId ≠ memoryId :=
      fun record hrec heq => hconc (.inl ⟨record, hnew.listed.subset hrec, heq⟩)
    have hnotGone : memoryId ∉ brief.page.gone := fun hgone =>
      hconc (.inr (hnew.gone.subset hgone))
    rw [read_of_not_shows hnotListed hnotGone,
      h memoryId fun hbef => hmissed (hbef.concat hconc)]
    rw [hfols.unchanged hconc, Option.bind_map]
    rfl

/-- What is not as the last checkpoint holds it is told. -/
theorem Follows.concerns (h : Follows (log.getLast?.map (·.draft)) brief.draft)
    (hne : checkpointed log memoryId ≠ revisionOf brief.draft.allActive memoryId) :
    brief.Concerns memoryId := by
  by_contra hnot
  rw [h.unchanged hnot, Option.bind_map] at hne
  exact hne rfl

/-- Nothing has changed, so all is told again. -/
theorem Follows.resends (h : Follows (log.getLast?.map (·.draft)) draft)
    (hsame : ∀ record ∈ draft.allActive,
      checkpointed log record.memoryId = some record.revisionId)
    (hin : ∀ memoryId, (checkpointed log memoryId).isSome →
      ∃ record ∈ draft.allActive, record.memoryId = memoryId) : draft.changed = draft.allActive := by
  unfold checkpointed at hsame hin
  cases hlast : log.getLast? with
  | none =>
    rw [hlast] at h
    exact h.1
  | some last =>
    rw [hlast] at h hsame hin
    refine (congrArg Prod.fst h).trans (briefDelta_of_unchanged hsame fun record hrec => ?_)
    refine hin record.memoryId (Option.isSome_iff_ne_none.2 fun hnone => ?_)
    exact revisionOf_eq_none.1 hnone record hrec rfl

end Follows

/-! ### Runs -/

/-- The runs of one process.  Memories are written, briefs are compiled and recorded, and other
processes record theirs; the first brief may be a fresh one and all others are resumed. -/
inductive Delivers (env : BriefEnv) (p : Process) : Desk → List Delivered → Option Delivered → Prop
  | opened (uuids : Nat → Uuid) (clock : Nat → String) :
      Delivers env p ⟨⟨.empty, uuids, clock⟩, []⟩ [] none
  | wrote {d : Desk} {log : List Delivered} {pending : Option Delivered}
      (h : Delivers env p d log pending) (operation : Operation) :
      Delivers env p ⟨(operation.perform env.toEnv d.session).2, d.injections⟩ log pending
  | passed {d : Desk} {log : List Delivered} {pending : Option Delivered}
      (h : Delivers env p d log pending) (uuids : Nat → Uuid) (clock : Nat → String) :
      Delivers env p ⟨⟨d.session.store, uuids, clock⟩, d.injections⟩ log pending
  | compiled {d : Desk} {log : List Delivered} {pending : Option Delivered}
      (h : Delivers env p d log pending) {actor : MemoryActor} {workspace : Option String}
      {resumed : Bool} {maxChars : Nat} {brief : Delivered} (hrsmd : resumed = true ∨ log = [])
      (hcomp : (compilePage env actor p.agentId workspace p.provider p.processKey resumed
        maxChars d).1 = .ok (brief.draft, brief.page)) :
      Delivers env p (compilePage env actor p.agentId workspace p.provider p.processKey resumed
        maxChars d).2 log (some brief)
  | recorded {d : Desk} {log : List Delivered} {brief : Delivered}
      (h : Delivers env p d log (some brief)) {actor : MemoryActor} {workspace : Option String}
      {injectionId : String} (hrec : (recordInjection env actor p.agentId workspace p.provider
        p.processKey (brief.draft.compiled brief.page) d).1 = .ok (some injectionId)) :
      Delivers env p (recordInjection env actor p.agentId workspace p.provider p.processKey
        (brief.draft.compiled brief.page) d).2 (log ++ [brief]) none
  | others {d : Desk} {log : List Delivered} {pending : Option Delivered}
      (h : Delivers env p d log pending) (actor : MemoryActor) (workspace : Option String)
      (brief : CompiledMemoryBrief) {agentId provider processKey : String}
      (hoth : ¬(trimmed agentId = p.agentId ∧ provider = p.provider ∧
        processKey = p.processKey)) :
      Delivers env p (recordInjection env actor agentId workspace provider processKey brief d).2 log
        pending

/-- The checkpoints of the process have been recorded at later and later times. -/
def Process.InOrder (p : Process) (d : Desk) : Prop :=
  (d.injections.filter p.has).Pairwise (·.createdAt < ·.createdAt)

/-- What holds in every run. -/
structure Consistent (p : Process) (d : Desk) (log : List Delivered) (pending : Option Delivered) :
    Prop where
  valid : d.session.store.Valid
  single : d.session.store.Single
  rows : (d.injections.filter p.has).map (·.revisionIds) = log.map (·.draft.revisionIds)
  sound : ∀ brief ∈ log, Sound d.session.store brief
  pending : ∀ brief ∈ pending, Sound d.session.store brief ∧
    Follows (log.getLast?.map (·.draft)) brief.draft
  knows : Knows log

section Runs

attribute [local irreducible] compilePage draftBrief recordInjection briefPage fullLength
  Operation.perform

variable {env : BriefEnv} {p : Process} {d : Desk} {log : List Delivered}
  {pending : Option Delivered}

/-- The checkpoint recorded last is the one with the latest time. -/
theorem argmax_of_pairwise {rows : List InjectionRow} (h : rows.Pairwise (·.createdAt < ·.createdAt)) :
    rows.argmax (·.createdAt) = rows.getLast? := by
  induction rows using reverseRecOn with
  | nil => rfl
  | append_singleton rows row _ =>
    rw [argmax_concat, getLast?_concat]
    cases hmax : rows.argmax (·.createdAt) with
    | none => rfl
    | some other =>
      have hltr := (pairwise_append.1 h).2.2 other (argmax_mem hmax) row
        (mem_singleton_self row)
      exact if_pos hltr

theorem Consistent.checkpoint (h : Consistent p d log pending) (hord : p.InOrder d)
    {resumed : Bool} (hrsmd : resumed = true ∨ log = []) :
    (p.checkpoint d.injections resumed).map (·.revisionIds) =
      (log.getLast?.map (·.draft)).map (·.revisionIds) := by
  have hlast := congrArg getLast? h.rows
  rw [getLast?_map, getLast?_map] at hlast
  unfold Process.checkpoint
  cases resumed with
  | false =>
    rw [hrsmd.resolve_left Bool.false_ne_true]
    rfl
  | true =>
    have hlat : latestInjection d.injections p.agentId p.provider p.processKey =
        (d.injections.filter p.has).getLast? := argmax_of_pairwise hord
    rw [if_pos rfl, hlat, hlast, Option.map_map]
    rfl

theorem keeps_compilePage (actor : MemoryActor) (workspace : Option String) (resumed : Bool)
    (maxChars : Nat) (injections : List InjectionRow) :
    Prog.Keeps (fun d => d.injections = injections) (compilePage env actor p.agentId workspace
      p.provider p.processKey resumed maxChars) := by
  have hmry : ∀ {α : Type} (m : MemoryM α),
      Prog.Keeps (fun d => d.injections = injections) (DeskM.memory m) := by
    intro α m d hd
    rw [wp_memory]
    unfold Prog.Wp
    rcases m d.session with ⟨a | e, t⟩ <;> exact hd
  have hofExcept : ∀ {α : Type} (r : Except MemoryError α),
      Prog.Keeps (fun d : Desk => d.injections = injections) (Prog.ofExcept r) := by
    intro α r d hd
    exact Prog.wp_ofExcept_of (fun _ _ => hd) fun _ _ => hd
  have hdraft : Prog.Keeps (fun d => d.injections = injections) (draftBrief env actor p.agentId
      workspace p.provider p.processKey resumed) := by
    unfold draftBrief
    refine (hofExcept _).bind fun _ => (hmry _).bind fun _ => (hmry _).bind fun _ => ?_
    refine Prog.Keeps.bind (fun d hd => hd) fun d => ?_
    split
    · exact (hmry _).bind fun _ => .pure _
    · exact .pure _
  unfold compilePage
  exact hdraft.bind fun _ => (hmry _).bind fun _ => .pure _

variable {s : Store} {draft : BriefDraft}

theorem Kept.mono {s' : Store} (h : Kept s draft)
    (hrows : ∀ row ∈ s.records, ∃ later ∈ s'.records, MemoryRow.Same row later) : Kept s' draft := by
  intro record hrec
  obtain ⟨row, hrow, hid, hmry⟩ := h record hrec
  obtain ⟨later, hltr, hsame⟩ := hrows row hrow
  obtain ⟨_, _, _, rfl⟩ := hsame
  exact ⟨_, hltr, hid, hmry⟩

theorem Sound.mono {s' : Store} {brief : Delivered} (h : Sound s brief)
    (hrows : ∀ row ∈ s.records, ∃ later ∈ s'.records, MemoryRow.Same row later) :
    Sound s' brief := ⟨h.kept.mono hrows, h.nodup, h.listed, h.gone⟩

/-- Other tables, the same or more revisions, and the same checkpoints of the process. -/
theorem Consistent.withStore (h : Consistent p d log pending) {d' : Desk} (hval : d'.session.store.Valid)
    (hsngl : d'.session.store.Single)
    (hrows : ∀ row ∈ d.session.store.records, ∃ later ∈ d'.session.store.records, MemoryRow.Same row later)
    (hinje : d'.injections.filter p.has = d.injections.filter p.has) : Consistent p d' log pending := by
  refine ⟨hval, hsngl, ?_, fun brief hbrief => (h.sound brief hbrief).mono hrows, ?_, h.knows⟩
  · rw [hinje]
    exact h.rows
  · intro brief hbrief
    obtain ⟨hsnd, hfols⟩ := h.pending brief hbrief
    exact ⟨hsnd.mono hrows, hfols⟩

theorem Consistent.withRecords (h : Consistent p d log pending) {d' : Desk}
    (hrecs : d'.session.store.records = d.session.store.records)
    (hsrcs : d'.session.store.sources = d.session.store.sources)
    (hinje : d'.injections.filter p.has = d.injections.filter p.has) : Consistent p d' log pending := by
  have hchg : Change "" d.session.store d'.session.store := .aside hrecs hsrcs
  refine h.withStore (hchg.valid h.valid) (hchg.single h.single) (fun row hrow => ?_)
    hinje
  exact ⟨row, hrecs ▸ hrow, .refl row⟩

theorem Lists.kept {owner : String} {workspace : Option String}
    (h : Lists env s owner workspace draft.allActive) : Kept s draft := fun record hrec =>
  ⟨record.toMemoryRow, (h.inForce record hrec).mem, rfl, rfl⟩

theorem Consistent.compile (h : Consistent p d log pending) (hord : p.InOrder d) (actor : MemoryActor)
    (workspace : Option String) {resumed : Bool} (maxChars : Nat) (hrsmd : resumed = true ∨ log = []) :
    Prog.Wp (compilePage env actor p.agentId workspace p.provider p.processKey resumed maxChars)
      (fun result d' => ∃ owner, actor.authorizeSubject p.agentId = .ok owner ∧
        d'.session.store = d.session.store ∧
        Lists env d.session.store owner workspace result.1.allActive ∧
        Follows (log.getLast?.map (·.draft)) result.1 ∧
        ∃ now, result.2 = briefPage env result.1.kind result.1.changed result.1.removed maxChars now)
      (fun e _ => actor.authorizeSubject p.agentId = .error e) d := by
  unfold compilePage
  rw [Prog.wp_bind]
  refine wp_draftBrief h.valid h.single (h.checkpoint hord hrsmd) ?_ ?_ fun e _ he => he
  · intro draft hdraft
    obtain ⟨brief, hbrief, rfl⟩ := Option.map_eq_some_iff.1 hdraft
    exact (h.sound brief (mem_of_mem_getLast? hbrief)).kept
  · intro owner draft t' howner hsto hlst hfols
    rw [Prog.wp_bind, wp_memory, wp_now, Prog.wp_pure]
    exact ⟨owner, howner, hsto, hlst, hfols, _, rfl⟩

theorem authorizeSubject_eq_ok {actor : MemoryActor} {subject owner : String}
    (h : actor.authorizeSubject subject = .ok owner) : owner = trimmed subject := by
  unfold MemoryActor.authorizeSubject at h
  obtain ⟨own, hown, h⟩ := Results.bind_eq_ok.1 h
  have hown := (required_eq_ok.1 hown).1
  cases actor with
  | operator => exact (Except.ok.inj h).symm.trans hown
  | agent name =>
    obtain ⟨actorId, -, h⟩ := Results.bind_eq_ok.1 h
    split at h
    · cases h
    · exact (Except.ok.inj h).symm.trans hown

/-- **Every run is consistent** while the checkpoints are recorded at later and later times. -/
theorem Delivers.consistent (htrim : trimmed p.agentId = p.agentId)
    (h : Delivers env p d log pending) (hord : p.InOrder d) : Consistent p d log pending := by
  induction h with
  | opened uuids clock =>
    refine ⟨Store.valid_empty, Store.single_empty, rfl, by simp, by simp, ?_⟩
    intro memoryId _
    rfl
  | @wrote d log pending h operation ih =>
    have hbef := ih hord
    obtain ⟨owner, ⟨-, heff⟩ | hsame⟩ :=
      Reaches.perform_effect env.toEnv hbef.valid operation
    · exact hbef.withStore (heff.changes.valid hbef.valid)
        (heff.changes.single hbef.single) (fun row hrow => (heff.changes.kept hrow).1) rfl
    · exact hbef.withRecords (by rw [hsame]) (by rw [hsame]) rfl
  | passed h uuids clock ih => exact (ih hord).withRecords rfl rfl rfl
  | @compiled d log pending h actor workspace resumed maxChars brief hrsmd hcomp ih =>
    have hinje : (compilePage env actor p.agentId workspace p.provider p.processKey resumed
        maxChars d).2.injections = d.injections :=
      (keeps_compilePage actor workspace resumed maxChars d.injections).final rfl
    have hord' : p.InOrder d := by
      unfold Process.InOrder at hord ⊢
      rwa [hinje] at hord
    have hbef := ih hord'
    obtain ⟨owner, -, hsto, hlst, hfols, now, hpage⟩ :=
      (hbef.compile hord' actor workspace maxChars hrsmd).of_ok (Prod.ext hcomp rfl)
    have hsubl := briefPage_sublist env brief.draft.kind brief.draft.changed
      brief.draft.removed maxChars now
    have haft : Consistent p (compilePage env actor p.agentId workspace p.provider p.processKey
        resumed maxChars d).2 log pending :=
      hbef.withRecords (by rw [hsto]) (by rw [hsto]) (by rw [hinje])
    refine ⟨haft.valid, haft.single, haft.rows, haft.sound, fun other hoth => ?_,
      haft.knows⟩
    cases hoth
    rw [hsto]
    rw [← hpage] at hsubl
    exact ⟨⟨hlst.kept, hlst.nodup, hsubl.1, hsubl.2⟩, hfols⟩
  | @recorded d log brief h actor workspace injectionId hrec ih =>
    obtain ⟨row, t', hd', hhas, hids, hrecs, hsrcs⟩ : ∃ row t',
        (recordInjection env actor p.agentId workspace p.provider p.processKey
          (brief.draft.compiled brief.page) d).2 = ⟨t', d.injections ++ [row]⟩ ∧
        p.has row = true ∧ row.revisionIds = brief.draft.revisionIds ∧
        t'.store.records = d.session.store.records ∧
        t'.store.sources = d.session.store.sources := by
      have hwp : Prog.Wp (recordInjection env actor p.agentId workspace p.provider p.processKey
          (brief.draft.compiled brief.page)) (fun answer d' => answer.isSome = true →
            ∃ row t', d' = ⟨t', d.injections ++ [row]⟩ ∧ p.has row = true ∧
              row.revisionIds = brief.draft.revisionIds ∧
              t'.store.records = d.session.store.records ∧
              t'.store.sources = d.session.store.sources) (fun _ _ => True) d := by
        refine wp_recordInjection (fun _ hsome => nomatch hsome) ?_ fun _ => trivial
        intro owner row t' howner hagt hprov hkey hids hrecs hsrcs _
        refine ⟨row, t', rfl, ?_, hids, hrecs, hsrcs⟩
        rw [authorizeSubject_eq_ok howner, htrim] at hagt
        simp [Process.has, hagt, hprov, hkey]
      exact hwp.of_ok (Prod.ext hrec rfl) rfl
    rw [hd'] at hord ⊢
    have hord' : p.InOrder d := by
      unfold Process.InOrder at hord ⊢
      exact hord.sublist ((sublist_append_left _ _).filter _)
    have hbef := ih hord'
    obtain ⟨hsnd, hfols⟩ := hbef.pending brief rfl
    have hchg : Change "" d.session.store t'.store := .aside hrecs hsrcs
    have hrows : ∀ row ∈ d.session.store.records, ∃ later ∈ t'.store.records,
        MemoryRow.Same row later := fun row hrow => ⟨row, hrecs ▸ hrow, .refl row⟩
    refine ⟨hchg.valid hbef.valid, hchg.single hbef.single, ?_, ?_, by simp,
      hbef.knows.concat hsnd hfols⟩
    · simp only [filter_append, map_append, hbef.rows]
      simp [hhas, hids]
    · intro other hoth
      rcases mem_append.1 hoth with hoth | hoth
      · exact (hbef.sound other hoth).mono hrows
      · rw [mem_singleton.1 hoth]
        exact hsnd.mono hrows
  | @others d log pending h actor workspace brief agentId provider processKey hoth ih =>
    obtain ⟨rows, hd', hnone, hrecs, hsrcs⟩ : ∃ rows,
        (recordInjection env actor agentId workspace provider processKey brief d).2.injections =
          d.injections ++ rows ∧ rows.filter p.has = [] ∧
        (recordInjection env actor agentId workspace provider processKey brief
          d).2.session.store.records = d.session.store.records ∧
        (recordInjection env actor agentId workspace provider processKey brief
          d).2.session.store.sources = d.session.store.sources := by
      refine Prog.Wp.final (P := fun d' : Desk => ∃ rows, d'.injections = d.injections ++ rows ∧
        rows.filter p.has = [] ∧ d'.session.store.records = d.session.store.records ∧
          d'.session.store.sources = d.session.store.sources) ?_
      refine wp_recordInjection (fun _ => ⟨[], by simp, rfl, rfl, rfl⟩) ?_
        fun _ => ⟨[], by simp, rfl, rfl, rfl⟩
      intro owner row t' howner hagt hprov hkey _ hrecs hsrcs
      refine ⟨[row], rfl, ?_, hrecs, hsrcs⟩
      rw [filter_eq_nil_iff]
      intro other hmem
      rw [mem_singleton.1 hmem]
      simp only [Process.has, hagt, authorizeSubject_eq_ok howner, hprov, hkey,
        Bool.and_eq_true, decide_eq_true_eq, and_assoc]
      exact hoth
    have hfilt : (recordInjection env actor agentId workspace provider processKey brief
        d).2.injections.filter p.has = d.injections.filter p.has := by
      rw [hd', filter_append, hnone, append_nil]
    refine (ih ?_).withRecords hrecs hsrcs hfilt
    unfold Process.InOrder at hord ⊢
    rwa [hfilt] at hord

/-- **The next brief with enough room brings the reader up to date.**  A memory whose line is out of
date is told, be it by its new line or by the notice that it no longer applies, provided that the
last brief with something to say about it has said it, or that it is not as the last checkpoint holds
it.  When everything is as the last checkpoint holds it, all that is in force is told. -/
theorem Delivers.up_to_date (htrim : trimmed p.agentId = p.agentId)
    (h : Delivers env p d log pending) (hord : p.InOrder d) (actor : MemoryActor)
    {owner : String} (howner : actor.authorizeSubject p.agentId = .ok owner)
    (workspace : Option String) : ∃ draft d' bound, ∀ maxChars, ∃ page,
      compilePage env actor p.agentId workspace p.provider p.processKey true maxChars d =
        (.ok (draft, page), d') ∧ (bound ≤ maxChars → page.omitted = 0) ∧
      (page.omitted = 0 →
        (∀ row, InForce env d.session.store p.agentId workspace row →
          (reading log row.memoryId).map (·.revisionId) ≠ some row.revisionId →
          (¬Missed log row.memoryId ∨ checkpointed log row.memoryId ≠ some row.revisionId ∨
            Unchanged env d.session.store p.agentId workspace log) →
          ∃ record ∈ page.listed, record.toMemoryRow = row) ∧
        ∀ memoryId, (reading log memoryId).isSome →
          (∀ row, InForce env d.session.store p.agentId workspace row → row.memoryId ≠ memoryId) →
          (¬Missed log memoryId ∨ (checkpointed log memoryId).isSome) → memoryId ∈ page.gone) := by
  have hcons := h.consistent htrim hord
  -- the draft does not depend on the budget
  have hdraft : ∃ draft t, draftBrief env actor p.agentId workspace p.provider p.processKey true d =
      (.ok draft, { d with session := t }) ∧
      Lists env d.session.store p.agentId workspace draft.allActive ∧
      Follows (log.getLast?.map (·.draft)) draft := by
    have hwp : Prog.Wp (draftBrief env actor p.agentId workspace p.provider p.processKey true)
        (fun draft d' => ∃ t, d' = { d with session := t } ∧
          Lists env d.session.store p.agentId workspace draft.allActive ∧
          Follows (log.getLast?.map (·.draft)) draft) (fun _ _ => False) d := by
      refine wp_draftBrief hcons.valid hcons.single
        (hcons.checkpoint hord (.inl rfl)) ?_ ?_ ?_
      · intro draft hdraft
        obtain ⟨brief, hbrief, rfl⟩ := Option.map_eq_some_iff.1 hdraft
        exact (hcons.sound brief (mem_of_mem_getLast? hbrief)).kept
      · intro owner' draft t' hown' _ hlst hfols
        rw [authorizeSubject_eq_ok hown', htrim] at hlst
        exact ⟨t', rfl, hlst, hfols⟩
      · intro e d' he
        rw [howner] at he
        cases he
    unfold Prog.Wp at hwp
    rcases hrun : draftBrief env actor p.agentId workspace p.provider p.processKey true d with
      ⟨e | draft, d'⟩
    · rw [hrun] at hwp
      exact hwp.elim
    · rw [hrun] at hwp
      obtain ⟨t, rfl, hlst, hfols⟩ := hwp
      exact ⟨draft, t, rfl, hlst, hfols⟩
  obtain ⟨draft, t, hrun, hlst, hfols⟩ := hdraft
  refine ⟨draft, ⟨t.tick, d.injections⟩,
    fullLength env draft.kind draft.changed draft.removed (t.clock 0), fun maxChars =>
      ⟨briefPage env draft.kind draft.changed draft.removed maxChars (t.clock 0), ?_,
        briefPage_omitted_eq_zero, ?_⟩⟩
  · unfold compilePage
    change Prog.andThen (draftBrief _ _ _ _ _ _ _) _ d = _
    unfold Prog.andThen
    rw [hrun]
    rfl
  · intro homtd
    obtain ⟨hlstd, hgone⟩ := briefPage_all homtd
    have hnews (memoryId : String) :
        checkpointed log memoryId ≠ revisionOf draft.allActive memoryId →
          Delivered.Concerns ⟨draft, ⟨[], [], 0, ""⟩⟩ memoryId := fun hne =>
      Follows.concerns hfols hne
    rw [hlstd, hgone]
    refine ⟨fun row hrow hne hprov => ?_, fun memoryId hsome hnone hprov => ?_⟩
    · obtain ⟨record, hrec, rfl⟩ := hlst.all row hrow
      refine ⟨record, ?_, rfl⟩
      have htold (hold : checkpointed log record.memoryId ≠ some record.revisionId) :
          record ∈ draft.changed := by
        rw [← revisionOf_mem hlst.nodup hrec] at hold
        rcases hnews _ hold with ⟨other, hoth, hsame⟩ | hrem
        · have hact := hfols.mem_allActive hoth
          rwa [inj_on_of_nodup_map hlst.nodup hact hrec hsame] at hoth
        · exact absurd rfl (hfols.not_active hrem record hrec)
      rcases hprov with hknown | hold | hunch
      · exact htold (hcons.knows _ hknown ▸ hne)
      · exact htold hold
      · rw [hfols.resends (fun other hoth => hunch.same _ (hlst.inForce other hoth)) ?_]
        · exact hrec
        · intro memoryId hheld
          obtain ⟨row, hrow, hmry⟩ := hunch.there memoryId hheld
          obtain ⟨other, hoth, rfl⟩ := hlst.all row hrow
          exact ⟨other, hoth, hmry⟩
    · have hheld : (checkpointed log memoryId).isSome := by
        refine hprov.elim (fun hknown => ?_) id
        rw [← hcons.knows _ hknown, Option.isSome_map]
        exact hsome
      have hgoneNow : revisionOf draft.allActive memoryId = none :=
        revisionOf_eq_none.2 fun record hrec => hnone _ (hlst.inForce record hrec)
      rcases hnews memoryId (fun heq => by rw [heq, hgoneNow] at hheld; cases hheld) with
        ⟨other, hoth, hsame⟩ | hrem
      · exact absurd hsame (hnone _ (hlst.inForce other (hfols.mem_allActive hoth)))
      · exact hrem

end Runs

/-! ### Samples -/

theorem isUuidText_digit (n : Nat) :
    isUuidText (String.ofList (replicate 35 '0' ++ [Nat.digitChar (n % 16)])) = true := by
  unfold isUuidText
  rw [String.toList_ofList]
  have hall : ∀ m < 16, ((replicate 35 '0' ++ [Nat.digitChar m]).length == 36 &&
      (replicate 35 '0' ++ [Nat.digitChar m]).all fun c =>
        Text.isAsciiDigit c || ('a' ≤ c && c ≤ 'f') || c == '-') = true := by
    decide
  exact hall _ (Nat.mod_lt _ (by decide))

def sampleUuid (n : Nat) : Uuid := ⟨_, isUuidText_digit n⟩

/-- Nothing is hashed, and nothing is old. -/
def sampleBriefEnv : BriefEnv where
  windows := false
  sha256 := fun _ => ""
  batchJson := fun _ => ""
  planJson := fun _ => ""
  operationsJson := fun _ => ""
  isUuid := fun _ => true
  isAbsolutePath := fun _ => true
  mapOrder := id
  mapOrder_perm := Perm.refl
  parseRfc3339 := fun _ => some 0

/-- The desk with identifiers and a time of its own. -/
def Desk.at (d : Desk) (start : Nat) (time : String) : Desk :=
  ⟨⟨d.session.store, fun n => sampleUuid (start + n), fun _ => time⟩, d.injections⟩

def Desk.perform (d : Desk) (operation : Operation) : Desk :=
  ⟨(operation.perform sampleBriefEnv.toEnv d.session).2, d.injections⟩

def Desk.compile (d : Desk) (p : Process) (resumed : Bool) (maxChars : Nat) :=
  compilePage sampleBriefEnv .operator p.agentId none p.provider p.processKey resumed maxChars d

def Desk.record (d : Desk) (p : Process) (brief : Delivered) :=
  recordInjection sampleBriefEnv .operator p.agentId none p.provider p.processKey
    (brief.draft.compiled brief.page) d

/-- The brief that was compiled. -/
def compiledBrief (result : Except MemoryError (BriefDraft × BriefPage)) : Delivered :=
  match result with
  | .ok (draft, page) => ⟨draft, page⟩
  | .error _ => ⟨⟨.fresh, [], "", [], []⟩, ⟨[], [], 0, ""⟩⟩

theorem eq_compiledBrief {result : Except MemoryError (BriefDraft × BriefPage)} (h : result.isOk = true) :
    result = .ok ((compiledBrief result).draft, (compiledBrief result).page) := by
  cases result with
  | ok compiled => rfl
  | error => cases h

theorem exists_recorded {result : Except MemoryError (Option String)}
    (h : (result.toOption.bind id).isSome = true) : ∃ id, result = .ok (some id) := by
  rcases result with e | _ | id
  · cases h
  · cases h
  · exact ⟨id, rfl⟩

/-- A brief is compiled and recorded. -/
def Desk.deliver (d : Desk) (p : Process) (resumed : Bool) (maxChars : Nat) : Desk :=
  ((d.compile p resumed maxChars).2.record p (compiledBrief (d.compile p resumed maxChars).1)).2

theorem record_error (d : Desk) (p : Process) (e : MemoryError) :
    ((d.record p (compiledBrief (.error e))).1.toOption.bind id).isSome = false := by
  unfold Desk.record recordInjection
  cases hactor : MemoryActor.operator.authorizeSubject p.agentId with
  | error => rfl
  | ok owner => rfl

/-- The brief is compiled, and the injection of it recorded. -/
def Desk.records (d : Desk) (p : Process) (resumed : Bool) (maxChars : Nat) : Bool :=
  (((d.compile p resumed maxChars).2.record p
    (compiledBrief (d.compile p resumed maxChars).1)).1.toOption.bind id).isSome

variable {log : List Delivered}

theorem Delivers.deliver {p : Process} {d : Desk} (h : Delivers sampleBriefEnv p d log none) {resumed : Bool}
    {maxChars : Nat} (hrsmd : resumed = true ∨ log = []) (hrec : d.records p resumed maxChars = true) :
    Delivers sampleBriefEnv p (d.deliver p resumed maxChars)
      (log ++ [compiledBrief (d.compile p resumed maxChars).1]) none := by
  have hcomp : (d.compile p resumed maxChars).1.isOk = true := by
    cases hres : (d.compile p resumed maxChars).1 with
    | ok compiled => rfl
    | error e =>
      unfold Desk.records at hrec
      rw [hres, record_error] at hrec
      cases hrec
  obtain ⟨injectionId, hrecd⟩ := exists_recorded hrec
  exact (h.compiled hrsmd (eq_compiledBrief hcomp)).recorded hrecd

instance (brief : Delivered) (memoryId : String) : Decidable (brief.Shows memoryId) :=
  inferInstanceAs (Decidable (_ ∨ _))

instance (p : Process) (d : Desk) : Decidable (p.InOrder d) :=
  inferInstanceAs (Decidable (List.Pairwise _ _))

variable {memoryId : String}

theorem not_missed (h : ∀ brief ∈ log, brief.Shows memoryId) : ¬Missed log memoryId := by
  rintro ⟨earlier, brief, later, rfl, -, hshw, -⟩
  exact hshw (h brief (by simp))

theorem not_inForce {s : Store} {agentId : String} {workspace : Option String}
    (h : s.records.all (fun row => row.memoryId ≠ memoryId || row.status ≠ .active) = true) :
    ∀ row, InForce sampleBriefEnv s agentId workspace row → row.memoryId ≠ memoryId := by
  intro row hrow hmry
  have hout := all_eq_true.1 h row hrow.mem
  have hscp := hrow.scope
  simp only [MemoryRow.inScope, Bool.and_eq_true, decide_eq_true_eq] at hscp
  simp [hmry, hscp.1.2] at hout

def sampleProcess : Process := ⟨"a", "codex", "k"⟩

def saveRequest (text : String) : SaveMemoryRequest := ⟨"a", none, .stable, text, "e", [], none⟩

/-- A memory has been saved, and a fresh brief has told it. -/
def savedDesk : Desk :=
  ((⟨⟨.empty, fun n => sampleUuid n, fun _ => "2"⟩, []⟩ : Desk).perform
    (.save .operator (saveRequest "x")))

def sampleLog : List Delivered := [compiledBrief (savedDesk.compile sampleProcess false 1000).1]

def toldDesk : Desk := savedDesk.deliver sampleProcess false 1000

def sampleMemoryId : String := (sampleUuid 0).text

/-- And then the memory has been removed. -/
def removedDesk : Desk := toldDesk.perform (.remove .operator sampleMemoryId)

/-- A fresh brief has left the memory out, and then its text is another one. -/
def updatedDesk : Desk :=
  ((savedDesk.deliver sampleProcess false 25).at 6 "3").perform
    (.update .operator ⟨sampleMemoryId, "z", "e", [], none⟩)

def missedLog : List Delivered := [compiledBrief (savedDesk.compile sampleProcess false 25).1]

/-- The reader knows a memory that is not in force, and no budget makes the next brief say so. -/
def Stranded (p : Process) (d : Desk) (log : List Delivered) (memoryId : String) : Prop :=
  (reading log memoryId).isSome = true ∧
    (∀ row, InForce sampleBriefEnv d.session.store (trimmed p.agentId) none row →
      row.memoryId ≠ memoryId) ∧
    ∀ maxChars draft page, (d.compile p true maxChars).1 = .ok (draft, page) → memoryId ∉ page.gone

/-- The reader knows the memory, which has no active row, and the draft of the next brief leaves it out. -/
def strands (p : Process) (d : Desk) (log : List Delivered) (memoryId : String) : Bool :=
  (reading log memoryId).isSome && d.session.store.records.all (fun row =>
    row.memoryId ≠ memoryId || row.status ≠ .active) && (draftBrief sampleBriefEnv .operator
      p.agentId none p.provider p.processKey true d).1.toOption.all (memoryId ∉ ·.removed)

/-- A brief does not say that a memory no longer applies when its draft does not. -/
theorem stranded_of {p : Process} {d : Desk} (h : strands p d log memoryId = true) :
    Stranded p d log memoryId := by
  simp only [strands, Bool.and_eq_true] at h
  obtain ⟨⟨hkn, hrows⟩, hrem⟩ := h
  refine ⟨hkn, not_inForce hrows, fun maxChars draft page hcomp => ?_⟩
  obtain ⟨first, d₁, hdraft, hrest⟩ := Prog.bind_eq_ok (Prod.ext hcomp rfl :
    d.compile p true maxChars = (.ok (draft, page), _))
  obtain ⟨now, d₂, -, hpage⟩ := Prog.bind_eq_ok hrest
  cases congrArg Prod.fst hpage
  rw [hdraft] at hrem
  intro hgone
  exact of_decide_eq_true hrem ((briefPage_sublist sampleBriefEnv draft.kind draft.changed
    draft.removed maxChars now).2.subset hgone)

/-- The removal did not fit into the brief, of which only the title is left. -/
def omittedDesk : Desk := (removedDesk.at 6 "3").deliver sampleProcess true 25

def omittedLog : List Delivered :=
  sampleLog ++ [compiledBrief ((removedDesk.at 6 "3").compile sampleProcess true 25).1]

/-- A second memory is told at an earlier time than the first, and removed. -/
def earlierDesk : Desk := (removedDesk.at 6 "1").perform (.save .operator (saveRequest "y"))

def earlierLog : List Delivered :=
  sampleLog ++ [compiledBrief (earlierDesk.compile sampleProcess true 1000).1]

def clockDesk : Desk :=
  (earlierDesk.deliver sampleProcess true 1000).perform (.remove .operator (sampleUuid 6).text)

/-- The process is named with a blank before the agent's identifier. -/
def blankProcess : Process := ⟨" a", "codex", "k"⟩

def blankDesk : Desk :=
  (savedDesk.deliver blankProcess false 1000).perform (.remove .operator sampleMemoryId)

def blankLog : List Delivered := [compiledBrief (savedDesk.compile blankProcess false 1000).1]

theorem evaluated_desks :
    (savedDesk.records sampleProcess false 1000 = true ∧ (∀ brief ∈ sampleLog, brief.Shows sampleMemoryId) ∧
      (reading sampleLog sampleMemoryId).isSome = true ∧ sampleProcess.InOrder removedDesk ∧
      removedDesk.session.store.records.all (fun row =>
        row.memoryId ≠ sampleMemoryId || row.status ≠ .active) = true) ∧
    ((removedDesk.at 6 "3").records sampleProcess true 25 = true ∧ sampleProcess.InOrder omittedDesk ∧
      strands sampleProcess omittedDesk omittedLog sampleMemoryId = true) ∧
    (earlierDesk.records sampleProcess true 1000 = true ∧
      strands sampleProcess clockDesk earlierLog (sampleUuid 6).text = true) ∧
    (savedDesk.records blankProcess false 1000 = true ∧
      strands blankProcess blankDesk blankLog sampleMemoryId = true) := by
  decide +kernel

/-- The new revision is in force, and neither the reader nor the checkpoint has it. -/
theorem evaluated_updatedDesk :
    savedDesk.records sampleProcess false 25 = true ∧ sampleProcess.InOrder updatedDesk ∧
      ∃ row ∈ updatedDesk.session.store.records, row.text = "z" ∧
        row.inScope sampleProcess.agentId (recallScope sampleBriefEnv none) = true ∧
        sampleBriefEnv.hashText row.evidenceExcerpt = row.evidenceHash ∧
        (reading missedLog row.memoryId).map (·.revisionId) ≠ some row.revisionId ∧
        checkpointed missedLog row.memoryId ≠ some row.revisionId := by
  decide +kernel

theorem delivers_savedDesk (p : Process) : Delivers sampleBriefEnv p savedDesk [] none :=
  .wrote (.opened _ _) _

theorem delivers_toldDesk : Delivers sampleBriefEnv sampleProcess toldDesk sampleLog none :=
  (delivers_savedDesk _).deliver (.inr rfl) evaluated_desks.1.1

theorem delivers_removedDesk : Delivers sampleBriefEnv sampleProcess removedDesk sampleLog none :=
  .wrote delivers_toldDesk _

/-- The removal is told when there is room, and a change of what an earlier brief left out. -/
theorem up_to_date_removedDesk :
    (∃ maxChars draft page d',
      removedDesk.compile sampleProcess true maxChars = (.ok (draft, page), d') ∧
        sampleMemoryId ∈ page.gone) ∧
    ∃ maxChars draft page d',
      updatedDesk.compile sampleProcess true maxChars = (.ok (draft, page), d') ∧
        ∃ record ∈ page.listed, record.text = "z" := by
  have howner : MemoryActor.operator.authorizeSubject sampleProcess.agentId = .ok "a" := by
    decide
  constructor
  · obtain ⟨⟨-, hshw, hold, hbef, hout⟩, -⟩ := evaluated_desks
    obtain ⟨draft, d', bound, hall⟩ := Delivers.up_to_date (by decide)
      delivers_removedDesk hbef .operator howner none
    obtain ⟨page, hcomp, hroom, htold⟩ := hall bound
    exact ⟨bound, draft, page, d', hcomp, (htold (hroom (Nat.le_refl _))).2 sampleMemoryId hold
      (not_inForce hout) (.inl (not_missed hshw))⟩
  · obtain ⟨hrecd, hord, row, hrow, htxt, hscp, hhash, hread, hold⟩ := evaluated_updatedDesk
    obtain ⟨draft, d', bound, hall⟩ := Delivers.up_to_date (by decide)
      (.wrote (.passed ((delivers_savedDesk _).deliver (.inr rfl) hrecd) _ _) _)
      hord .operator howner none
    obtain ⟨page, hcomp, hroom, htold⟩ := hall bound
    obtain ⟨record, hrec, hsame⟩ := (htold (hroom (Nat.le_refl _))).1 row ⟨hrow, hscp, hhash⟩
      hread (.inr (.inl hold))
    exact ⟨bound, draft, page, d', hcomp, record, hrec,
      (congrArg MemoryRow.text hsame).trans htxt⟩

theorem delivers_omittedDesk : Delivers sampleBriefEnv sampleProcess omittedDesk omittedLog none := by
  have hrem : Delivers sampleBriefEnv sampleProcess (removedDesk.at 6 "3") sampleLog none :=
    .passed delivers_removedDesk _ _
  exact hrem.deliver (.inl rfl) evaluated_desks.2.1.1

theorem delivers_clockDesk : Delivers sampleBriefEnv sampleProcess clockDesk earlierLog none := by
  have hearl : Delivers sampleBriefEnv sampleProcess earlierDesk sampleLog none :=
    .wrote (.passed delivers_removedDesk _ _) _
  have htold : Delivers sampleBriefEnv sampleProcess (earlierDesk.deliver sampleProcess true 1000)
      earlierLog none := hearl.deliver (.inl rfl) evaluated_desks.2.2.1.1
  exact .wrote htold _

theorem delivers_blankDesk : Delivers sampleBriefEnv blankProcess blankDesk blankLog none := by
  have htold : Delivers sampleBriefEnv blankProcess (savedDesk.deliver blankProcess false 1000)
      blankLog none :=
    (delivers_savedDesk _).deliver (.inr rfl) evaluated_desks.2.2.2.1
  exact .wrote htold _

/-- **What was left out is not told later**, nor is what changed when the checkpoints are not
recorded at later and later times or the agent is named with a blank. -/
theorem resume_strands :
    (Delivers sampleBriefEnv sampleProcess omittedDesk omittedLog none ∧
      sampleProcess.InOrder omittedDesk ∧
      Stranded sampleProcess omittedDesk omittedLog sampleMemoryId) ∧
    (Delivers sampleBriefEnv sampleProcess clockDesk earlierLog none ∧
      Stranded sampleProcess clockDesk earlierLog (sampleUuid 6).text) ∧
    (Delivers sampleBriefEnv blankProcess blankDesk blankLog none ∧
      Stranded blankProcess blankDesk blankLog sampleMemoryId) := by
  obtain ⟨-, ⟨-, hord, homtd⟩, ⟨-, hclock⟩, -, hblk⟩ := evaluated_desks
  exact ⟨⟨delivers_omittedDesk, hord, stranded_of homtd⟩, ⟨delivers_clockDesk, stranded_of hclock⟩,
    ⟨delivers_blankDesk, stranded_of hblk⟩⟩

end Wardian.Memory
