/-
What an operation does to the revisions.

Whatever an operation does, it does in a few small changes: the first revision of a new memory is
added, the active revision of a memory is replaced by a new one, or it is removed.  A store stays
in order under each of them.

Main results:

* `Change.valid`, `Change.chained` — every small change keeps the store in order;
* `Changes.kept` — a change leaves the memories of others and the texts of all revisions alone.
-/

import Wardian.Lib.Lineage
import Wardian.Memory.Maintenance

set_option autoImplicit false

namespace Wardian.Memory

open List

/-! ### Chains -/

/-- The revisions of a memory, the oldest first. -/
def Store.history (s : Store) (memoryId : String) : List MemoryRow :=
  s.records.filter (·.memoryId = memoryId)

/-- A revision is replaced by the next one of the same owner. -/
structure Replaces (row next : MemoryRow) : Prop where
  superseded : row.status = .superseded
  replacedBy : row.replacedByRevisionId = some next.revisionId
  supersedes : next.supersedesRevisionId = some row.revisionId
  owner : next.agentId = row.agentId

/-- The last revision is in force, or the memory is removed. -/
def MemoryRow.Latest (row : MemoryRow) : Prop := row.status = .active ∨ row.status = .removed

/-- A chain of revisions. -/
abbrev Chain (rows : List MemoryRow) : Prop :=
  Lineage MemoryRow.revision Replaces MemoryRow.Latest rows

/-- Every memory is a chain of revisions. -/
def Store.Chained (s : Store) : Prop := ∀ memoryId, Chain (s.history memoryId)

/-- The keys of the table of revisions and the reference to it; identifiers of memories are UUIDs. -/
structure Store.Valid (s : Store) : Prop where
  ids : (s.records.map (·.revisionId)).Nodup
  keys : ∀ row ∈ s.records, ∀ other ∈ s.records, row.idempotencyKey.isSome →
    row.idempotencyKey = other.idempotencyKey → row = other
  uuids : ∀ row ∈ s.records, isUuidText row.memoryId = true
  sourced : ∀ source ∈ s.sources, ∃ row ∈ s.records, row.revisionId = source.revisionId

/-! ### Changes -/

/-- A row that meets the constraints of the table. -/
structure Fresh (records : List MemoryRow) (row : MemoryRow) : Prop where
  id : ∀ other ∈ records, other.revisionId ≠ row.revisionId
  number : ∀ other ∈ records, other.memoryId = row.memoryId → other.revision ≠ row.revision
  key : row.idempotencyKey.isSome → ∀ other ∈ records, other.idempotencyKey ≠ row.idempotencyKey

/-- What is written in a revision stays. -/
def MemoryRow.Same (row later : MemoryRow) : Prop := ∃ status replacedBy now,
  later = { row with status := status, replacedByRevisionId := replacedBy, updatedAt := now }

/-- How a revision may change. -/
def Settled (f : MemoryRow → MemoryRow) : Prop := ∀ row, MemoryRow.Same row (f row)

/-- The small changes to the memories of an owner. -/
inductive Change (owner : String) (s : Store) : Store → Prop where
  | created {t : Store} {row : MemoryRow} {sources : List MemorySource}
      (hown : row.agentId = owner) (hrev : row.revision = 1) (hact : row.status = .active)
      (huuid : isUuidText row.memoryId = true) (hfrs : Fresh s.records row)
      (hrecs : t.records = s.records ++ [row])
      (hsrcs : t.sources = s.sources ++ sources.map (⟨row.revisionId, ·⟩)) : Change owner s t
  | revised {t : Store} {current row : MemoryRow} {holder : Option String} {now : String}
      {sources : List MemorySource} (hmem : current ∈ s.records)
      (hcur : current.status = .active) (hcurOwner : current.agentId = owner)
      (hhldr : holder.all (· = current.agentId) = true) (hown : row.agentId = owner)
      (hmry : row.memoryId = current.memoryId)
      (hrev : row.revision = nextRevision current.revision) (hact : row.status = .active)
      (hsups : row.supersedesRevisionId = some current.revisionId)
      (hfrs : Fresh s.records row)
      (hrecs : t.records = changeRow s.records current.revisionId holder
        (·.superseded row.revisionId now) ++ [row])
      (hsrcs : t.sources = s.sources ++ sources.map (⟨row.revisionId, ·⟩)) : Change owner s t
  | retired {t : Store} {current : MemoryRow} {holder : Option String} {f : MemoryRow → MemoryRow}
      (hmem : current ∈ s.records) (hcur : current.status = .active)
      (hcurOwner : current.agentId = owner) (hhldr : holder.all (· = current.agentId) = true)
      (hf : Settled f) (hrem : ∀ row, (f row).status = .removed)
      (hrecs : t.records = changeRow s.records current.revisionId holder f)
      (hsrcs : t.sources = s.sources) : Change owner s t
  | aside {t : Store} (hrecs : t.records = s.records) (hsrcs : t.sources = s.sources) :
      Change owner s t

/-- The changes to the memories of an owner, one after the other. -/
abbrev Changes (owner : String) : Store → Store → Prop := Relation.ReflTransGen (Change owner)

/-! ### Changing one row -/

section ChangeRow

variable {records : List MemoryRow} {id : String} {holder : Option String}
  {f : MemoryRow → MemoryRow}

theorem MemoryRow.Same.refl (row : MemoryRow) : MemoryRow.Same row row := ⟨_, _, _, rfl⟩

theorem MemoryRow.Same.trans {row later last : MemoryRow} (h : MemoryRow.Same row later)
    (h' : MemoryRow.Same later last) : MemoryRow.Same row last := by
  obtain ⟨status, replacedBy, now, rfl⟩ := h
  obtain ⟨status', replacedBy', now', rfl⟩ := h'
  exact ⟨status', replacedBy', now', rfl⟩

theorem Settled.superseded (revisionId now : String) : Settled (·.superseded revisionId now) :=
  fun _ => ⟨_, _, _, rfl⟩

theorem Settled.retired (now : String) : Settled (·.retired now) :=
  fun row => ⟨.removed, row.replacedByRevisionId, now, rfl⟩

theorem Settled.keep (hf : Settled f) (row : MemoryRow) : (f row).revisionId = row.revisionId ∧
    (f row).memoryId = row.memoryId ∧ (f row).revision = row.revision ∧
      (f row).agentId = row.agentId ∧ (f row).supersedesRevisionId = row.supersedesRevisionId ∧
        (f row).idempotencyKey = row.idempotencyKey := by
  obtain ⟨status, replacedBy, now, heq⟩ := hf row
  rw [heq]
  exact ⟨rfl, rfl, rfl, rfl, rfl, rfl⟩

variable {row : MemoryRow}

theorem mem_changeRow (hmem : row ∈ changeRow records id holder f) :
    ∃ before ∈ records, row = before ∨
      before.revisionId = id ∧ holder.all (· = before.agentId) = true ∧ row = f before := by
  obtain ⟨before, hbef, heq⟩ := mem_map.1 hmem
  refine ⟨before, hbef, ?_⟩
  split at heq
  · rename_i hif
    simp only [Bool.and_eq_true, decide_eq_true_eq] at hif
    exact .inr ⟨hif.1, hif.2, heq.symm⟩
  · exact .inl heq.symm

theorem map_changeRow {β : Type} (g : MemoryRow → β) (hg : ∀ row, g (f row) = g row) :
    (changeRow records id holder f).map g = records.map g := by
  unfold changeRow
  rw [map_map]
  refine map_congr_left fun row _ => ?_
  simp only [Function.comp_apply]
  split
  · exact hg row
  · rfl

theorem length_changeRow : (changeRow records id holder f).length = records.length :=
  length_map _

theorem mem_changeRow_of_ne (hmem : row ∈ records) (hne : row.revisionId ≠ id) :
    row ∈ changeRow records id holder f := by
  refine mem_map.2 ⟨row, hmem, ?_⟩
  simp [hne]

theorem filter_changeRow (p : MemoryRow → Bool) (hp : ∀ row, p (f row) = p row) :
    (changeRow records id holder f).filter p = changeRow (records.filter p) id holder f := by
  unfold changeRow
  rw [filter_map]
  congr 1
  refine filter_congr fun row _ => ?_
  simp only [Function.comp_apply]
  split
  · exact hp row
  · rfl

theorem changeRow_of_forall_ne (h : ∀ row ∈ records, row.revisionId ≠ id) :
    changeRow records id holder f = records := by
  unfold changeRow
  refine (map_congr_left fun row hrow => ?_).trans (map_id records)
  simp [h row hrow]

/-- The last row is changed when its identifier is the one named and nobody else has it. -/
theorem changeRow_concat {earlier : List MemoryRow} (hids : ((earlier ++ [row]).map (·.revisionId)).Nodup)
    (hhldr : holder.all (· = row.agentId) = true) :
    changeRow (earlier ++ [row]) row.revisionId holder f = earlier ++ [f row] := by
  rw [map_append] at hids
  have hoth : ∀ other ∈ earlier, other.revisionId ≠ row.revisionId := by
    intro other hmem heq
    exact (nodup_append.1 hids).2.2 _ (mem_map_of_mem hmem) _ (by simp) heq
  have hsame : changeRow earlier row.revisionId holder f = earlier := changeRow_of_forall_ne hoth
  unfold changeRow at hsame ⊢
  rw [map_append, hsame]
  simp [hhldr]

end ChangeRow

/-! ### Keeping the keys -/

section Valid

variable {owner : String} {s t : Store}

theorem Store.valid_empty : Store.empty.Valid :=
  ⟨by simp [Store.empty], by simp [Store.empty], by simp [Store.empty], by simp [Store.empty]⟩

variable {row : MemoryRow}

theorem Store.Valid.eq_of_id (h : s.Valid) {other : MemoryRow} (hrow : row ∈ s.records)
    (hoth : other ∈ s.records) (heq : row.revisionId = other.revisionId) : row = other :=
  inj_on_of_nodup_map h.ids hrow hoth heq

/-- The keys stay in order when rows are changed and another one is added. -/
theorem Store.Valid.step (h : s.Valid) {rows : List MemoryRow}
    (hids : rows.map (·.revisionId) = s.records.map (·.revisionId))
    (hkeys : rows.map (·.idempotencyKey) = s.records.map (·.idempotencyKey))
    (huuids : ∀ row ∈ rows, isUuidText row.memoryId = true) (hrecs : t.records = rows)
    (hsrcs : t.sources = s.sources) : t.Valid := by
  have hlen : rows.length = s.records.length := by
    simpa using congrArg List.length hids
  -- rows at the same place have the same identifier and the same key
  have hat : ∀ row ∈ rows, ∃ before ∈ s.records, row.revisionId = before.revisionId ∧
      row.idempotencyKey = before.idempotencyKey := by
    intro row hrow
    obtain ⟨i, hi, rfl⟩ := getElem_of_mem hrow
    have hid := congrArg (fun l => l[i]?) hids
    have hkey := congrArg (fun l => l[i]?) hkeys
    simp only [getElem?_map, getElem?_eq_getElem hi,
      getElem?_eq_getElem (hlen ▸ hi), Option.map_some, Option.some.injEq] at hid hkey
    exact ⟨s.records[i], getElem_mem _, hid, hkey⟩
  have hndp : (rows.map (·.revisionId)).Nodup := hids ▸ h.ids
  refine ⟨hrecs ▸ hndp, ?_, hrecs ▸ huuids, ?_⟩
  · rw [hrecs]
    intro row hrow other hoth hsome heq
    obtain ⟨before, hbef, hid, hkey⟩ := hat row hrow
    obtain ⟨before', hbef', hid', hkey'⟩ := hat other hoth
    have hsame := h.keys before hbef before' hbef' (hkey ▸ hsome) (by rw [← hkey, ← hkey', heq])
    exact inj_on_of_nodup_map hndp hrow hoth (by rw [hid, hid', hsame])
  · rw [hrecs, hsrcs]
    intro source hsrc
    obtain ⟨row, hrow, heq⟩ := h.sourced source hsrc
    have hmem : row.revisionId ∈ rows.map (·.revisionId) := hids ▸ mem_map_of_mem hrow
    obtain ⟨row', hrow', heq'⟩ := mem_map.1 hmem
    exact ⟨row', hrow', heq'.trans heq⟩

/-- A row that meets the constraints is added with its sources. -/
theorem Store.Valid.add (h : s.Valid) {sources : List MemorySource} (hfrs : Fresh s.records row)
    (huuid : isUuidText row.memoryId = true) (hrecs : t.records = s.records ++ [row])
    (hsrcs : t.sources = s.sources ++ sources.map (⟨row.revisionId, ·⟩)) : t.Valid := by
  refine ⟨?_, ?_, ?_, ?_⟩
  · rw [hrecs, map_append, nodup_append]
    refine ⟨h.ids, by simp, ?_⟩
    intro id hid id' hid' heq
    obtain ⟨other, hoth, rfl⟩ := mem_map.1 hid
    rw [map_singleton, mem_singleton] at hid'
    exact hfrs.id other hoth (heq.trans hid')
  · rw [hrecs]
    intro first hfst second hsec hsome heq
    rcases mem_append.1 hfst with hfst | hfst
    · rcases mem_append.1 hsec with hsec | hsec
      · exact h.keys first hfst second hsec hsome heq
      · rw [mem_singleton.1 hsec] at heq
        exact absurd heq (hfrs.key (heq ▸ hsome) first hfst)
    · rw [mem_singleton.1 hfst] at hsome heq ⊢
      rcases mem_append.1 hsec with hsec | hsec
      · exact absurd heq.symm (hfrs.key hsome second hsec)
      · exact (mem_singleton.1 hsec).symm
  · rw [hrecs]
    intro other hoth
    rcases mem_append.1 hoth with hoth | hoth
    · exact h.uuids other hoth
    · rw [mem_singleton.1 hoth]
      exact huuid
  · rw [hrecs, hsrcs]
    intro source hsrc
    rcases mem_append.1 hsrc with hsrc | hsrc
    · obtain ⟨other, hoth, heq⟩ := h.sourced source hsrc
      exact ⟨other, mem_append_left _ hoth, heq⟩
    · obtain ⟨stored, -, rfl⟩ := mem_map.1 hsrc
      exact ⟨row, mem_append_right _ (mem_singleton.2 rfl), rfl⟩

variable {id : String} {holder : Option String} {f : MemoryRow → MemoryRow}

theorem Store.Valid.changeRow (h : s.Valid) (hf : Settled f)
    (hrecs : t.records = Memory.changeRow s.records id holder f) (hsrcs : t.sources = s.sources) :
    t.Valid := by
  refine h.step (map_changeRow _ fun row => (hf.keep row).1)
    (map_changeRow _ fun row => (hf.keep row).2.2.2.2.2) ?_ hrecs hsrcs
  intro row hrow
  obtain ⟨before, hbef, rfl | ⟨-, -, rfl⟩⟩ := mem_changeRow hrow
  · exact h.uuids _ hbef
  · rw [(hf.keep before).2.1]
    exact h.uuids _ hbef

theorem Fresh.changeRow (h : Fresh s.records row) (hf : Settled f) :
    Fresh (Memory.changeRow s.records id holder f) row := by
  refine ⟨?_, ?_, ?_⟩
  · intro other hoth
    obtain ⟨before, hbef, rfl | ⟨-, -, rfl⟩⟩ := mem_changeRow hoth
    · exact h.id _ hbef
    · rw [(hf.keep before).1]
      exact h.id _ hbef
  · intro other hoth
    obtain ⟨before, hbef, rfl | ⟨-, -, rfl⟩⟩ := mem_changeRow hoth
    · exact h.number _ hbef
    · rw [(hf.keep before).2.1, (hf.keep before).2.2.1]
      exact h.number _ hbef
  · intro hsome other hoth
    obtain ⟨before, hbef, rfl | ⟨-, -, rfl⟩⟩ := mem_changeRow hoth
    · exact h.key hsome _ hbef
    · rw [(hf.keep before).2.2.2.2.2]
      exact h.key hsome _ hbef

/-- A row that is not stale after another one has been changed was not stale before. -/
theorem Fresh.of_changeRow {records : List MemoryRow} (hf : Settled f)
    (h : Fresh (Memory.changeRow records id holder f) row) : Fresh records row := by
  -- every row has a successor with the same identifier, number and key
  have hltr : ∀ other ∈ records, ∃ later ∈ Memory.changeRow records id holder f,
      later.revisionId = other.revisionId ∧ later.memoryId = other.memoryId ∧
        later.revision = other.revision ∧ later.idempotencyKey = other.idempotencyKey := by
    intro other hoth
    refine ⟨_, mem_map_of_mem hoth, ?_⟩
    split
    · obtain ⟨hid, hmry, hrev, -, -, hkey⟩ := hf.keep other
      exact ⟨hid, hmry, hrev, hkey⟩
    · exact ⟨rfl, rfl, rfl, rfl⟩
  refine ⟨?_, ?_, ?_⟩
  · intro other hoth
    obtain ⟨later, hmem, hid, -⟩ := hltr other hoth
    exact hid ▸ h.id later hmem
  · intro other hoth hmry
    obtain ⟨later, hmem, -, hmry', hrev, -⟩ := hltr other hoth
    exact hrev ▸ h.number later hmem (hmry'.trans hmry)
  · intro hsome other hoth
    obtain ⟨later, hmem, -, -, -, hkey⟩ := hltr other hoth
    exact hkey ▸ h.key hsome later hmem

theorem Change.valid (h : s.Valid) (hchg : Change owner s t) : t.Valid := by
  cases hchg with
  | created _ _ _ huuid hfrs hrecs hsrcs => exact h.add hfrs huuid hrecs hsrcs
  | @revised current row holder now sources hmem _ _ _ _ hmry _ _ _ hfrs hrecs hsrcs =>
    have hmid : Store.Valid { s with records :=
        (changeRow s.records current.revisionId holder (·.superseded row.revisionId now)) } :=
      h.changeRow (.superseded row.revisionId now) rfl rfl
    refine hmid.add (hfrs.changeRow (.superseded row.revisionId now)) ?_ hrecs hsrcs
    rw [hmry]
    exact h.uuids current hmem
  | retired _ _ _ _ hf _ hrecs hsrcs => exact h.changeRow hf hrecs hsrcs
  | aside hrecs hsrcs =>
    exact h.step rfl rfl h.uuids hrecs hsrcs

theorem Changes.valid (h : s.Valid) (hchgs : Changes owner s t) : t.Valid := by
  induction hchgs with
  | refl => exact h
  | tail _ hchg ih => exact hchg.valid ih

end Valid

/-! ### Keeping the chains -/

section Chained

variable {agentId : String} {s t : Store}

theorem Store.chained_empty : Store.empty.Chained := fun _ => Lineage.nil

variable {row : MemoryRow}

theorem mem_history {memoryId : String} :
    row ∈ s.history memoryId ↔ row ∈ s.records ∧ row.memoryId = memoryId := by
  unfold Store.history
  rw [mem_filter]
  simp

theorem Store.Chained.active_last (h : s.Chained) (hrow : row ∈ s.records) (hact : row.status = .active) :
    ∃ earlier, s.history row.memoryId = earlier ++ [row] ∧ row.revision = earlier.length + 1 := by
  have hopen : ∀ other, ¬Replaces row other := by
    intro other hrepl
    have hsupe := hrepl.superseded
    rw [hact] at hsupe
    cases hsupe
  obtain ⟨earlier, heq⟩ := (h row.memoryId).eq_concat (mem_history.2 ⟨hrow, rfl⟩) hopen
  have hchain := h row.memoryId
  rw [heq] at hchain
  exact ⟨earlier, heq, hchain.number_last⟩

variable {holder : Option String} {f : MemoryRow → MemoryRow}

/-- The active revision of a memory is changed, and it is the last one. -/
theorem history_changeRow (hval : s.Valid) (hchai : s.Chained) {current : MemoryRow}
    (hmem : current ∈ s.records) (hact : current.status = .active)
    (hhldr : holder.all (· = current.agentId) = true)
    (hf : Settled f) : ∃ earlier, s.history current.memoryId = earlier ++ [current] ∧
      current.revision = earlier.length + 1 ∧ ∀ memoryId,
        (changeRow s.records current.revisionId holder f).filter (·.memoryId = memoryId) =
          if memoryId = current.memoryId then earlier ++ [f current] else s.history memoryId := by
  obtain ⟨earlier, hhist, hrev⟩ := hchai.active_last hmem hact
  refine ⟨earlier, hhist, hrev, fun memoryId => ?_⟩
  rw [filter_changeRow (p := fun row => row.memoryId = memoryId)
    (fun row => by rw [(hf.keep row).2.1])]
  split
  · rename_i heq
    subst heq
    change changeRow (s.history current.memoryId) _ _ _ = _
    rw [hhist]
    refine changeRow_concat ?_ hhldr
    rw [← hhist]
    exact hval.ids.sublist (Sublist.map _ filter_sublist)
  · rename_i hne
    refine changeRow_of_forall_ne fun row hrow heq => hne ?_
    obtain ⟨hrec, rfl⟩ := mem_history.1 hrow
    rw [hval.eq_of_id hrec hmem heq]

/-- What comes before the last revision does not see whether that one is replaced or removed. -/
theorem Replaces.settled {f : MemoryRow → MemoryRow} (hf : Settled f) {row next : MemoryRow}
    (h : Replaces row next) : Replaces row (f next) := by
  obtain ⟨hid, -, -, hown, hsups, -⟩ := hf.keep next
  exact ⟨h.superseded, by rw [hid, h.replacedBy], by rw [hsups, h.supersedes],
    by rw [hown, h.owner]⟩

/-- No memory has more revisions than there are numbers for. -/
def Store.Small (s : Store) : Prop := ∀ memoryId, (s.history memoryId).length < 2 ^ 32

theorem length_history_changeRow {memoryId id : String} (hf : Settled f) :
    ((changeRow s.records id holder f).filter (·.memoryId = memoryId)).length =
      (s.history memoryId).length := by
  rw [filter_changeRow (p := fun row => row.memoryId = memoryId)
    (fun row => by rw [(hf.keep row).2.1]), length_changeRow]
  rfl

theorem Change.length_le (hchg : Change agentId s t) (memoryId : String) :
    (s.history memoryId).length ≤ (t.history memoryId).length := by
  cases hchg with
  | created _ _ _ _ _ hrecs _ =>
    rw [Store.history, Store.history, hrecs, filter_append, length_append]
    exact Nat.le_add_right _ _
  | revised _ _ _ _ _ _ _ _ _ _ hrecs _ =>
    rw [Store.history.eq_def t, hrecs, filter_append, length_append,
      length_history_changeRow (.superseded _ _)]
    exact Nat.le_add_right _ _
  | retired _ _ _ _ hf _ hrecs _ =>
    rw [Store.history.eq_def t, hrecs, length_history_changeRow hf]
  | aside hrecs _ => rw [Store.history, Store.history, hrecs]

/-- **Every change keeps the chains**, as long as there are numbers left for revisions. -/
theorem Change.chained (hval : s.Valid) (h : s.Chained) (hchg : Change agentId s t)
    (hsml : t.Small) : t.Chained := by
  cases hchg with
  | @created row sources hown hrev hact _ hfrs hrecs _ =>
    intro memoryId
    unfold Store.history
    rw [hrecs, filter_append]
    change Chain (s.history memoryId ++ _)
    by_cases heq : row.memoryId = memoryId
    · -- the memory is new, since every memory has a first revision
      have hnone : s.history memoryId = [] := by
        rw [eq_nil_iff_forall_not_mem]
        intro other hoth
        obtain ⟨hrec, hmry⟩ := mem_history.1 hoth
        have hchain := h memoryId
        obtain ⟨first, rest, hcons⟩ := exists_cons_of_ne_nil (ne_nil_of_mem hoth)
        have hnum := (Numbered.cons_iff.1 (hcons ▸ hchain.numbered)).1
        have hfst : first ∈ s.history memoryId := hcons ▸ mem_cons_self ..
        obtain ⟨hfirstRecord, hfirstMemory⟩ := mem_history.1 hfst
        exact hfrs.number first hfirstRecord (hfirstMemory.trans heq.symm)
          (hnum.trans hrev.symm)
      rw [hnone]
      simpa [heq] using Lineage.first hrev (Or.inl hact)
    · simpa [heq] using h memoryId
  | @revised current row holder now sources hmem hcur hcurOwner hhldr hown hmry
      hrev hact hsups hfrs hrecs _ =>
      obtain ⟨earlier, hhist, hnum, hfilt⟩ := history_changeRow hval h hmem hcur hhldr
        (.superseded row.revisionId now)
      intro memoryId
      unfold Store.history
      rw [hrecs, filter_append, hfilt memoryId]
      by_cases heq : memoryId = current.memoryId
      · subst heq
        rw [if_pos rfl, filter_singleton]
        simp only [hmry, decide_true, cond_true, append_assoc, cons_append,
          nil_append]
        have hchain := h current.memoryId
        rw [hhist] at hchain
        -- there are fewer revisions than numbers
        have hlen : earlier.length + 1 + 1 < 2 ^ 32 := by
          have hbnd := hsml current.memoryId
          rw [Store.history, hrecs, filter_append, length_append,
            length_history_changeRow (.superseded _ _), hhist, length_append,
            length_singleton] at hbnd
          simpa [hmry] using hbnd
        refine hchain.replace rfl (fun _ => Replaces.settled (.superseded row.revisionId now)) ?_ ?_
          (.inl hact)
        · exact ⟨rfl, rfl, hsups, hown.trans hcurOwner.symm⟩
        · rw [hrev, hnum, nextRevision, Nat.mod_eq_of_lt hlen]
      · rw [if_neg heq]
        have hne : ¬row.memoryId = memoryId := fun hsame => heq (hsame.symm.trans hmry)
        simpa [hne] using h memoryId
  | @retired current holder f hmem hcur _ hhldr hf hrem hrecs _ =>
    obtain ⟨earlier, hhist, -, hfilt⟩ := history_changeRow hval h hmem hcur hhldr hf
    intro memoryId
    unfold Store.history
    rw [hrecs, hfilt memoryId]
    split
    · rename_i heq
      have hchain := h current.memoryId
      rw [hhist] at hchain
      exact hchain.close (hf.keep current).2.2.1 (fun _ => Replaces.settled hf)
        (.inr (hrem current))
    · exact h memoryId
  | aside hrecs _ =>
    intro memoryId
    unfold Store.history
    rw [hrecs]
    exact h memoryId

theorem Changes.length_le (hchgs : Changes agentId s t) (memoryId : String) :
    (s.history memoryId).length ≤ (t.history memoryId).length := by
  induction hchgs with
  | refl => exact Nat.le_refl _
  | tail _ hchg ih => exact ih.trans (hchg.length_le memoryId)

theorem Changes.chained (hval : s.Valid) (h : s.Chained) (hchgs : Changes agentId s t)
    (hsml : t.Small) : t.Chained := by
  induction hchgs with
  | refl => exact h
  | tail hearl hchg ih =>
    exact hchg.chained (Changes.valid hval hearl)
      (ih fun memoryId => Nat.lt_of_le_of_lt (hchg.length_le memoryId) (hsml memoryId)) hsml

theorem Change.removed_kept (hval : s.Valid) (h : s.Chained) (hchg : Change agentId s t)
    (hlast : row ∈ (s.history row.memoryId).getLast?)
    (hrem : row.status = .removed) : t.history row.memoryId = s.history row.memoryId := by
  have hrow : row ∈ s.history row.memoryId := mem_of_mem_getLast? hlast
  -- an active revision of the memory would be the last one
  have hoth : ∀ current ∈ s.records, current.status = .active → row.memoryId ≠ current.memoryId := by
    intro current hmem hact heq
    obtain ⟨earlier, hhist, -⟩ := h.active_last hmem hact
    rw [heq, hhist, getLast?_concat] at hlast
    rw [Option.some.inj hlast] at hact
    rw [hact] at hrem
    cases hrem
  cases hchg with
  | @created new sources _ hrev _ _ hfrs hrecs _ =>
    unfold Store.history
    rw [hrecs, filter_append]
    have hne : ¬new.memoryId = row.memoryId := by
      intro heq
      obtain ⟨first, rest, hcons⟩ := exists_cons_of_ne_nil (ne_nil_of_mem hrow)
      have hnum := (Numbered.cons_iff.1 (hcons ▸ (h row.memoryId).numbered)).1
      have hfst : first ∈ s.history row.memoryId := hcons ▸ mem_cons_self ..
      obtain ⟨hrec, hmry⟩ := mem_history.1 hfst
      exact hfrs.number first hrec (hmry.trans heq.symm) (hnum.trans hrev.symm)
    simp [hne]
  | @revised current new holder now sources hmem hcur _ hhldr _ hmry _ _ _ _ hrecs _ =>
    obtain ⟨_, -, -, hfilt⟩ := history_changeRow hval h hmem hcur hhldr
      (.superseded new.revisionId now)
    have hne := hoth current hmem hcur
    have hnew : ¬new.memoryId = row.memoryId := fun heq => hne (heq.symm.trans hmry)
    unfold Store.history
    rw [hrecs, filter_append, hfilt, if_neg hne]
    simp [hnew, Store.history]
  | @retired current holder f hmem hcur _ hhldr hf _ hrecs _ =>
    obtain ⟨_, -, -, hfilt⟩ := history_changeRow hval h hmem hcur hhldr hf
    unfold Store.history
    rw [hrecs, hfilt, if_neg (hoth current hmem hcur)]
    rfl
  | aside hrecs _ =>
    unfold Store.history
    rw [hrecs]

end Chained

/-! ### What is left alone -/

section Kept

variable {agentId : String} {s t : Store}

variable {holder : Option String} {f : MemoryRow → MemoryRow} {row : MemoryRow}

/-- A change of a row of the agent leaves the rows of others alone. -/
theorem mem_changeRow_of_owner (hval : s.Valid) {current : MemoryRow} (hmem : current ∈ s.records)
    (hown : current.agentId = agentId) (hf : Settled f) (hne : row.agentId ≠ agentId) :
    row ∈ changeRow s.records current.revisionId holder f ↔ row ∈ s.records := by
  constructor
  · intro hrow
    obtain ⟨before, hbef, rfl | ⟨hid, -, rfl⟩⟩ := mem_changeRow hrow
    · exact hbef
    · rw [(hf.keep before).2.2.2.1, hval.eq_of_id hbef hmem hid] at hne
      exact absurd hown hne
  · intro hrow
    refine mem_changeRow_of_ne hrow fun hid => hne ?_
    rw [hval.eq_of_id hrow hmem hid]
    exact hown

/-- A row is still there after another one has been changed, and what is written in it too. -/
theorem exists_same_changeRow {records : List MemoryRow} {id : String}
    (hf : Settled f) (hrow : row ∈ records) :
    ∃ later ∈ changeRow records id holder f, MemoryRow.Same row later := by
  refine ⟨_, mem_map_of_mem hrow, ?_⟩
  split
  · exact hf row
  · exact .refl row

/-- The sources of a revision stay when a new revision gets its sources. -/
theorem sources_kept {id : String} {new : MemoryRow} {sources : List MemorySource}
    (hne : row.revisionId ≠ new.revisionId) (hid : row.revisionId = id)
    (hsrcs : t.sources = s.sources ++ sources.map (⟨new.revisionId, ·⟩)) :
    t.sources.filter (·.revisionId = id) = s.sources.filter (·.revisionId = id) := by
  rw [hsrcs, filter_append, filter_map]
  have hnone : sources.filter
      ((fun source : SourceRow => decide (source.revisionId = id)) ∘ (⟨new.revisionId, ·⟩)) = [] := by
    refine filter_eq_nil_iff.2 fun source _ => ?_
    simp only [Function.comp_apply, decide_eq_true_eq]
    exact fun heq => hne (hid.trans heq.symm)
  rw [hnone, map_nil, append_nil]

/-- **What is written in a revision stays**, and so do its sources. -/
theorem Change.kept (hchg : Change agentId s t) (hrow : row ∈ s.records) :
    (∃ later ∈ t.records, MemoryRow.Same row later) ∧
      t.sources.filter (·.revisionId = row.revisionId) =
        s.sources.filter (·.revisionId = row.revisionId) := by
  cases hchg with
  | created _ _ _ _ hfrs hrecs hsrcs =>
    refine ⟨⟨row, ?_, .refl row⟩, sources_kept (hfrs.id row hrow) rfl hsrcs⟩
    rw [hrecs]
    exact mem_append_left _ hrow
  | revised _ _ _ _ _ _ _ _ _ hfrs hrecs hsrcs =>
    obtain ⟨later, hltr, hsame⟩ := exists_same_changeRow (.superseded _ _) hrow
    refine ⟨⟨later, ?_, hsame⟩, sources_kept (hfrs.id row hrow) rfl hsrcs⟩
    rw [hrecs]
    exact mem_append_left _ hltr
  | retired _ _ _ _ hf _ hrecs hsrcs =>
    obtain ⟨later, hltr, hsame⟩ := exists_same_changeRow hf hrow
    exact ⟨⟨later, hrecs ▸ hltr, hsame⟩, by rw [hsrcs]⟩
  | aside hrecs hsrcs =>
    exact ⟨⟨row, hrecs ▸ hrow, .refl row⟩, by rw [hsrcs]⟩

theorem Changes.kept (hchgs : Changes agentId s t) (hrow : row ∈ s.records) :
    (∃ later ∈ t.records, MemoryRow.Same row later) ∧
      t.sources.filter (·.revisionId = row.revisionId) =
        s.sources.filter (·.revisionId = row.revisionId) := by
  induction hchgs with
  | refl => exact ⟨⟨row, hrow, .refl row⟩, rfl⟩
  | tail _ hchg ih =>
    obtain ⟨⟨later, hltr, hsame⟩, hsrcs⟩ := ih
    obtain ⟨⟨last, hlast, hsame'⟩, hsrcs'⟩ := hchg.kept hltr
    have hid : later.revisionId = row.revisionId := by
      obtain ⟨_, _, _, rfl⟩ := hsame
      rfl
    rw [hid] at hsrcs'
    exact ⟨⟨last, hlast, hsame.trans hsame'⟩, hsrcs'.trans hsrcs⟩

/-- **A change to the memories of one agent leaves those of others alone.** -/
theorem Change.others (hval : s.Valid) (hchg : Change agentId s t) {row : MemoryRow}
    (hne : row.agentId ≠ agentId) : row ∈ t.records ↔ row ∈ s.records := by
  cases hchg with
  | created hown _ _ _ _ hrecs _ =>
    rw [hrecs, mem_append, mem_singleton]
    exact ⟨fun h => h.resolve_right fun heq => hne (heq ▸ hown), .inl⟩
  | revised hmem _ hcurOwner _ hown _ _ _ _ _ hrecs _ =>
    rw [hrecs, mem_append, mem_singleton,
      mem_changeRow_of_owner hval hmem hcurOwner (.superseded _ _) hne]
    exact ⟨fun h => h.resolve_right fun heq => hne (heq ▸ hown), .inl⟩
  | retired hmem _ hcurOwner _ hf _ hrecs _ =>
    rw [hrecs, mem_changeRow_of_owner hval hmem hcurOwner hf hne]
  | aside hrecs _ => rw [hrecs]

theorem Changes.others (hval : s.Valid) (hchgs : Changes agentId s t) {row : MemoryRow}
    (hne : row.agentId ≠ agentId) : row ∈ t.records ↔ row ∈ s.records := by
  induction hchgs with
  | refl => exact Iff.rfl
  | tail hearl hchg ih =>
    exact (hchg.others (Changes.valid hval hearl) hne).trans ih

end Kept

end Wardian.Memory
