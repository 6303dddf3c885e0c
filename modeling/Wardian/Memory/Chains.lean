/-
Chains of revisions over whole histories.

Revisions are numbered by 32-bit numbers.  As long as no memory has used them up, every memory is a
chain of revisions of one owner, a memory that is removed stays removed, agents touch only what is
theirs, and what fails changes nothing.  The revision after the last number gets the number zero.

Main results:

* `Reaches.chains` — the chains of revisions;
* `Later.remembers` — nothing is forgotten;
* `numbers_wrap` — a memory whose numbers have been used up.
-/

import Wardian.Memory.History

set_option autoImplicit false

namespace Wardian.Memory

open List
open MemoryM
open Prog (Wp wp_atomically wp_bind wp_mono wp_ofExcept_ok wp_pure)

section Chains

variable {env : Env} {t : Session} {agentId : String} {s s' : Store}

theorem Changes.removed_kept (hval : s.Valid) (h : s.Chained) (hchgs : Changes agentId s s')
    (hsml : s'.Small) {row : MemoryRow} (hlast : row ∈ (s.history row.memoryId).getLast?)
    (hrem : row.status = .removed) : s'.history row.memoryId = s.history row.memoryId := by
  induction hchgs with
  | refl => rfl
  | @tail middle last hearl hchg ih =>
    have hsml' : middle.Small := fun memoryId =>
      Nat.lt_of_le_of_lt (hchg.length_le memoryId) (hsml memoryId)
    have hsame := ih hsml'
    have hkept := hchg.removed_kept (Changes.valid hval hearl)
      (Changes.chained hval h hearl hsml') (hsame.symm ▸ hlast) hrem
    exact hkept.trans hsame

/-- **Every memory is a chain of revisions**, in every history that leaves numbers for revisions.
An operation of an agent returns and changes only what is the agent's, a memory that is removed
stays so, and an operation that fails changes nothing. -/
theorem Reaches.chains (h : Reaches env t) (hsml : t.store.Small) :
    t.store.Chained ∧ ∀ (operation : Operation) (t' : Session),
      (∀ e, operation.perform env t = (.error e, t') → t'.store = t.store) ∧
      ∀ outcome, operation.perform env t = (.ok outcome, t') →
        (∀ name, operation.actor = .agent name → outcome.Of (trimmed name) ∧
          ∀ row : MemoryRow, row.agentId ≠ trimmed name →
            (row ∈ t'.store.records ↔ row ∈ t.store.records)) ∧
        (t'.store.Small → ∀ row : MemoryRow, row ∈ (t.store.history row.memoryId).getLast? →
          row.status = .removed → t'.store.history row.memoryId = t.store.history row.memoryId) := by
  refine ⟨h.chained hsml, fun operation t' => ⟨fun e hrun => ?_, fun outcome hrun => ?_⟩⟩
  · exact congrArg Session.store ((wp_perform h.valid operation).of_error hrun)
  · obtain ⟨owner, hmay, hof, heff⟩ := (wp_perform h.valid operation).of_ok hrun
    refine ⟨fun name hname => ?_, fun hsml' row hlast hrem => ?_⟩
    · have hown := hmay name hname
      rw [hown]
      exact ⟨hof, fun row hne => heff.changes.others h.valid hne⟩
    · exact heff.changes.removed_kept h.valid (h.chained hsml) hsml' hlast hrem

end Chains

/-! ### A memory with as many revisions as there are numbers -/

/-- An identifier that spells a number in binary digits. -/
def bitsText (n : Nat) : String :=
  String.ofList ((range 36).map fun i => if n.testBit i then '1' else '0')

theorem isUuidText_bitsText (n : Nat) : isUuidText (bitsText n) = true := by
  unfold isUuidText bitsText
  rw [String.toList_ofList, length_map, length_range, Bool.and_eq_true]
  refine ⟨rfl, all_eq_true.2 fun c hc => ?_⟩
  obtain ⟨i, -, rfl⟩ := mem_map.1 hc
  cases n.testBit i <;> decide

def bitsUuid (n : Nat) : Uuid := ⟨bitsText n, isUuidText_bitsText n⟩

variable {n : Nat}

theorem bitsText_injective {m : Nat} (hm : m < 2 ^ 36) (hn : n < 2 ^ 36)
    (h : bitsText m = bitsText n) : m = n := by
  have hlist := String.ofList_injective h
  refine Nat.eq_of_testBit_eq fun i => ?_
  by_cases hi : i < 36
  · have hat := map_inj_left.1 hlist i (mem_range.2 hi)
    cases hbit : m.testBit i <;> cases hbit' : n.testBit i <;> simp_all
  · have hle : 2 ^ 36 ≤ 2 ^ i := Nat.pow_le_pow_right (by decide) (Nat.le_of_not_lt hi)
    rw [Nat.testBit_lt_two_pow (Nat.lt_of_lt_of_le hm hle),
      Nat.testBit_lt_two_pow (Nat.lt_of_lt_of_le hn hle)]

/-- A memory with so many revisions, whose identifiers spell smaller numbers. -/
structure Grown (n : Nat) (s : Store) : Prop where
  memory : ∀ row ∈ s.records, row.memoryId = bitsText 0
  ids : ∀ row ∈ s.records, ∃ k < n, row.revisionId = bitsText k
  events : ∀ event ∈ s.events, ∃ k < n, event.eventId = bitsText k
  numbers : ∀ row ∈ s.records, 1 ≤ row.revision ∧ row.revision ≤ n
  active : ∃ row ∈ s.records, row.status = .active ∧ row.revision = n

def growRequest : UpdateMemoryRequest := ⟨bitsText 0, "x", "e", [], none⟩

theorem ne_bitsText {k : Nat} (hk : k < n) (hn : n < 2 ^ 36) : bitsText k ≠ bitsText n :=
  fun h => Nat.ne_of_lt hk (bitsText_injective (hk.trans hn) hn h)

/-- The active revision of the memory is found by the identifier of the memory. -/
theorem Grown.queryActive {s : Store} (h : Grown n s) (hsngl : s.Single) :
    ∃ row ∈ s.records, row.status = .active ∧ row.revision = n ∧
      s.queryActive none (bitsText 0) = some row := by
  obtain ⟨row, hrow, hact, hnum⟩ := h.active
  refine ⟨row, hrow, hact, hnum, ?_⟩
  cases hfnd : s.queryActive none (bitsText 0) with
  | none =>
    have hemp : s.active none (bitsText 0) = [] := argmax_eq_none.1 hfnd
    have hmem : row ∈ s.active none (bitsText 0) := by
      refine mem_filter.2 ⟨hrow, ?_⟩
      simp [h.memory row hrow, hact]
    rw [hemp] at hmem
    cases hmem
  | some other =>
    obtain ⟨hoth, hmry, hotherActive, -⟩ := Store.queryActive_eq_some hfnd
    rw [hsngl.unique other hoth row hrow hotherActive hact
      (hmry.trans (h.memory row hrow).symm)]

theorem Grown.update {env : Env} {t : Session} (h : Grown n t.store) (hsngl : t.store.Single)
    (hn : n < 2 ^ 36) (hfree : ∀ row ∈ t.store.records, row.revision ≠ nextRevision n)
    (hrev : t.uuids 0 = bitsUuid n) (hevent : t.uuids 1 = bitsUuid n) :
    Wp (update env .operator growRequest) (fun _ t' =>
      (∃ row ∈ t'.store.records, row.memoryId = bitsText 0 ∧ row.revision = nextRevision n) ∧
        (nextRevision n = n + 1 → Grown (n + 1) t'.store)) (fun _ _ => False) t := by
  have hmry : ∀ field, required field (bitsText 0) = .ok (bitsText 0) :=
    fun _ => required_of_isUuidText (isUuidText_bitsText 0)
  have htext : normalizeText growRequest.text = .ok "x" := by decide
  have hevi : normalizeEvidence growRequest.evidenceExcerpt = .ok "e" := by decide
  have hsrcs : normalizeSources growRequest.sources = .ok [] := by decide +kernel
  obtain ⟨previous, hprev, hact, hnum, hquery⟩ := h.queryActive hsngl
  have hcand : bitsText 0 ∈ t.store.candidates none true :=
    Store.mem_candidates.2 ⟨previous, hprev, h.memory previous hprev, by simp [hact]⟩
  have hresv : t.store.resolveMemoryId .operator (bitsText 0) true = .ok (bitsText 0) :=
    Store.resolveMemoryId_self rfl hcand (isUuidText_bitsText 0)
  obtain ⟨row, hrow⟩ : ∃ row, row = previous.revised (t.uuids 0).text (bitsText 0) "x"
    "e" (env.hashText "e") (t.clock 0) none := ⟨_, rfl⟩
  have hrowId : row.revisionId = bitsText n := by
    rw [hrow]
    exact congrArg Uuid.text hrev
  have hfrs : Fresh t.store.records row := by
    refine ⟨fun other hoth => ?_, fun other hoth _ => ?_, fun hsome => ?_⟩
    · obtain ⟨k, hk, hid⟩ := h.ids other hoth
      rw [hid, hrowId]
      exact ne_bitsText hk hn
    · rw [hrow]
      change other.revision ≠ nextRevision previous.revision
      rw [hnum]
      exact hfree other hoth
    · rw [hrow] at hsome
      cases hsome
  unfold Memory.update
  rw [wp_bind, show growRequest.memoryId = bitsText 0 from rfl, hmry, wp_ofExcept_ok,
    wp_bind, htext, wp_ofExcept_ok, wp_bind, hevi, wp_ofExcept_ok,
    wp_bind, hsrcs, wp_ofExcept_ok, wp_bind]
  refine wp_atomically ?_
  rw [wp_bind, wp_store, wp_bind]
  change Wp (Prog.ofExcept (.ok none)) _ _ _
  rw [wp_ofExcept_ok, wp_bind]
  change Wp (pure none) _ _ _
  rw [wp_pure, wp_bind, wp_store, wp_bind, hresv, wp_ofExcept_ok, wp_bind]
  unfold queryActiveForActor
  rw [wp_bind, wp_store, wp_bind, hresv, wp_ofExcept_ok, wp_bind]
  change Wp (Prog.ofExcept (.ok none)) _ _ _
  rw [wp_ofExcept_ok, hquery, wp_pure, wp_bind]
  unfold writeRevised
  rw [wp_bind, wp_newUuid, wp_bind, wp_now, wp_bind, wp_updateRecord]
  change Wp (do
    insertRecord (previous.revised (t.uuids 0).text (bitsText 0) "x" "e" (env.hashText "e")
      (t.clock 0) none)
    _) _ _ _
  rw [← hrow]
  have heventId : (t.uuids 1).text = bitsText n := congrArg Uuid.text hevent
  refine wp_add (by rw [hrow]; rfl) (fun stored hfrs' hstrd _ => ?_) fun hrfsd _ _ => ?_
  · rw [wp_pure, wp_pure]
    change Wp (getRevision (previous.revised (t.uuids 0).text (bitsText 0) "x" "e"
      (env.hashText "e") (t.clock 0) none).revisionId) _ _ _
    rw [← hrow]
    have hnumd : row.revision = nextRevision n := by
      rw [hrow, ← hnum]
      rfl
    have hrowMemory : row.memoryId = bitsText 0 := by
      rw [hrow]
      rfl
    have hlast : ∀ rows : List MemoryRow, row ∈ rows ++ [row] := by simp
    refine wp_getRevision ⟨hfrs', stored, _, hstrd, rfl⟩
      ⟨⟨row, hlast _, hrowMemory, hnumd⟩, fun hnext => ?_⟩
    -- what the changed rows and the rows before have in common
    have hold : ∀ other ∈ changeRow t.store.records previous.revisionId (some previous.agentId)
        (·.superseded (t.uuids 0).text (t.clock 0)), ∃ before ∈ t.store.records,
          other.memoryId = before.memoryId ∧ other.revisionId = before.revisionId ∧
            other.revision = before.revision := by
      intro other hoth
      obtain ⟨before, hbef, rfl | ⟨-, -, rfl⟩⟩ := mem_changeRow hoth
      · exact ⟨_, hbef, rfl, rfl, rfl⟩
      · exact ⟨before, hbef, rfl, rfl, rfl⟩
    refine ⟨?_, ?_, ?_, ?_, ⟨row, hlast _, ?_, hnumd.trans hnext⟩⟩
    · intro other hoth
      rcases mem_append.1 hoth with hoth | hoth
      · obtain ⟨before, hbef, hsame, -⟩ := hold other hoth
        exact hsame.trans (h.memory before hbef)
      · rw [mem_singleton.1 hoth]
        exact hrowMemory
    · intro other hoth
      rcases mem_append.1 hoth with hoth | hoth
      · obtain ⟨before, hbef, -, hsame, -⟩ := hold other hoth
        obtain ⟨k, hk, hid⟩ := h.ids before hbef
        exact ⟨k, hk.trans (Nat.lt_succ_self n), hsame.trans hid⟩
      · rw [mem_singleton.1 hoth]
        exact ⟨n, Nat.lt_succ_self n, hrowId⟩
    · intro event hmem
      rcases mem_append.1 hmem with hmem | hmem
      · obtain ⟨k, hk, hid⟩ := h.events event hmem
        exact ⟨k, hk.trans (Nat.lt_succ_self n), hid⟩
      · rw [mem_singleton.1 hmem]
        exact ⟨n, Nat.lt_succ_self n, heventId⟩
    · intro other hoth
      rcases mem_append.1 hoth with hoth | hoth
      · obtain ⟨before, hbef, -, -, hsame⟩ := hold other hoth
        obtain ⟨hlow, hhigh⟩ := h.numbers before hbef
        rw [hsame]
        exact ⟨hlow, hhigh.trans (Nat.le_succ n)⟩
      · rw [mem_singleton.1 hoth, hnumd, hnext]
        exact ⟨Nat.succ_le_succ (Nat.zero_le n), Nat.le_refl _⟩
    · rw [hrow]
      rfl
  · obtain hstale | ⟨e, he⟩ | hused := hrfsd
    · exact hstale (hfrs.changeRow (.superseded _ _))
    · cases he
    · refine hused fun event hmem => ?_
      obtain ⟨k, hk, hid⟩ := h.events event hmem
      rw [hid]
      exact fun heq => ne_bitsText hk hn (heq.trans heventId)

/-- Nothing is hashed. -/
def sampleEnv : Env where
  windows := false
  sha256 := fun _ => ""
  batchJson := fun _ => ""
  planJson := fun _ => ""
  operationsJson := fun _ => ""
  isUuid := fun _ => true
  isAbsolutePath := fun _ => true
  mapOrder := id
  mapOrder_perm := Perm.refl

/-- The memory is saved. -/
def firstOperation : Operation := .save .operator ⟨"a", none, .stable, "x", "e", [], none⟩

def firstSession : Session :=
  (firstOperation.perform sampleEnv ⟨.empty, fun _ => bitsUuid 0, fun _ => "1"⟩).2

theorem grown_firstSession : Grown 1 firstSession.store := by
  refine ⟨?_, ?_, ?_, ?_, ?_⟩ <;> decide +kernel

/-- The session after one more operation, which draws identifiers of its own. -/
def Session.next (t : Session) (start : Nat) (operation : Operation) : Session :=
  (operation.perform sampleEnv ⟨t.store, fun n => bitsUuid (start + n), t.clock⟩).2

def updatedSession : Session := firstSession.next 8 (.update .operator growRequest)

def removedSession : Session := updatedSession.next 16 (.remove .operator (bitsText 0))

/-- Saved, updated and removed, the memory is a chain of two revisions, of which none is in force. -/
theorem chains_removedSession : removedSession.store.records.map (·.revision) = [1, 2] ∧
    removedSession.store.records.all (·.status ≠ .active) ∧ removedSession.store.Chained := by
  have htwo : removedSession.store.records.map (·.revision) = [1, 2] := by decide +kernel
  refine ⟨htwo, by decide +kernel, (Reaches.chains
    (((Reaches.opened _ _).performed _).failed _ _ |>.performed _ |>.failed _ _ |>.performed _) ?_).1⟩
  intro memoryId
  have hlen := length_filter_le (·.memoryId = memoryId) removedSession.store.records
  have hrows := congrArg List.length htwo
  rw [length_map] at hrows
  exact lt_of_le_of_lt hlen (hrows ▸ by decide)

/-- There is always one more revision, whatever number it gets. -/
theorem exists_updated {t : Session} (hrchs : Reaches sampleEnv t) (h : Grown n t.store) (hn : n < 2 ^ 36)
    (hfree : ∀ row ∈ t.store.records, row.revision ≠ nextRevision n) :
    ∃ t', Reaches sampleEnv t' ∧ (∃ row ∈ t'.store.records, row.memoryId = bitsText 0 ∧
      row.revision = nextRevision n) ∧ (nextRevision n = n + 1 → Grown (n + 1) t'.store) := by
  obtain ⟨t₁, ht₁⟩ : ∃ t₁ : Session, t₁ = ⟨t.store, fun _ => bitsUuid n, t.clock⟩ := ⟨_, rfl⟩
  have hrchs₁ : Reaches sampleEnv t₁ := ht₁ ▸ hrchs.failed _ _
  have hsto : t₁.store = t.store := by rw [ht₁]
  refine ⟨_, hrchs₁.performed (.update .operator growRequest), ?_⟩
  refine Wp.final (P := fun t' : Session => (∃ row ∈ t'.store.records,
    row.memoryId = bitsText 0 ∧ row.revision = nextRevision n) ∧
      (nextRevision n = n + 1 → Grown (n + 1) t'.store)) ?_
  unfold Operation.perform
  rw [wp_bind]
  refine wp_mono (Grown.update (hsto ▸ h) hrchs₁.single hn (hsto ▸ hfree) ?_ ?_)
    (fun _ _ haft => haft) fun _ _ hfls => hfls.elim
  · rw [ht₁]
  · rw [ht₁]

/-- The memory can get any number of revisions that have numbers. -/
theorem exists_grown (n : Nat) (hn : n + 1 < 2 ^ 32) : ∃ t, Reaches sampleEnv t ∧ Grown (n + 1) t.store := by
  induction n with
  | zero => exact ⟨firstSession, .performed (.opened _ _) _, grown_firstSession⟩
  | succ n ih =>
    obtain ⟨t, hrchs, hgr⟩ := ih (Nat.lt_of_succ_lt hn)
    have hnext : nextRevision (n + 1) = n + 1 + 1 := Nat.mod_eq_of_lt hn
    have hsml : n + 1 < 2 ^ 36 := (Nat.lt_of_succ_lt hn).trans (by decide)
    obtain ⟨t', hrchs', -, hgr'⟩ := exists_updated hrchs hgr hsml (by
      intro row hrow
      rw [hnext]
      exact Nat.ne_of_lt (Nat.lt_succ_of_le (hgr.numbers row hrow).2))
    exact ⟨t', hrchs', hgr' hnext⟩

/-- **A memory whose numbers have been used up** gets a revision with the number zero. -/
theorem numbers_wrap : ∃ t, Reaches sampleEnv t ∧ ¬t.store.Chained := by
  obtain ⟨t, hrchs, hgr⟩ := exists_grown (2 ^ 32 - 2) (by decide)
  have hnext : nextRevision (2 ^ 32 - 2 + 1) = 0 := rfl
  obtain ⟨t', hrchs', ⟨row, hrow, hmry, hzero⟩, -⟩ :=
    exists_updated hrchs hgr (by decide) (by
      intro row hrow
      rw [hnext]
      exact Nat.ne_of_gt (hgr.numbers row hrow).1)
  refine ⟨t', hrchs', fun hchai => ?_⟩
  have hbnd : 1 ≤ row.revision :=
    ((hchai (bitsText 0)).numbered.mem_bounds (mem_history.2 ⟨hrow, hmry⟩)).1
  rw [hzero, hnext] at hbnd
  cases hbnd

/-! ### From one moment to a later one -/

/-- What a session can become. -/
inductive Later (env : Env) (t : Session) : Session → Prop where
  | now : Later env t t
  | performed {u : Session} (h : Later env t u) (operation : Operation) :
      Later env t (operation.perform env u).2
  | failed {u : Session} (h : Later env t u) (uuids : Nat → Uuid) (clock : Nat → String) :
      Later env t ⟨u.store, uuids, clock⟩

section Later

variable {env : Env} {t u : Session}

theorem Later.reaches (h : Later env t u) (ht : Reaches env t) : Reaches env u := by
  induction h with
  | now => exact ht
  | performed _ operation ih => exact ih.performed operation
  | failed _ uuids clock ih => exact ih.failed uuids clock

/-- Nothing that was written is forgotten. -/
structure Remembers (s t : Store) : Prop where
  grows : Grows s t
  kept : ∀ row ∈ s.records, (∃ later ∈ t.records, MemoryRow.Same row later) ∧
    t.sources.filter (·.revisionId = row.revisionId) =
      s.sources.filter (·.revisionId = row.revisionId)

theorem Remembers.trans {s t u : Store} (h : Remembers s t) (h' : Remembers t u) : Remembers s u := by
  refine ⟨h.grows.trans h'.grows, fun row hrow => ?_⟩
  obtain ⟨⟨later, hltr, hsame⟩, hsrcs⟩ := h.kept row hrow
  obtain ⟨⟨last, hlast, hsame'⟩, hsrcs'⟩ := h'.kept later hltr
  have hid : later.revisionId = row.revisionId := by
    obtain ⟨_, _, _, rfl⟩ := hsame
    rfl
  rw [hid] at hsrcs'
  exact ⟨⟨last, hlast, hsame.trans hsame'⟩, hsrcs'.trans hsrcs⟩

theorem Remembers.refl (s : Store) : Remembers s s :=
  ⟨.refl s, fun row hrow => ⟨⟨row, hrow, .refl row⟩, rfl⟩⟩

/-- **Nothing is forgotten**, however many revisions there are: between two moments of a history
revisions keep what is written in them with its sources, events and receipts stay, results of
batches stay under their keys, and no cursor moves back; and one revision of a memory is in force
at most. -/
theorem Later.remembers (h : Later env t u) (ht : Reaches env t) :
    u.store.Single ∧ Remembers t.store u.store := by
  refine ⟨(h.reaches ht).single, ?_⟩
  induction h with
  | now => exact .refl _
  | failed _ _ _ ih => exact ih
  | performed hbef operation ih =>
    obtain ⟨owner, ⟨-, heff⟩ | hsame⟩ :=
      Reaches.perform_effect env (hbef.reaches ht).valid operation
    · exact ih.trans ⟨heff.grows, fun row hrow => heff.changes.kept hrow⟩
    · exact hsame ▸ ih

end Later

/-- The first revision is remembered behind the update and the removal. -/
theorem later_remembers_sample : Remembers firstSession.store removedSession.store :=
  (Later.remembers (((Later.now.failed _ _).performed _).failed _ _ |>.performed _)
    ((Reaches.opened _ _).performed _)).2

end Wardian.Memory
