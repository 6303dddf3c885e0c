/-
What is stored of a text, and what identifiers stand for.

Texts and sources are trimmed before they are stored.  An
identifier stands for the memory that has it, and the beginning of one for the only memory that has
such a beginning.

Main results:

* `Store.resolveMemoryId_spec` — an identifier stands for a memory that the actor may name;
* `Store.resolveMemoryId_self` — a full identifier stands for itself.
-/

import Wardian.Lib.Results
import Wardian.Memory.Store

set_option autoImplicit false

namespace Wardian.Memory

open Results
open Bool
open List

/-! ### Texts -/

variable {text : String}

theorem required_eq_ok {field value : String} :
    required field value = .ok text ↔ text = trimmed value ∧ text ≠ "" := by
  unfold required
  split
  · rename_i hemp
    constructor
    · intro h
      cases h
    · rintro ⟨rfl, hne⟩
      exact absurd hemp hne
  · rename_i hne
    constructor
    · intro h
      cases h
      exact ⟨rfl, hne⟩
    · rintro ⟨rfl, -⟩
      rfl

theorem trimmed_of_isUuidText (h : isUuidText text = true) : trimmed text = text := by
  unfold isUuidText at h
  rw [and_eq_true, all_eq_true] at h
  unfold trimmed
  rw [Text.trim_of_forall fun c hc => ?_, String.ofList_toList]
  have hdig := h.2 c hc
  simp only [Text.isAsciiDigit, or_eq_true, and_eq_true, decide_eq_true_eq,
    beq_iff_eq] at hdig
  rcases hdig with (⟨hlow, hhigh⟩ | ⟨hlow, hhigh⟩) | rfl
  · exact Text.isWhitespace_of_graphic (le_trans (by decide) hlow) (le_trans hhigh (by decide))
  · exact Text.isWhitespace_of_graphic (le_trans (by decide) hlow) (le_trans hhigh (by decide))
  · rfl

theorem required_of_isUuidText {field : String} (h : isUuidText text = true) :
    required field text = .ok text := by
  refine required_eq_ok.2 ⟨(trimmed_of_isUuidText h).symm, ?_⟩
  rintro rfl
  revert h
  decide

/-! ### Sources -/

/-! ### Identifiers -/

theorem MemoryActor.agentId_eq_ok {actor : MemoryActor} {owner : Option String}
    (h : actor.agentId = .ok owner) : owner = none ∧ actor = .operator ∨
      ∃ agentId, owner = some (trimmed agentId) ∧ actor = .agent agentId := by
  cases actor with
  | operator => exact .inl ⟨(Except.ok.inj h).symm, rfl⟩
  | agent agentId =>
    obtain ⟨text, hrequ, hown⟩ := bind_eq_ok.1 h
    obtain ⟨rfl, -⟩ := required_eq_ok.1 hrequ
    exact .inr ⟨agentId, (Except.ok.inj hown).symm, rfl⟩

namespace Store

variable {s : Store} {owner : Option String} {activeOnly : Bool} {memoryId : String}

theorem mem_candidates : memoryId ∈ s.candidates owner activeOnly ↔ ∃ row ∈ s.records,
    row.memoryId = memoryId ∧ owner.all (· = row.agentId) = true ∧
      (activeOnly = true → row.status = .active) := by
  unfold candidates
  rw [mem_dedup, mem_map]
  constructor
  · rintro ⟨row, hrow, hmry⟩
    obtain ⟨hmem, hchk⟩ := mem_filter.1 hrow
    simp only [and_eq_true, or_eq_true, not_eq_true', decide_eq_true_eq] at hchk
    refine ⟨row, hmem, hmry, hchk.1, fun hact => ?_⟩
    rcases hchk.2 with hfls | hstat
    · rw [hact] at hfls
      cases hfls
    · exact hstat
  · rintro ⟨row, hmem, hmry, hown, hact⟩
    refine ⟨row, mem_filter.2 ⟨hmem, ?_⟩, hmry⟩
    simp only [and_eq_true, or_eq_true, not_eq_true', decide_eq_true_eq]
    refine ⟨hown, ?_⟩
    cases activeOnly with
    | false => exact .inl rfl
    | true => exact .inr (hact rfl)

theorem queryActive_eq_some {row : MemoryRow} (h : s.queryActive owner memoryId = some row) :
    row ∈ s.records ∧ row.memoryId = memoryId ∧ row.status = .active ∧
      owner.all (· = row.agentId) = true := by
  have hmem : row ∈ s.active owner memoryId := argmax_mem h
  obtain ⟨hrec, hchk⟩ := mem_filter.1 hmem
  simp only [and_eq_true, decide_eq_true_eq] at hchk
  exact ⟨hrec, hchk.1.1, hchk.1.2, hchk.2⟩

end Store

/-- A name stands for a candidate that it is, or that it is the beginning of. -/
theorem resolveMemoryIdFromCandidates_eq_ok {requested memoryId : String} {candidates : List String}
    (h : resolveMemoryIdFromCandidates requested candidates = .ok memoryId) : memoryId ∈ candidates := by
  unfold resolveMemoryIdFromCandidates at h
  obtain ⟨name, -, h⟩ := bind_eq_ok.1 h
  split at h
  · rename_i hmem
    rw [← Except.ok.inj h]
    exact hmem
  · split at h
    · cases h
    · rename_i candidate heq
      rw [← Except.ok.inj h]
      have hmem : candidate ∈ candidates.filter
          (fun candidate => name.toList.isPrefixOf candidate.toList) := by
        rw [heq]
        exact mem_singleton.2 rfl
      exact (mem_filter.1 hmem).1
    · cases h

namespace Store

variable {s : Store} {actor : MemoryActor} {activeOnly : Bool} {requested memoryId : String}

/-- An identifier stands for a memory that the actor may name. -/
theorem resolveMemoryId_spec (h : s.resolveMemoryId actor requested activeOnly = .ok memoryId) :
    ∃ owner, actor.agentId = .ok owner ∧ memoryId ∈ s.candidates owner activeOnly := by
  obtain ⟨name, -, h⟩ := bind_eq_ok.1 h
  obtain ⟨owner, hown, h⟩ := bind_eq_ok.1 h
  exact ⟨owner, hown, resolveMemoryIdFromCandidates_eq_ok h⟩

theorem resolveMemoryId_self {owner : Option String} (hown : actor.agentId = .ok owner)
    (hmem : memoryId ∈ s.candidates owner activeOnly) (huuid : isUuidText memoryId = true) :
    s.resolveMemoryId actor memoryId activeOnly = .ok memoryId := by
  refine bind_eq_ok.2 ⟨memoryId, required_of_isUuidText huuid, ?_⟩
  refine bind_eq_ok.2 ⟨owner, hown, ?_⟩
  refine bind_eq_ok.2 ⟨memoryId, required_of_isUuidText huuid, ?_⟩
  rw [if_pos hmem]
  rfl

end Store

end Wardian.Memory
