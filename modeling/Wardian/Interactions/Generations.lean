/-
The generations of a provider's input as fences.

An operation on the books of a session holds the mutation lock, which is for all sessions, and the
lock of the cell that has the session's current generation.  It takes the mutation lock first and
tries the other one; when somebody holds that, it gives the mutation lock back and waits.  Whoever
writes to a provider holds the cell only, and may have got hold of it before it was cleared and
another one was put in its place.

Main results:

* `Reaches.tracks` — the current generation is the highest one since then;
* `Reaches.fence_generations` — a generation is a fence until the books are reset.
-/

import Wardian.Interactions.ProviderInput

set_option autoImplicit false

namespace Wardian.Interactions

open Option
open List

/-! ### Cells and tasks -/

/-- A cell with its lock. -/
structure Cell where
  value : Option Nat
  holder : Option Nat

/-- The cells that were created for a session, the one that is in the table, and what else is kept
of the session. -/
structure Session where
  cells : Nat → Cell
  created : Nat
  table : Option Nat
  input : Option ProviderInputState
  observation : Option Nat

def Session.empty : Session := ⟨fun _ => ⟨none, none⟩, 0, none, none, none⟩

/-- `provider_generation_cell`: the cell in the table, which is created when that is asked for. -/
def Session.providerGenerationCell (s : Session) (create : Bool) : Session :=
  if create && s.table.isNone then { s with table := some s.created, created := s.created + 1 } else s

/-- The books that somebody sees who holds a cell. -/
def Session.booksAt (s : Session) (n : Nat) : Books := ⟨(s.cells n).value, s.input, s.observation⟩

/-- The books with the current generation. -/
def Session.books (s : Session) : Books :=
  ⟨s.table.bind fun n => (s.cells n).value, s.input, s.observation⟩

/-- The session after somebody who holds a cell has changed the books. -/
def Session.write (s : Session) (n : Nat) (b : Books) : Session :=
  { s with
    cells := Function.update s.cells n { s.cells n with value := b.generation }
    input := b.input
    observation := b.observation }

/-- The cell of a session that is cleared is taken out of the table. -/
def Session.finish (s : Session) : Request → Session
  | .clear _ => { s with table := none }
  | _ => s

/-- What a task is doing. -/
inductive Phase where
  | idle
  -- it wants the mutation lock
  | waiting (request : Request)
  -- it holds the mutation lock
  | gated (request : Request)
  -- it has given the mutation lock back and waits for the cell
  | parked (request : Request) (cell : Nat)
  -- it has looked up the cell and waits for it, to hold it or to read it
  | fencing (sessionId : String) (expected cell : Nat)
  | reading (sessionId : String) (cell : Nat)
  -- it holds the cell
  | fenced (sessionId : String) (expected cell : Nat)

structure System where
  sessions : String → Session
  deleted : String → Bool
  mutation : Option Nat
  tasks : Nat → Phase

namespace System

def initial : System := ⟨fun _ => .empty, fun _ => false, none, fun _ => .idle⟩

def setTask (σ : System) (t : Nat) (phase : Phase) : System :=
  { σ with tasks := Function.update σ.tasks t phase }

def setSession (σ : System) (sessionId : String) (s : Session) : System :=
  { σ with sessions := Function.update σ.sessions sessionId s }

def setMutation (σ : System) (holder : Option Nat) : System := { σ with mutation := holder }

def setHolder (σ : System) (sessionId : String) (n : Nat) (holder : Option Nat) : System :=
  σ.setSession sessionId { σ.sessions sessionId with
    cells := Function.update (σ.sessions sessionId).cells n
      { (σ.sessions sessionId).cells n with holder := holder } }

/-- The current generation of a session. -/
def current (σ : System) (sessionId : String) : Option Nat :=
  (σ.sessions sessionId).books.generation

end System

/-- The steps of the tasks.  What is done under both locks is one step: everything it touches is
guarded by them. -/
inductive Step : System → Event → System → Prop where
  | arrive {σ : System} {t : Nat} {request : Request} (h : σ.tasks t = .idle) :
      Step σ .quiet (σ.setTask t (.waiting request))
  | gate {σ : System} {t : Nat} {request : Request} (h : σ.tasks t = .waiting request)
      (hfree : σ.mutation = none) :
      Step σ .quiet ((σ.setMutation (some t)).setTask t (.gated request))
  | perform {σ : System} {t n : Nat} {request : Request} {now : String} {s : Session} {b : Books}
      {event : Event} (h : σ.tasks t = .gated request)
      (hs : s = (σ.sessions request.sessionId).providerGenerationCell request.create)
      (hcell : s.table = some n) (hfree : (s.cells n).holder = none)
      (hb : request.perform (σ.deleted request.sessionId) now (s.booksAt n) = (b, event)) :
      Step σ event (((σ.setSession request.sessionId ((s.write n b).finish request)).setMutation
        none).setTask t .idle)
  -- there is nothing in the table, and nothing is put there
  | performWithout {σ : System} {t : Nat} {request : Request} {now : String} {b : Books}
      {event : Event} (h : σ.tasks t = .gated request) (hcrt : request.create = false)
      (hcell : (σ.sessions request.sessionId).table = none)
      (hb : request.perform (σ.deleted request.sessionId) now (σ.sessions request.sessionId).books =
        (b, event)) :
      Step σ event (((σ.setSession request.sessionId { σ.sessions request.sessionId with
        input := b.input, observation := b.observation }).setMutation none).setTask t .idle)
  | park {σ : System} {t n : Nat} {request : Request} (h : σ.tasks t = .gated request)
      (hcell : (σ.sessions request.sessionId).table = some n)
      (hheld : ((σ.sessions request.sessionId).cells n).holder ≠ none) :
      Step σ .quiet ((σ.setMutation none).setTask t (.parked request n))
  | wake {σ : System} {t n : Nat} {request : Request} (h : σ.tasks t = .parked request n)
      (hfree : ((σ.sessions request.sessionId).cells n).holder = none) :
      Step σ .quiet (σ.setTask t (.waiting request))
  | lookUpFence {σ : System} {t n expected : Nat} {sessionId : String} (h : σ.tasks t = .idle)
      (hcell : (σ.sessions sessionId).table = some n) :
      Step σ .quiet (σ.setTask t (.fencing sessionId expected n))
  | fence {σ : System} {t n expected : Nat} {sessionId : String}
      (h : σ.tasks t = .fencing sessionId expected n)
      (hfree : ((σ.sessions sessionId).cells n).holder = none)
      (hdele : σ.deleted sessionId = false)
      (hvl : ((σ.sessions sessionId).cells n).value = some expected) :
      Step σ (.fenced sessionId expected)
        ((σ.setHolder sessionId n (some t)).setTask t (.fenced sessionId expected n))
  | refuse {σ : System} {t n expected : Nat} {sessionId : String}
      (h : σ.tasks t = .fencing sessionId expected n)
      (hfree : ((σ.sessions sessionId).cells n).holder = none)
      (hstale : σ.deleted sessionId = true ∨
        ((σ.sessions sessionId).cells n).value ≠ some expected) :
      Step σ .quiet (σ.setTask t .idle)
  | drop {σ : System} {t n expected : Nat} {sessionId : String}
      (h : σ.tasks t = .fenced sessionId expected n) :
      Step σ .quiet ((σ.setHolder sessionId n none).setTask t .idle)
  | lookUp {σ : System} {t n : Nat} {sessionId : String} (h : σ.tasks t = .idle)
      (hcell : (σ.sessions sessionId).table = some n) :
      Step σ .quiet (σ.setTask t (.reading sessionId n))
  | read {σ : System} {t n : Nat} {sessionId : String} (h : σ.tasks t = .reading sessionId n)
      (hfree : ((σ.sessions sessionId).cells n).holder = none) :
      Step σ (.read sessionId ((σ.sessions sessionId).cells n).value) (σ.setTask t .idle)

/-- The runs from the start of the process; the last event stands first. -/
inductive Reaches : List Event → System → Prop where
  | initial : Reaches [] System.initial
  | step {trace : List Event} {σ σ' : System} {event : Event} (h : Reaches trace σ)
      (hstep : Step σ event σ') : Reaches (event :: trace) σ'

/-! ### The locks -/

/-- Every cell with a generation is in the table. -/
structure Session.Ordered (s : Session) : Prop where
  live : ∀ n v, (s.cells n).value = some v → s.table = some n
  unborn : ∀ n, s.created ≤ n → s.cells n = ⟨none, none⟩
  born : ∀ n, s.table = some n → n < s.created

structure System.Inv (σ : System) : Prop where
  ordered : ∀ sessionId, (σ.sessions sessionId).Ordered
  fenced : ∀ t sessionId expected n, σ.tasks t = .fenced sessionId expected n →
    (σ.sessions sessionId).cells n = ⟨some expected, some t⟩
  deleted : ∀ sessionId, σ.deleted sessionId = false

theorem Session.ordered_empty : Session.empty.Ordered := by
  refine ⟨?_, ?_, ?_⟩
  · intro n v h
    cases h
  · intro n _
    rfl
  · intro n h
    cases h

variable {s : Session}

theorem Session.Ordered.providerGenerationCell (h : s.Ordered) (create : Bool) :
    (s.providerGenerationCell create).Ordered := by
  unfold Session.providerGenerationCell
  split
  · rename_i hcrt
    simp only [Bool.and_eq_true, isNone_iff_eq_none] at hcrt
    refine ⟨?_, ?_, ?_⟩
    · intro n v hvl
      have htable := h.live n v hvl
      rw [hcrt.2] at htable
      cases htable
    · intro n hn
      exact h.unborn n (Nat.le_of_succ_le hn)
    · intro n hn
      obtain rfl := Option.some.inj hn
      exact Nat.lt_succ_self _
  · exact h

variable {n : Nat}

/-- The cell that is held belongs to the table, and the others stay as they are. -/
theorem Session.Ordered.write (h : s.Ordered) (hcell : s.table = some n)
    (b : Books) : (s.write n b).Ordered := by
  unfold Session.write
  refine ⟨?_, ?_, h.born⟩
  · intro m v hvl
    simp only [Function.update_apply] at hvl
    split at hvl
    · rename_i heq
      rw [heq]
      exact hcell
    · exact h.live m v hvl
  · intro m hm
    have hlt := h.born n hcell
    have hne : m ≠ n := by
      rintro rfl
      exact Nat.not_lt.2 hm hlt
    simp only [Function.update_apply, if_neg hne]
    exact h.unborn m hm

variable {sessionId : String}

/-- What a request makes of the generation when it clears the books. -/
theorem Request.perform_clear {deleted : Bool} {now : String} {b : Books} :
    (Request.clear sessionId).perform deleted now b = (⟨none, none, none⟩, .cleared sessionId) := rfl

theorem Session.Ordered.finish (h : s.Ordered) {request : Request} (hcell : s.table = some n)
    (hclear : ∀ sessionId, request = .clear sessionId → (s.cells n).value = none) :
    (s.finish request).Ordered := by
  unfold Session.finish
  split
  · rename_i sessionId
    refine ⟨?_, h.unborn, ?_⟩
    · intro m v hvl
      have htable := h.live m v hvl
      rw [hcell] at htable
      obtain rfl := Option.some.inj htable
      rw [hclear sessionId rfl] at hvl
      cases hvl
    · intro m hm
      cases hm
  · exact h

namespace System.Inv

variable {σ : System}

theorem initial : System.initial.Inv :=
  ⟨fun _ => Session.ordered_empty, nofun, fun _ => rfl⟩

theorem setTask (h : σ.Inv) (t : Nat) {phase : Phase}
    (hph : ∀ sessionId expected n, phase ≠ .fenced sessionId expected n) : (σ.setTask t phase).Inv := by
  refine ⟨h.ordered, ?_, h.deleted⟩
  intro t' sessionId expected n htask
  simp only [System.setTask, Function.update_apply] at htask
  split at htask
  · exact absurd htask (hph sessionId expected n)
  · exact h.fenced t' sessionId expected n htask

theorem setMutation (h : σ.Inv) (holder : Option Nat) : (σ.setMutation holder).Inv :=
  ⟨h.ordered, h.fenced, h.deleted⟩

theorem setSession (h : σ.Inv) {sessionId : String} {s : Session} (hordd : s.Ordered)
    (hheld : ∀ n, ((σ.sessions sessionId).cells n).holder ≠ none → s.cells n = (σ.sessions sessionId).cells n) :
    (σ.setSession sessionId s).Inv := by
  refine ⟨?_, ?_, h.deleted⟩
  · intro sessionId'
    simp only [System.setSession, Function.update_apply]
    split
    · exact hordd
    · exact h.ordered sessionId'
  · intro t sessionId' expected n htask
    have hcell := h.fenced t sessionId' expected n htask
    simp only [System.setSession, Function.update_apply]
    split
    · rename_i heq
      subst heq
      rw [hheld n (by rw [hcell]; simp), hcell]
    · exact hcell

theorem ordered_setHolder (h : σ.Inv) (sessionId : String) (n : Nat) (holder : Option Nat)
    (hborn : n < (σ.sessions sessionId).created) (sessionId' : String) :
    ((σ.setHolder sessionId n holder).sessions sessionId').Ordered := by
  unfold System.setHolder System.setSession
  simp only [Function.update_apply]
  split
  · have hordd := h.ordered sessionId
    refine ⟨?_, ?_, hordd.born⟩
    · intro m v hvl
      simp only [Function.update_apply] at hvl
      split at hvl
      · rename_i heq
        rw [heq]
        exact hordd.live n v hvl
      · exact hordd.live m v hvl
    · intro m hm
      have hne : m ≠ n := by
        rintro rfl
        exact Nat.not_lt.2 hm hborn
      simp only [Function.update_apply, if_neg hne]
      exact hordd.unborn m hm
  · exact h.ordered sessionId'

theorem born (h : σ.Inv) {sessionId : String} {n : Nat}
    (hcell : (σ.sessions sessionId).cells n ≠ ⟨none, none⟩) : n < (σ.sessions sessionId).created :=
  Nat.lt_of_not_le fun hle => hcell ((h.ordered sessionId).unborn n hle)

theorem step {σ' : System} {event : Event} (h : σ.Inv) (hstep : Step σ event σ') : σ'.Inv := by
  cases hstep with
  | arrive _ | wake _ _ | lookUpFence _ _ | refuse _ _ _ | lookUp _ _ | read _ _ => exact h.setTask _ nofun
  | gate _ _ => exact (h.setMutation _).setTask _ nofun
  | @perform t n request now s b event htask hs hcell hfree hb =>
    refine ((h.setSession ?_ ?_).setMutation none).setTask t nofun
    · have hordd : s.Ordered := hs ▸ (h.ordered _).providerGenerationCell _
      refine (hordd.write hcell b).finish hcell fun sessionId hreq => ?_
      rw [hreq, Request.perform_clear] at hb
      obtain ⟨rfl, -⟩ := Prod.mk.inj hb
      simp [Session.write]
    · intro m hheld
      have hcells : s.cells = (σ.sessions request.sessionId).cells := by
        rw [hs]
        unfold Session.providerGenerationCell
        split <;> rfl
      have hne : m ≠ n := by
        rintro rfl
        rw [← hcells, hfree] at hheld
        exact hheld rfl
      have hfin : ((s.write n b).finish request).cells = (s.write n b).cells := by
        unfold Session.finish
        split <;> rfl
      rw [hfin]
      simp only [Session.write, Function.update_apply, if_neg hne]
      rw [hcells]
  | @performWithout t request now b event htask hcrt hcell hb =>
    have hordd := h.ordered request.sessionId
    have hses : Session.Ordered { σ.sessions request.sessionId with
        input := b.input, observation := b.observation } :=
      ⟨hordd.live, hordd.unborn, hordd.born⟩
    exact ((h.setSession hses fun _ _ => rfl).setMutation none).setTask t nofun
  | park _ _ _ => exact (h.setMutation none).setTask _ nofun
  | @fence t n expected sessionId htask hfree hdele hvl =>
    have hborn : n < (σ.sessions sessionId).created := by
      refine h.born ?_
      intro hcell
      rw [hcell] at hvl
      cases hvl
    refine ⟨h.ordered_setHolder sessionId n (some t) hborn, ?_, h.deleted⟩
    intro t' sessionId' expected' n' htask'
    simp only [System.setTask, Function.update_apply] at htask'
    split at htask'
    · rename_i heq
      cases htask'
      simp only [System.setTask, System.setHolder, System.setSession, Function.update_self,
        hvl, heq]
    · -- nobody else holds this cell
      have hcell := h.fenced t' sessionId' expected' n' htask'
      simp only [System.setTask, System.setHolder, System.setSession, Function.update_apply]
      split
      · rename_i heq
        subst heq
        have hne : n' ≠ n := by
          rintro rfl
          rw [hcell] at hfree
          cases hfree
        simp only [Function.update_apply, if_neg hne]
        exact hcell
      · exact hcell
  | @drop t n expected sessionId htask =>
    have hheld := h.fenced t sessionId expected n htask
    have hborn : n < (σ.sessions sessionId).created := by
      refine h.born ?_
      rw [hheld]
      simp
    refine ⟨h.ordered_setHolder sessionId n none hborn, ?_, h.deleted⟩
    intro t' sessionId' expected' n' htask'
    simp only [System.setTask, Function.update_apply] at htask'
    split at htask'
    · cases htask'
    · rename_i hoth
      have hcell := h.fenced t' sessionId' expected' n' htask'
      simp only [System.setTask, System.setHolder, System.setSession, Function.update_apply]
      split
      · rename_i heq
        subst heq
        have hne : n' ≠ n := by
          rintro rfl
          rw [hheld] at hcell
          cases hcell
          exact hoth rfl
        simp only [Function.update_apply, if_neg hne]
        exact hcell
      · exact hcell

end System.Inv

variable {trace : List Event} {σ : System}

theorem Reaches.inv (h : Reaches trace σ) : σ.Inv := by
  induction h with
  | initial => exact .initial
  | step _ hstep ih => exact ih.step hstep

/-- The generation of a fence that is held is the current one. -/
theorem System.Inv.current_fenced (h : σ.Inv) {t expected : Nat}
    (htask : σ.tasks t = .fenced sessionId expected n) : σ.current sessionId = some expected := by
  have hcell := h.fenced t sessionId expected n htask
  have htable := (h.ordered sessionId).live n expected (by rw [hcell])
  simp [System.current, Session.books, htable, hcell]

/-! ### The generations since the last reset -/

/-- The books of a session are cleared or loaded. -/
def Event.resets (sessionId : String) : Event → Bool
  | .cleared sessionId' => sessionId' = sessionId
  | .hydrated sessionId' _ => sessionId' = sessionId
  | _ => false

/-- The generations that were returned or recorded for a session once something has happened. -/
def seen (sessionId : String) (event : Event) (earlier : List Nat) : List Nat :=
  match event with
  | .cleared sessionId' => if sessionId' = sessionId then [] else earlier
  | .hydrated sessionId' generation => if sessionId' = sessionId then [generation] else earlier
  | .started sessionId' generation => if sessionId' = sessionId then generation :: earlier else earlier
  | .recorded sessionId' generation =>
    if sessionId' = sessionId then generation :: earlier else earlier
  | _ => earlier

/-- The generations of a session since its books were last reset. -/
def since (sessionId : String) : List Event → List Nat
  | [] => []
  | event :: trace => seen sessionId event (since sessionId trace)

/-- The last 64-bit number has been reached. -/
def Exhausted (generations : List Nat) : Prop := ∃ generation ∈ generations, 2 ^ 64 ≤ generation + 1

/-- The current generation is the highest one that was seen. -/
structure Books.Tracks (b : Books) (generations : List Nat) : Prop where
  bound : ∀ generation ∈ generations, ∃ current ∈ b.generation, generation ≤ current
  attained : ∀ current ∈ b.generation, current ∈ generations
  input : ∀ input ∈ b.input, ∃ current ∈ b.generation, input.generation ≤ current

section Tracks

variable (sessionId now : String) (generation : Nat) (state : ProviderInputReadiness)
  (readyEvidence : Option ProviderReadyEvidence) {b : Books} {generations : List Nat}

/-- A recorded generation is the current one when it is the highest. -/
theorem Books.Tracks.record (h : b.Tracks generations) :
    (recordProviderInputStateWithGeneration sessionId generation state readyEvidence now b).1.Tracks
      (generation :: generations) := by
  have hgen := @record_generation sessionId now generation state readyEvidence b
  refine ⟨?_, ?_, ?_⟩
  · intro g hg
    rw [hgen]
    refine ⟨_, rfl, ?_⟩
    rcases mem_cons.1 hg with rfl | hg
    · cases hcur : b.generation with
      | none => exact Nat.le_refl _
      | some current => exact Nat.le_max_right _ _
    · obtain ⟨current, hcur, hle⟩ := h.bound g hg
      rw [mem_def.1 hcur]
      exact Nat.le_trans hle (Nat.le_max_left _ _)
  · intro current hcur
    rw [hgen, mem_some] at hcur
    cases hbef : b.generation with
    | none =>
      rw [hbef] at hcur
      exact mem_cons.2 (.inl hcur.symm)
    | some before =>
      rw [hbef] at hcur
      change max before generation = current at hcur
      rcases Nat.le_total before generation with hle | hle
      · rw [Nat.max_eq_right hle] at hcur
        exact mem_cons.2 (.inl hcur.symm)
      · rw [Nat.max_eq_left hle] at hcur
        exact mem_cons_of_mem _ (hcur ▸ h.attained before hbef)
  · intro input hinp
    rw [hgen]
    refine ⟨_, rfl, ?_⟩
    obtain ⟨hstrd, hres⟩ := @record_result sessionId now generation state readyEvidence b
    rw [hstrd, mem_some] at hinp
    rcases hres with hsame | ⟨existing, hexi, -, hsame⟩
    · rw [← hinp, hsame]
      cases hcur : b.generation with
      | none => exact Nat.le_refl _
      | some current => exact Nat.le_max_right _ _
    · obtain ⟨current, hcur, hle⟩ := h.input existing hexi
      rw [← hinp, hsame, mem_def.1 hcur]
      exact Nat.le_trans hle (Nat.le_max_left _ _)

/-- **A start returns a generation above all that were seen.** -/
theorem Books.Tracks.start (h : b.Tracks generations) (hroom : ¬Exhausted generations) :
    ∃ g, (Request.start sessionId state readyEvidence).perform false now b =
      ((recordProviderInputStateWithGeneration sessionId g state readyEvidence now
        { b with generation := some g }).1, .started sessionId g) ∧
      (∀ g' ∈ generations, g' < g) ∧
      (recordProviderInputStateWithGeneration sessionId g state readyEvidence now
        { b with generation := some g }).1.Tracks (g :: generations) := by
  -- the sum does not overflow
  have hroom' : ∀ current ∈ b.generation, current + 1 < 2 ^ 64 := by
    intro current hcur
    by_contra hfull
    exact hroom ⟨current, h.attained current hcur, Nat.not_lt.1 hfull⟩
  have hsum : (b.generation.getD 0 + 1) % 2 ^ 64 = b.generation.getD 0 + 1 := by
    refine Nat.mod_eq_of_lt ?_
    cases hcur : b.generation with
    | none => decide
    | some current => exact hroom' current hcur
  have habove : ∀ g' ∈ generations, g' < b.generation.getD 0 + 1 := by
    intro g' hg'
    obtain ⟨current, hcur, hle⟩ := h.bound g' hg'
    rw [mem_def.1 hcur]
    exact Nat.lt_succ_of_le hle
  have hinp : ∀ existing ∈ b.input, existing.generation < b.generation.getD 0 + 1 := by
    intro existing hexi
    obtain ⟨current, hcur, hle⟩ := h.input existing hexi
    rw [mem_def.1 hcur]
    exact Nat.lt_succ_of_le hle
  refine ⟨b.generation.getD 0 + 1, ?_, habove, ?_⟩
  · simp only [Request.perform, Bool.false_eq_true, if_false]
    rw [hsum]
    obtain ⟨-, hres⟩ := @record_result sessionId now (b.generation.getD 0 + 1) state
      readyEvidence { b with generation := some (b.generation.getD 0 + 1) }
    rcases hres with hsame | ⟨existing, hexi, hlt, -⟩
    · rw [hsame]
    · exact absurd (hinp existing hexi) (Nat.lt_asymm hlt)
  · have htrks : Books.Tracks { b with generation := some (b.generation.getD 0 + 1) }
        ((b.generation.getD 0 + 1) :: generations) := by
      refine ⟨?_, ?_, ?_⟩
      · intro g' hg'
        refine ⟨_, rfl, ?_⟩
        rcases mem_cons.1 hg' with rfl | hg'
        · exact Nat.le_refl _
        · exact Nat.le_of_lt (habove g' hg')
      · intro current hcur
        rw [mem_some] at hcur
        exact mem_cons.2 (.inl hcur.symm)
      · intro existing hexi
        exact ⟨_, rfl, Nat.le_of_lt (hinp existing hexi)⟩
    have hrec := htrks.record sessionId now (b.generation.getD 0 + 1) state readyEvidence
    refine ⟨?_, ?_, hrec.input⟩
    · intro g' hg'
      exact hrec.bound g' (mem_cons_of_mem _ hg')
    · intro current hcur
      rcases mem_cons.1 (hrec.attained current hcur) with heq | hmem
      · exact mem_cons.2 (.inl heq)
      · exact hmem

end Tracks

/-! ### What a step does to the books -/

section Perform

variable {request : Request} {now sessionId : String} {b b' : Books} {event : Event}
  {generations : List Nat}

variable {deleted : Bool}

theorem Request.perform_event (h : request.perform deleted now b = (b', event)) :
    event = .quiet ∨ (∃ g, event = .started request.sessionId g ∨
      event = .recorded request.sessionId g ∨ event = .hydrated request.sessionId g) ∨
        event = .cleared request.sessionId := by
  have hevent : event = (request.perform deleted now b).2 := by rw [h]
  cases request with
  | record sessionId generation _ _ =>
    simp only [Request.perform] at hevent
    split at hevent
    · exact .inl hevent
    · exact .inr (.inl ⟨generation, .inr (.inl hevent)⟩)
  | observe sessionId _ generation _ _ =>
    simp only [Request.perform] at hevent
    split at hevent
    · exact .inl hevent
    · split at hevent
      · exact .inl hevent
      · exact .inr (.inl ⟨generation, .inr (.inl hevent)⟩)
  | start sessionId _ _ =>
    simp only [Request.perform] at hevent
    split at hevent
    · exact .inl hevent
    · exact .inr (.inl ⟨_, .inl hevent⟩)
  | clear sessionId => exact .inr (.inr hevent)
  | hydrate row =>
    simp only [Request.perform] at hevent
    split at hevent
    · exact .inl hevent
    · exact .inr (.inl ⟨row.generation, .inr (.inr hevent)⟩)

theorem Request.seen_other (h : request.perform deleted now b = (b', event))
    (hne : request.sessionId ≠ sessionId) :
    (∀ generations, seen sessionId event generations = generations) ∧
      event.resets sessionId = false := by
  rcases Request.perform_event h with rfl | ⟨g, rfl | rfl | rfl⟩ | rfl
  · exact ⟨fun _ => rfl, rfl⟩
  · exact ⟨fun _ => if_neg hne, rfl⟩
  · exact ⟨fun _ => if_neg hne, rfl⟩
  · exact ⟨fun _ => if_neg hne, decide_eq_false hne⟩
  · exact ⟨fun _ => if_neg hne, decide_eq_false hne⟩

/-- The stored readiness is replaced by something newer, unless the books are reset. -/
theorem Request.perform_input (h : request.perform deleted now b = (b', event))
    (hrsts : event.resets request.sessionId = false) : Replaced b.input b'.input := by
  have hb : b' = (request.perform deleted now b).1 := by rw [h]
  have hevent : event = (request.perform deleted now b).2 := by rw [h]
  subst hb hevent
  cases request with
  | record sessionId generation state readyEvidence =>
    simp only [Request.perform]
    split
    · exact .refl _
    · exact record_input
  | observe sessionId statusSequence generation state readyEvidence =>
    simp only [Request.perform]
    split
    · exact .refl _
    · split
      · exact .refl _
      · exact record_input (b := { b with observation := some statusSequence })
  | start sessionId state readyEvidence =>
    simp only [Request.perform]
    split
    · exact .refl _
    · exact record_input (b := { b with generation := some ((b.generation.getD 0 + 1) % 2 ^ 64) })
  | clear sessionId => simp [Request.perform, Event.resets, Request.sessionId] at hrsts
  | hydrate row =>
    cases deleted with
    | true => exact .refl _
    | false => simp [Request.perform, Event.resets, Request.sessionId] at hrsts

/-- The current generation stays the highest one that was seen. -/
theorem Request.perform_tracks (h : request.perform false now b = (b', event))
    (htrks : event.resets request.sessionId = true ∨ ¬Exhausted generations ∧ b.Tracks generations) :
    b'.Tracks (seen request.sessionId event generations) := by
  have hb : b' = (request.perform false now b).1 := by rw [h]
  have hevent : event = (request.perform false now b).2 := by rw [h]
  subst hb hevent
  cases request with
  | record sessionId generation state readyEvidence =>
    simp only [Request.perform, Bool.false_eq_true, if_false, Event.resets, false_or] at htrks ⊢
    simp only [seen, Request.sessionId, if_true]
    exact htrks.2.record sessionId now generation state readyEvidence
  | observe sessionId statusSequence generation state readyEvidence =>
    simp only [Request.perform, Bool.false_eq_true, if_false] at htrks ⊢
    split
    · rename_i hold
      simp only [hold, if_true, Event.resets, Bool.false_eq_true, false_or] at htrks
      exact htrks.2
    · rename_i hnew
      simp only [hnew, if_false, Event.resets, Bool.false_eq_true, false_or] at htrks
      simp only [seen, Request.sessionId, if_true]
      have hobsd : Books.Tracks { b with observation := some statusSequence } generations :=
        ⟨htrks.2.bound, htrks.2.attained, htrks.2.input⟩
      exact hobsd.record sessionId now generation state readyEvidence
  | start sessionId state readyEvidence =>
    have hlive : ¬Exhausted generations ∧ b.Tracks generations := by
      refine htrks.resolve_left ?_
      simp [Request.perform, Event.resets]
    obtain ⟨g, hperf, -, hg⟩ := hlive.2.start sessionId now state readyEvidence hlive.1
    rw [hperf]
    simp only [seen, Request.sessionId, if_true]
    exact hg
  | clear sessionId =>
    simp only [Request.perform, seen, Request.sessionId, if_true]
    exact ⟨nofun, nofun, nofun⟩
  | hydrate row =>
    simp only [Request.perform, Bool.false_eq_true, if_false, seen, Request.sessionId, if_true]
    refine ⟨?_, ?_, ?_⟩
    · intro g hg
      exact ⟨row.generation, rfl, Nat.le_of_eq (mem_singleton.1 hg)⟩
    · intro current hcur
      rw [mem_some] at hcur
      exact mem_singleton.2 hcur.symm
    · intro input hinp
      rw [mem_some] at hinp
      exact ⟨row.generation, rfl, Nat.le_of_eq (by rw [hinp])⟩

end Perform

section Books

variable {σ σ' : System} {event : Event}

@[simp] theorem System.sessions_setTask (t : Nat) (phase : Phase) :
    (σ.setTask t phase).sessions = σ.sessions := rfl

@[simp] theorem System.sessions_setMutation (holder : Option Nat) :
    (σ.setMutation holder).sessions = σ.sessions := rfl

/-- Taking a lock or giving it back does not change the books. -/
theorem System.books_setHolder (sessionId sessionId' : String) (n : Nat) (holder : Option Nat) :
    ((σ.setHolder sessionId n holder).sessions sessionId').books =
      (σ.sessions sessionId').books := by
  unfold System.setHolder System.setSession
  simp only [Function.update_apply]
  split
  · rename_i heq
    rw [heq]
    unfold Session.books
    simp only [Function.update_apply, Books.mk.injEq, and_self, and_true]
    congr 1
    funext m
    split
    · rename_i hm
      rw [hm]
    · rfl
  · rfl

variable {s : Session} {n : Nat}

theorem Session.Ordered.booksAt (h : s.Ordered) {create : Bool}
    (hcell : (s.providerGenerationCell create).table = some n) :
    (s.providerGenerationCell create).booksAt n = s.books := by
  unfold Session.providerGenerationCell at hcell ⊢
  split
  · rename_i hcrt
    simp only [hcrt, if_true, Option.some.injEq] at hcell
    simp only [Bool.and_eq_true, isNone_iff_eq_none] at hcrt
    subst hcell
    simp [Session.booksAt, Session.books, hcrt.2, h.unborn s.created (Nat.le_refl _)]
  · rename_i hcrt
    rw [if_neg hcrt] at hcell
    simp [Session.booksAt, Session.books, hcell]

theorem Session.books_write (hcell : s.table = some n) (b : Books) : (s.write n b).books = b := by
  simp [Session.books, Session.write, hcell]

variable {request : Request}

/-- What a request does to the books of its session under the lock of the cell. -/
theorem Session.Ordered.books_perform (h : s.Ordered) {now : String} {b : Books}
    (hcell : (s.providerGenerationCell request.create).table = some n)
    (hb : request.perform false now ((s.providerGenerationCell request.create).booksAt n) = (b, event)) :
    request.perform false now s.books =
      ((((s.providerGenerationCell request.create).write n b).finish request).books, event) := by
  rw [h.booksAt hcell] at hb
  have hbooks : (((s.providerGenerationCell request.create).write n b).finish request).books =
      b := by
    unfold Session.finish
    split
    · -- the books of a session that is cleared are empty
      rw [Request.perform_clear] at hb
      obtain ⟨rfl, -⟩ := Prod.mk.inj hb
      rfl
    · exact Session.books_write hcell b
  rw [hbooks]
  exact hb

/-- What a request does when there is no cell: only a session that is cleared may have none. -/
theorem Session.books_performWithout {now : String} {b : Books} (hcrt : request.create = false)
    (hcell : s.table = none) (hb : request.perform false now s.books = (b, event)) :
    request.perform false now s.books =
      (({ s with input := b.input, observation := b.observation } : Session).books, event) := by
  cases request with
  | clear _ =>
    rw [Request.perform_clear] at hb ⊢
    obtain ⟨rfl, rfl⟩ := Prod.mk.inj hb
    simp [Session.books, hcell]
  | _ => cases hcrt

/-- **What a step does to the books of a session**: nothing, or what a request for it does. -/
theorem Step.books (h : σ.Inv) (hstep : Step σ event σ') (sessionId : String) :
    ((σ'.sessions sessionId).books = (σ.sessions sessionId).books ∧
      (∀ generations, seen sessionId event generations = generations) ∧
      event.resets sessionId = false) ∨
    ∃ (request : Request) (now : String), request.sessionId = sessionId ∧
      request.perform false now (σ.sessions sessionId).books =
        ((σ'.sessions sessionId).books, event) := by
  cases hstep with
  | arrive _ | gate _ _ | park _ _ _ | wake _ _ | lookUpFence _ _ | refuse _ _ _ | lookUp _ _
  | read _ _ => exact .inl ⟨rfl, fun _ => rfl, rfl⟩
  | @perform t n request now s b event htask hs hcell hfree hb =>
    rw [h.deleted] at hb
    subst hs
    have hperf := (h.ordered request.sessionId).books_perform hcell hb
    by_cases heq : request.sessionId = sessionId
    · refine .inr ⟨request, now, heq, ?_⟩
      subst heq
      simp only [System.sessions_setTask, System.sessions_setMutation, System.setSession,
        Function.update_self]
      exact hperf
    · refine .inl ⟨?_, (Request.seen_other hb heq).1,
        (Request.seen_other hb heq).2⟩
      simp only [System.sessions_setTask, System.sessions_setMutation, System.setSession,
        Function.update_apply, if_neg (Ne.symm heq)]
  | @performWithout t request now b event htask hcrt hcell hb =>
    rw [h.deleted] at hb
    have hperf := Session.books_performWithout hcrt hcell hb
    by_cases heq : request.sessionId = sessionId
    · refine .inr ⟨request, now, heq, ?_⟩
      subst heq
      simp only [System.sessions_setTask, System.sessions_setMutation, System.setSession,
        Function.update_self]
      exact hperf
    · refine .inl ⟨?_, (Request.seen_other hb heq).1,
        (Request.seen_other hb heq).2⟩
      simp only [System.sessions_setTask, System.sessions_setMutation, System.setSession,
        Function.update_apply, if_neg (Ne.symm heq)]
  | fence _ _ _ _ => exact .inl ⟨System.books_setHolder _ _ _ _, fun _ => rfl, rfl⟩
  | drop _ => exact .inl ⟨System.books_setHolder _ _ _ _, fun _ => rfl, rfl⟩

theorem System.tasks_setTask (t t' : Nat) (phase : Phase) :
    (σ.setTask t' phase).tasks t = if t = t' then phase else σ.tasks t := by
  simp [System.setTask, Function.update_apply]

/-- A task that has got the mutation lock and is done has carried its request out. -/
theorem Step.carriedOut (h : σ.Inv) (hstep : Step σ event σ') {t : Nat}
    (htask : σ.tasks t = .gated request) (hidle : σ'.tasks t = .idle) :
    ∃ now, request.perform false now (σ.sessions request.sessionId).books =
      ((σ'.sessions request.sessionId).books, event) := by
  -- a step of another task leaves this one where it is
  have hoth : ∀ {σ₁ : System} {t' : Nat} {phase : Phase}, σ₁.tasks = σ.tasks →
      (σ₁.setTask t' phase).tasks t = .idle → t = t' ∧ phase = .idle := by
    intro σ₁ t' phase htasks hdone
    rw [System.tasks_setTask] at hdone
    split at hdone
    · rename_i heq
      exact ⟨heq, hdone⟩
    · rw [htasks, htask] at hdone
      cases hdone
  cases hstep with
  | @perform t' n request' now s b event htask' hs hcell hfree hb =>
    obtain ⟨rfl, -⟩ := hoth rfl hidle
    rw [htask] at htask'
    obtain rfl := Phase.gated.inj htask'
    rw [h.deleted] at hb
    subst hs
    refine ⟨now, ?_⟩
    simp only [System.sessions_setTask, System.sessions_setMutation, System.setSession,
      Function.update_self]
    exact (h.ordered request.sessionId).books_perform hcell hb
  | @performWithout t' request' now b event htask' hcrt hcell hb =>
    obtain ⟨rfl, -⟩ := hoth rfl hidle
    rw [htask] at htask'
    obtain rfl := Phase.gated.inj htask'
    rw [h.deleted] at hb
    refine ⟨now, ?_⟩
    simp only [System.sessions_setTask, System.sessions_setMutation, System.setSession,
      Function.update_self]
    exact Session.books_performWithout hcrt hcell hb
  | refuse htask' _ _ | drop htask' | read htask' _ =>
    obtain ⟨rfl, -⟩ := hoth rfl hidle
    rw [htask] at htask'
    cases htask'
  | arrive _ | gate _ _ | park _ _ _ | wake _ _ | lookUpFence _ _ | fence _ _ _ _ | lookUp _ _ =>
    cases (hoth rfl hidle).2

/-- A fence is granted, and a generation is read, for the current generation. -/
theorem Step.current_of_cell (h : σ.Inv) (hstep : Step σ event σ') {sessionId : String} {generation : Nat}
    (hevent : event = .fenced sessionId generation ∨ event = .read sessionId (some generation)) :
    σ.current sessionId = some generation := by
  have hvl : ∀ n, ((σ.sessions sessionId).cells n).value = some generation →
      σ.current sessionId = some generation := by
    intro n hvl
    have htable := (h.ordered sessionId).live n generation hvl
    simp [System.current, Session.books, htable, hvl]
  -- what is seen of a request is neither a fence nor a read
  have hperf : ∀ {request : Request} {now : String} {b b' : Books},
      request.perform false now b ≠ (b', event) := by
    intro request now b b' hb
    rcases Request.perform_event hb with rfl | ⟨g, rfl | rfl | rfl⟩ | rfl <;>
      rcases hevent with hevent | hevent <;> cases hevent
  cases hstep with
  | perform _ _ _ _ hb | performWithout _ _ _ hb =>
    rw [h.deleted] at hb
    exact absurd hb hperf
  | fence htask _ _ hcell =>
    rcases hevent with hevent | hevent
    · obtain ⟨rfl, rfl⟩ := Event.fenced.inj hevent
      exact hvl _ hcell
    · cases hevent
  | read htask _ =>
    rcases hevent with hevent | hevent
    · cases hevent
    · obtain ⟨rfl, hcell⟩ := Event.read.inj hevent
      exact hvl _ hcell
  | _ => rcases hevent with hevent | hevent <;> cases hevent

end Books

/-! ### Runs -/

variable {generation : Nat}

theorem mem_seen {event : Event} {earlier : List Nat} (h : generation ∈ earlier)
    (hrsts : event.resets sessionId = false) : generation ∈ seen sessionId event earlier := by
  cases event with
  | started sessionId' generation' | recorded sessionId' generation' =>
    simp only [seen]
    split
    · exact mem_cons_of_mem _ h
    · exact h
  | hydrated sessionId' generation' | cleared sessionId' =>
    simp only [seen, if_neg (of_decide_eq_false hrsts)]
    exact h
  | _ => exact h

/-- **The current generation is the highest one since the books were last reset**, as long as there
are numbers left. -/
theorem Reaches.tracks (h : Reaches trace σ) (sessionId : String) :
    Exhausted (since sessionId trace) ∨
      (σ.sessions sessionId).books.Tracks (since sessionId trace) := by
  induction h with
  | initial => exact .inr ⟨nofun, nofun, nofun⟩
  | @step trace σ σ' event hrchs hstep ih =>
    rcases hstep.books hrchs.inv sessionId with ⟨hbooks, hseen, -⟩ | ⟨request, now, rfl, hb⟩
    · rw [since, hseen, hbooks]
      exact ih
    · rw [since]
      by_cases hrsts : event.resets request.sessionId = true
      · exact .inr (Request.perform_tracks hb (.inl hrsts))
      · by_cases hexha : Exhausted (since request.sessionId trace)
        · obtain ⟨g, hg, hfull⟩ := hexha
          exact .inl ⟨g, mem_seen hg (Bool.eq_false_iff.2 hrsts), hfull⟩
        · exact .inr (Request.perform_tracks hb
            (.inr ⟨hexha, ih.resolve_left hexha⟩))

/-- A start returns a generation above all those since the last reset. -/
theorem Reaches.started (h : Reaches (.started sessionId generation :: trace) σ)
    (hroom : ¬Exhausted (since sessionId trace)) :
    ∀ earlier ∈ since sessionId trace, earlier < generation := by
  cases h with
  | @step _ σ₀ _ _ hrchs hstep =>
    have htrks := (hrchs.tracks sessionId).resolve_left hroom
    rcases hstep.books hrchs.inv sessionId with ⟨-, hseen, -⟩ | ⟨request, now, rfl, hb⟩
    · have hnone := hseen []
      simp [seen] at hnone
    · cases request with
      | start sessionId state readyEvidence =>
        obtain ⟨g, hperf, habove, -⟩ := htrks.start sessionId now state readyEvidence hroom
        rw [hperf] at hb
        obtain ⟨-, hevent⟩ := Prod.mk.inj hb
        rw [← (Event.started.inj hevent).2]
        exact habove
      | record _ _ _ _ | clear _ | hydrate _ => cases (Prod.mk.inj hb).2
      | observe _ _ _ _ _ =>
        simp only [Request.perform, Bool.false_eq_true, if_false] at hb
        split at hb <;> cases (Prod.mk.inj hb).2

theorem Request.observe_older {now : String} {statusSequence latest : Nat}
    {state : ProviderInputReadiness} {readyEvidence : Option ProviderReadyEvidence} {b : Books}
    (hobse : b.observation = some latest) (hlt : statusSequence < latest) :
    (Request.observe sessionId statusSequence generation state readyEvidence).perform false now b =
      (b, .quiet) := by
  simp [Request.perform, hobse, hlt]

/-- **The generations of a provider's input are fences until the books are reset.**  A start returns
a generation above all those that were returned or recorded since then, a fence or a read succeeds for
none that is older, the current generation stays while a fence is held, and what is stored moves
forward only. -/
theorem Reaches.fence_generations {trace : List Event} {σ : System} (h : Reaches trace σ) :
    (∀ sessionId generation earlier, trace = .started sessionId generation :: earlier →
      Exhausted (since sessionId earlier) ∨
        ∀ before ∈ since sessionId earlier, before < generation) ∧
    (∀ sessionId generation earlier, trace = .fenced sessionId generation :: earlier ∨
        trace = .read sessionId (some generation) :: earlier →
      Exhausted (since sessionId earlier) ∨
        ∀ before ∈ since sessionId earlier, before ≤ generation) ∧
    (∀ t sessionId expected n, σ.tasks t = .fenced sessionId expected n →
      σ.current sessionId = some expected) ∧
    (∀ event σ' sessionId, Step σ event σ' → event.resets sessionId = false →
      Replaced (σ.sessions sessionId).input (σ'.sessions sessionId).input) ∧
    (∀ t sessionId statusSequence generation state readyEvidence latest event σ',
      σ.tasks t = .gated (.observe sessionId statusSequence generation state readyEvidence) →
      (σ.sessions sessionId).observation = some latest → statusSequence < latest →
      Step σ event σ' → σ'.tasks t = .idle →
        (σ'.sessions sessionId).books = (σ.sessions sessionId).books) := by
  refine ⟨?_, ?_, ?_, ?_, ?_⟩
  · rintro sessionId generation earlier rfl
    by_cases hroom : Exhausted (since sessionId earlier)
    · exact .inl hroom
    · exact .inr (h.started hroom)
  · intro sessionId generation earlier htr
    have hfence : ∀ event, trace = event :: earlier →
        event = .fenced sessionId generation ∨ event = .read sessionId (some generation) →
        Exhausted (since sessionId earlier) ∨
          ∀ before ∈ since sessionId earlier, before ≤ generation := by
      rintro event rfl hevent
      cases h with
      | @step _ σ₀ _ _ hrchs hstep =>
        have hcur := hstep.current_of_cell hrchs.inv hevent
        refine (hrchs.tracks sessionId).imp id fun htrks before hbef => ?_
        obtain ⟨current, hvl, hle⟩ := htrks.bound before hbef
        unfold System.current at hcur
        rw [mem_def, hcur] at hvl
        rw [Option.some.inj hvl]
        exact hle
    rcases htr with htr | htr
    · exact hfence _ htr (.inl rfl)
    · exact hfence _ htr (.inr rfl)
  · intro t sessionId expected n htask
    exact h.inv.current_fenced htask
  · intro event σ' sessionId hstep hrsts
    rcases hstep.books h.inv sessionId with ⟨hbooks, -, -⟩ | ⟨request, now, rfl, hb⟩
    · have hinp := congrArg Books.input hbooks
      change (σ'.sessions sessionId).input = (σ.sessions sessionId).input at hinp
      rw [hinp]
      exact .refl _
    · exact Request.perform_input hb hrsts
  · intro t sessionId statusSequence generation state readyEvidence latest event σ' htask
      hobse hlt hstep hidle
    obtain ⟨now, hb⟩ := hstep.carriedOut h.inv htask hidle
    rw [Request.observe_older hobse hlt] at hb
    exact (Prod.mk.inj hb).1.symm

/-! ### Numbers that are used again -/

/-- Nobody is doing anything. -/
structure System.Calm (σ : System) : Prop where
  mutation : σ.mutation = none
  idle : ∀ t, σ.tasks t = .idle
  free : ∀ sessionId n, ((σ.sessions sessionId).cells n).holder = none

/-- A request is carried out while nobody is doing anything else. -/
theorem Reaches.carryOut (h : Reaches trace σ) (hcalm : σ.Calm) (request : Request) (now : String)
    (hcell : ((σ.sessions request.sessionId).providerGenerationCell request.create).table ≠ none) :
    ∃ σ', Reaches ((request.perform false now (σ.sessions request.sessionId).books).2 ::
        .quiet :: .quiet :: trace) σ' ∧ σ'.Calm ∧
      (σ'.sessions request.sessionId).books =
        (request.perform false now (σ.sessions request.sessionId).books).1 ∧
      ((∀ sessionId, request ≠ .clear sessionId) →
        (σ'.sessions request.sessionId).table ≠ none) := by
  obtain ⟨n, hn⟩ := ne_none_iff_exists'.1 hcell
  have hordd := h.inv.ordered request.sessionId
  have hcells : ((σ.sessions request.sessionId).providerGenerationCell request.create).cells =
      (σ.sessions request.sessionId).cells := by
    unfold Session.providerGenerationCell
    split <;> rfl
  have harrive : Step σ .quiet (σ.setTask 0 (.waiting request)) := .arrive (hcalm.idle 0)
  have hgate : Step (σ.setTask 0 (.waiting request)) .quiet
      (((σ.setTask 0 (.waiting request)).setMutation (some 0)).setTask 0 (.gated request)) :=
    .gate (by rw [System.tasks_setTask, if_pos rfl]) hcalm.mutation
  obtain ⟨b, event, hb⟩ : ∃ b event, request.perform false now
      (((σ.sessions request.sessionId).providerGenerationCell request.create).booksAt n) =
        (b, event) := ⟨_, _, rfl⟩
  have hdele : (((σ.setTask 0 (.waiting request)).setMutation (some 0)).setTask 0
      (.gated request)).deleted request.sessionId = false := h.inv.deleted request.sessionId
  have htask : (((σ.setTask 0 (.waiting request)).setMutation (some 0)).setTask 0
      (.gated request)).tasks 0 = .gated request := by
    rw [System.tasks_setTask, if_pos rfl]
  have hfree : (((σ.sessions request.sessionId).providerGenerationCell request.create).cells
      n).holder = none := by
    rw [hcells]
    exact hcalm.free request.sessionId n
  have hperf := Step.perform htask rfl hn hfree (hdele ▸ hb)
  have hrchs := ((h.step harrive).step hgate).step hperf
  have hbooks := hordd.books_perform hn hb
  have hevent : event = (request.perform false now (σ.sessions request.sessionId).books).2 := by
    rw [hbooks]
  rw [hevent] at hrchs
  refine ⟨_, hrchs, ⟨rfl, ?_, ?_⟩, ?_, ?_⟩
  · intro t
    simp only [System.setTask, System.setSession, System.setMutation, Function.update_apply]
    split
    · rfl
    · exact hcalm.idle t
  · intro sessionId m
    simp only [System.setTask, System.setSession, System.setMutation, Function.update_apply]
    split
    · rename_i heq
      subst heq
      have hfin : ∀ s : Session, (s.finish request).cells = s.cells := by
        intro s
        unfold Session.finish
        split <;> rfl
      rw [hfin]
      simp only [Session.write, Function.update_apply]
      split
      · rw [hcells]
        exact hcalm.free _ _
      · rw [hcells]
        exact hcalm.free _ _
    · exact hcalm.free sessionId m
  · simp only [System.setTask, System.setSession, System.setMutation, Function.update_self]
    rw [hbooks]
  · intro hkeep
    simp only [System.setTask, System.setSession, System.setMutation, Function.update_self]
    have hfin : ∀ s : Session, s.finish request = s := by
      intro s
      unfold Session.finish
      split
      · exact absurd rfl (hkeep _)
      · rfl
    rw [hfin]
    exact ne_none_iff_exists'.2 ⟨n, hn⟩

theorem System.calm_initial : System.initial.Calm := ⟨rfl, fun _ => rfl, fun _ _ => rfl⟩

theorem reaches_start : ∃ σ, Reaches [.started "agent" 1, .quiet, .quiet] σ ∧ σ.Calm ∧
    (σ.sessions "agent").table ≠ none ∧ (σ.sessions "agent").books.generation = some 1 ∧
      ∃ input, (σ.sessions "agent").books.input = some input ∧ input.generation = 1 := by
  obtain ⟨σ, hrchs, hcalm, hbooks, htable⟩ := Reaches.initial.carryOut System.calm_initial
    (.start "agent" .booting none) "" (by simp [Session.providerGenerationCell, Request.create,
      System.initial, Session.empty])
  refine ⟨σ, hrchs, hcalm, htable nofun, ?_, ?_⟩
  · rw [show (σ.sessions "agent").books = _ from hbooks]
    rfl
  · rw [show (σ.sessions "agent").books = _ from hbooks]
    exact ⟨_, rfl, rfl⟩

/-- **A number is used again once the books have been cleared.** -/
theorem reaches_restarted : ∃ σ, Reaches [.started "agent" 1, .quiet, .quiet, .cleared "agent",
    .quiet, .quiet, .started "agent" 1, .quiet, .quiet] σ := by
  obtain ⟨σ₁, hfst, hcalm, htable, -⟩ := reaches_start
  have hcell : ((σ₁.sessions "agent").providerGenerationCell false).table ≠ none := htable
  obtain ⟨σ₂, hclear, hcalm₂, hbooks, -⟩ := hfst.carryOut hcalm (.clear "agent") "" hcell
  have hcrt : ((σ₂.sessions "agent").providerGenerationCell true).table ≠ none := by
    unfold Session.providerGenerationCell
    split
    · simp
    · rename_i hsome
      simpa using hsome
  obtain ⟨σ₃, hagain, -⟩ := hclear.carryOut hcalm₂ (.start "agent" .booting none) "" hcrt
  refine ⟨σ₃, ?_⟩
  have hemp : (σ₂.sessions "agent").books = ⟨none, none, none⟩ := hbooks
  have hevent : ((Request.start "agent" .booting none).perform false ""
      (σ₂.sessions "agent").books).2 = .started "agent" 1 := by
    rw [hemp]
    rfl
  rw [show (Request.start "agent" .booting none).sessionId = "agent" from rfl, hevent] at hagain
  exact hagain

/-- A second start in the same process. -/
theorem fence_generations_started : ∃ σ generation, Reaches [.started "agent" generation, .quiet,
    .quiet, .started "agent" 1, .quiet, .quiet] σ ∧ 1 < generation := by
  obtain ⟨σ₁, hfst, hcalm, htable, hgen, input, hinp, hone⟩ := reaches_start
  have hcrt : ((σ₁.sessions "agent").providerGenerationCell true).table ≠ none := by
    unfold Session.providerGenerationCell
    split
    · simp
    · exact htable
  obtain ⟨σ₂, hagain, -⟩ := hfst.carryOut hcalm (.start "agent" .booting none) "" hcrt
  have hevent : ((Request.start "agent" .booting none).perform false ""
      (σ₁.sessions "agent").books).2 = .started "agent"
        (recordProviderInputStateWithGeneration "agent" 2 .booting none ""
          { (σ₁.sessions "agent").books with generation := some 2 }).2.1.generation := by
    simp [Request.perform, hgen]
  rw [show (Request.start "agent" .booting none).sessionId = "agent" from rfl, hevent] at hagain
  refine ⟨σ₂, _, hagain, ?_⟩
  have hroom : ¬Exhausted (since "agent" [.quiet, .quiet, .started "agent" 1, .quiet, .quiet]) := by
    rintro ⟨g, hg, hfull⟩
    have hg' : g = 1 := by simpa [since, seen] using hg
    rw [hg'] at hfull
    exact absurd hfull (by decide)
  exact (hagain.fence_generations.1 "agent" _ _ rfl).resolve_left hroom 1 (by simp [since, seen])

end Wardian.Interactions
