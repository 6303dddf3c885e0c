/-
Programs with a state that survives failure, and their weakest preconditions.

A program here reads and changes a state and either returns a value or stops with an error; when it
stops, the state it had reached is kept.  This is the right reading of code that writes files and
returns early: the files written before the failure stay written, and a crash is a failure whose
error nobody reads.

Main results:

* `Prog.wp_bind`, `Prog.wp_mono` — sequencing and consequence;
* `Prog.Keeps.bind` — an invariant is kept by a sequence.
-/

import Mathlib.Data.List.Basic

set_option autoImplicit false

/-- A program over the state `σ` that may stop with an error `ε`, keeping the state reached. -/
def Prog (σ ε α : Type) : Type := σ → Except ε α × σ

namespace Prog

variable {σ ε α β : Type}

/-- Return a value and change nothing. -/
def ret (a : α) : Prog σ ε α := fun s => (.ok a, s)

/-- Run `m`, then `f` on its result; a failure of `m` skips `f`. -/
def andThen (m : Prog σ ε α) (f : α → Prog σ ε β) : Prog σ ε β := fun s =>
  match m s with
  | (.ok a, s') => f a s'
  | (.error e, s') => (.error e, s')

instance : Monad (Prog σ ε) where
  pure := ret
  bind := andThen

/-- Stop with an error. -/
def fail (e : ε) : Prog σ ε α := fun s => (.error e, s)

/-- Read the state. -/
def get : Prog σ ε σ := fun s => (.ok s, s)

/-- Change the state. -/
def modify (f : σ → σ) : Prog σ ε Unit := fun s => (.ok (), f s)

/-- Turn a result into a program that returns it or stops with its error. -/
def ofExcept (r : Except ε α) : Prog σ ε α := fun s => (r, s)

/-- Run a transaction: when it stops with an error, nothing of it is kept. -/
def atomically (m : Prog σ ε α) : Prog σ ε α := fun s =>
  match m s with
  | (.ok a, s') => (.ok a, s')
  | (.error e, _) => (.error e, s)

/-! ### Weakest preconditions -/

/-- The postcondition that a result and the state at the exit must satisfy. -/
def post (Q : α → σ → Prop) (R : ε → σ → Prop) : Except ε α × σ → Prop
  | (.ok a, s) => Q a s
  | (.error e, s) => R e s

/-- The weakest precondition: run from `s`, the program returns a value and a state satisfying
`Q`, or stops with an error and a state satisfying `R`. -/
def Wp (m : Prog σ ε α) (Q : α → σ → Prop) (R : ε → σ → Prop) (s : σ) : Prop := post Q R (m s)

@[simp] theorem wp_pure (a : α) (Q : α → σ → Prop) (R : ε → σ → Prop) (s : σ) :
    Wp (pure a : Prog σ ε α) Q R s ↔ Q a s := Iff.rfl

@[simp] theorem wp_get (Q : σ → σ → Prop) (R : ε → σ → Prop) (s : σ) :
    Wp (get : Prog σ ε σ) Q R s ↔ Q s s := Iff.rfl

@[simp] theorem wp_modify (f : σ → σ) (Q : Unit → σ → Prop) (R : ε → σ → Prop) (s : σ) :
    Wp (modify f : Prog σ ε Unit) Q R s ↔ Q () (f s) := Iff.rfl

@[simp] theorem wp_ofExcept_ok (a : α) (Q : α → σ → Prop) (R : ε → σ → Prop) (s : σ) :
    Wp (ofExcept (.ok a)) Q R s ↔ Q a s := Iff.rfl

variable {Q : α → σ → Prop} {R : ε → σ → Prop} {s : σ}

theorem wp_ofExcept_of {r : Except ε α} (hok : ∀ a, r = .ok a → Q a s) (herr : ∀ e, r = .error e → R e s) :
    Wp (ofExcept r) Q R s := by
  cases r with
  | ok a => exact hok a rfl
  | error e => exact herr e rfl

@[simp] theorem wp_bind (m : Prog σ ε α) (f : α → Prog σ ε β) (Q : β → σ → Prop) (R : ε → σ → Prop) (s : σ) :
    Wp (m >>= f) Q R s ↔ Wp m (fun a s' => Wp (f a) Q R s') R s := by
  change post Q R (andThen m f s) ↔ post _ R (m s)
  unfold andThen
  rcases m s with ⟨a | e, s'⟩ <;> rfl

variable {m : Prog σ ε α} {Q' : α → σ → Prop} {R' : ε → σ → Prop}

theorem wp_mono (h : Wp m Q R s) (hQ : ∀ a s', Q a s' → Q' a s') (hR : ∀ e s', R e s' → R' e s') :
    Wp m Q' R' s := by
  unfold Wp at h ⊢
  rcases hm : m s with ⟨e | a, s'⟩ <;> rw [hm] at h
  · exact hR _ _ h
  · exact hQ _ _ h

theorem wp_atomically (h : Wp m Q (fun e _ => R e s) s) : Wp (atomically m) Q R s := by
  unfold Wp atomically at *
  rcases hm : m s with ⟨e | a, s'⟩ <;> rw [hm] at h
  · exact h
  · exact h

theorem wp_run (m : Prog σ ε α) (s : σ) :
    Wp m (fun a s' => m s = (.ok a, s')) (fun e s' => m s = (.error e, s')) s := by
  unfold Wp post
  rcases hm : m s with ⟨e | a, s'⟩ <;> rfl

theorem wp_and (h : Wp m Q R s) (h' : Wp m Q' R' s) :
    Wp m (fun a s' => Q a s' ∧ Q' a s') (fun e s' => R e s' ∧ R' e s') s := by
  unfold Wp at *
  rcases hm : m s with ⟨e | a, s'⟩ <;> rw [hm] at h h' <;> exact ⟨h, h'⟩

variable {s' : σ}

theorem Wp.of_ok {a : α} (h : Wp m Q R s) (hm : m s = (.ok a, s')) : Q a s' := by
  unfold Wp at h; rw [hm] at h; exact h

theorem Wp.of_error {e : ε} (h : Wp m Q R s) (hm : m s = (.error e, s')) : R e s' := by
  unfold Wp at h; rw [hm] at h; exact h

/-- A postcondition that ignores how the program ended holds of the final state. -/
theorem Wp.final {P : σ → Prop} (h : Wp m (fun _ => P) (fun _ => P) s) : P (m s).2 := by
  unfold Wp at h
  rcases hm : m s with ⟨e | a, s'⟩ <;> rw [hm] at h <;> exact h

variable {f : α → Prog σ ε β}

theorem bind_eq_ok {b : β}
    (h : (m >>= f) s = (.ok b, s')) : ∃ a s₁, m s = (.ok a, s₁) ∧ f a s₁ = (.ok b, s') := by
  change andThen m f s = _ at h
  unfold andThen at h
  rcases hm : m s with ⟨e | a, s₁⟩
  · rw [hm] at h; simp at h
  · rw [hm] at h; exact ⟨a, s₁, rfl, h⟩

theorem wp_ite {c : Prop} [Decidable c] {n : Prog σ ε α} (hm : c → Wp m Q R s) (hn : ¬c → Wp n Q R s) :
    Wp (if c then m else n) Q R s := by
  split
  · exact hm ‹_›
  · exact hn ‹_›

/-! ### Invariants -/

/-- The program preserves `I`, however it ends. -/
def Keeps (I : σ → Prop) (m : Prog σ ε α) : Prop :=
  ∀ s, I s → Wp m (fun _ => I) (fun _ => I) s

variable {I : σ → Prop}

theorem Keeps.final (h : Keeps I m) (hs : I s) : I (m s).2 := (h s hs).final

theorem Keeps.pure (a : α) : Keeps (ε := ε) I (Pure.pure a) :=
  fun _ hs => hs

theorem Keeps.bind (hm : Keeps I m) (hf : ∀ a, Keeps I (f a)) : Keeps I (m >>= f) := by
  intro s hs
  rw [wp_bind]
  exact wp_mono (hm s hs) (fun a s' hs' => hf a s' hs') (fun _ _ h => h)

end Prog
