/-
Programs that call the outside, and what they do whatever the outside answers.

A program here has a state of its own, stops with a value or an error, and on its way may call
something that it does not own: a device, a service, an object shared with other threads.  Its
state is untouched while it waits, and a failure keeps the state reached.  Between two calls
nothing of the outside is visible to the program, so the calls are the only points at which the
steps of others have to be considered.

Main results:

* `Calling.wp_bind`, `Calling.wp_call`, `Calling.wp_mono` — sequencing, a call, and consequence;
* `Thread.Safe.ends`, `Calling.Wp.ends` — what a weakest precondition says of every finite run;
* `Thread.Safe.transfer`, `Calling.Wp.transfer` — from any outside to one that keeps an invariant.
-/

import Mathlib.Data.List.Basic

set_option autoImplicit false

/-- What can be called, and what each call is answered with. -/
structure Interface where
  Op : Type
  Reply : Op → Type

/-- A running program over the state `σ`: it is done, or it waits for the answer to a call. -/
inductive Thread (I : Interface) (σ ρ : Type) : Type where
  | done (result : ρ) (state : σ)
  | call (op : I.Op) (state : σ) (next : I.Reply op → Thread I σ ρ)

namespace Thread

variable {I : Interface} {σ ρ τ : Type}

/-- Go on with `f` when the task is done. -/
def andThen (f : ρ → σ → Thread I σ τ) : Thread I σ ρ → Thread I σ τ
  | .done result state => f result state
  | .call op state next => .call op state fun reply => andThen f (next reply)

/-- The state that the task was left in by its last step. -/
def state : Thread I σ ρ → σ
  | .done _ s => s
  | .call _ s _ => s

/-- A finite run of a task: the calls it made, each with the state it was made in, the result and
the state at the end.  The answers are arbitrary. -/
inductive Ends : Thread I σ ρ → List (I.Op × σ) → ρ → σ → Prop where
  | done (r : ρ) (s : σ) : Ends (.done r s) [] r s
  | call {op : I.Op} {s s' : σ} {next : I.Reply op → Thread I σ ρ} {calls : List (I.Op × σ)}
      {r : ρ} (reply : I.Reply op) (h : Ends (next reply) calls r s') :
      Ends (.call op s next) ((op, s) :: calls) r s'

/-- Run a task, taking every answer from a table. -/
def run (answer : (op : I.Op) → I.Reply op) : Thread I σ ρ → ρ × σ
  | .done r s => (r, s)
  | .call op _ next => (next (answer op)).run answer

/-- The calls of a run whose answers are taken from a table. -/
def calls (answer : (op : I.Op) → I.Reply op) : Thread I σ ρ → List (I.Op × σ)
  | .done _ _ => []
  | .call op s next => (op, s) :: (next (answer op)).calls answer

theorem ends_run (answer : (op : I.Op) → I.Reply op) (t : Thread I σ ρ) :
    t.Ends (t.calls answer) (t.run answer).1 (t.run answer).2 := by
  induction t with
  | done r s => exact .done r s
  | call op s next ih => exact .call (answer op) (ih (answer op))

theorem done_of_no_calls {answer : (op : I.Op) → I.Reply op} {t : Thread I σ ρ}
    (h : (t.calls answer).isEmpty = true) : t = .done (t.run answer).1 (t.run answer).2 := by
  cases t with
  | done r s => rfl
  | call op s next => cases h

end Thread

/-- What lies outside a program with the state `σ`: others may change it between two calls, it
answers each call, and it is owed a promise at every call. -/
structure Outside (I : Interface) (σ γ : Type) where
  drift : γ → γ → Prop
  answers : (op : I.Op) → γ → I.Reply op → γ → Prop
  asked : I.Op → σ → γ → Prop

/-- An outside that answers anything and only wants the promise `asked`. -/
def Outside.any {I : Interface} {σ : Type} (asked : I.Op → σ → Prop) : Outside I σ Unit where
  drift _ _ := True
  answers _ _ _ _ := True
  asked op s _ := asked op s

namespace Thread

variable {I : Interface} {σ ρ τ γ : Type} {o : Outside I σ γ}

/-- From here on the task keeps its promise at every call, and ends only in states with `Q`,
whatever the outside does. -/
def Safe (o : Outside I σ γ) (Q : ρ → σ → γ → Prop) : Thread I σ ρ → γ → Prop
  | .done r s, c => Q r s c
  | .call op s next, c => ∀ c₁, o.drift c c₁ →
      o.asked op s c₁ ∧ ∀ reply c₂, o.answers op c₁ reply c₂ → Safe o Q (next reply) c₂

variable {Q Q' : ρ → σ → γ → Prop} {t : Thread I σ ρ}

theorem Safe.mono (hQ : ∀ r s c, Q r s c → Q' r s c) : ∀ {c : γ}, t.Safe o Q c → t.Safe o Q' c := by
  induction t with
  | done r s => intro c h; exact hQ r s c h
  | call op s next ih =>
    intro c h c₁ hdrf
    exact ⟨(h c₁ hdrf).1, fun reply c₂ hans => ih reply ((h c₁ hdrf).2 reply c₂ hans)⟩

theorem Safe.drift (htrans : ∀ {a b c}, o.drift a b → o.drift b c →
    o.drift a c) (hQ : ∀ r s c c', Q r s c → o.drift c c' → Q r s c') {c c' : γ}
    (h : t.Safe o Q c) (hdrf : o.drift c c') : t.Safe o Q c' := by
  cases t with
  | done r s => exact hQ r s c c' h hdrf
  | call op s next => exact fun c₁ hd => h c₁ (htrans hdrf hd)

theorem safe_andThen {Q : τ → σ → γ → Prop} {f : ρ → σ → Thread I σ τ} :
    ∀ {c : γ}, (t.andThen f).Safe o Q c ↔ t.Safe o (fun r s c' => (f r s).Safe o Q c') c := by
  induction t with
  | done r s => intro c; exact Iff.rfl
  | call op s next ih =>
    intro c
    constructor
    · intro h c₁ hd
      exact ⟨(h c₁ hd).1, fun reply c₂ ha => (ih reply).1 ((h c₁ hd).2 reply c₂ ha)⟩
    · intro h c₁ hd
      exact ⟨(h c₁ hd).1, fun reply c₂ ha => (ih reply).2 ((h c₁ hd).2 reply c₂ ha)⟩

variable {asked : I.Op → σ → Prop}

/-- Against an outside that answers anything, every finite run keeps the promise at its calls and
ends as the postcondition says. -/
theorem Safe.ends {Q : ρ → σ → Unit → Prop}
    {calls : List (I.Op × σ)} {r : ρ} {s : σ} (h : t.Safe (Outside.any asked) Q ())
    (hends : t.Ends calls r s) : Q r s () ∧ ∀ made ∈ calls, asked made.1 made.2 := by
  induction hends with
  | done r s => exact ⟨h, by simp⟩
  | @call op s s' next calls r reply hends ih =>
    obtain ⟨hasked, hrest⟩ := h () trivial
    obtain ⟨hpost, hcalls⟩ := ih (hrest reply () trivial)
    refine ⟨hpost, ?_⟩
    intro made hmade
    rcases List.mem_cons.1 hmade with rfl | hmade
    · exact hasked
    · exact hcalls made hmade

/-- What holds against any outside holds against one that keeps `J`: its promises follow from the
ones made to any outside and from `J`. -/
theorem Safe.transfer {Q : ρ → σ → Unit → Prop} {J : γ → Prop} (hdrf : ∀ {c c'}, J c → o.drift c c' → J c')
    (hasked : ∀ op s c, asked op s → J c → o.asked op s c)
    (hanss : ∀ op s c reply c', asked op s → J c → o.answers op c reply c' → J c')
    (hdone : ∀ r s c, Q r s () → J c → Q' r s c) (h : t.Safe (Outside.any asked) Q ()) :
    ∀ {c : γ}, J c → t.Safe o Q' c := by
  induction t with
  | done r s => exact fun hJ => hdone r s _ h hJ
  | call op s next ih =>
    intro c hJ c₁ hd
    obtain ⟨hprom, hrest⟩ := h () trivial
    have hJ₁ := hdrf hJ hd
    exact ⟨hasked op s c₁ hprom hJ₁, fun reply c₂ ha =>
      ih reply (hrest reply () trivial) (hanss op s c₁ reply c₂ hprom hJ₁ ha)⟩

end Thread

/-- A program over the state `σ` that may make calls and may stop with an error `ε`. -/
def Calling (I : Interface) (σ ε α : Type) : Type := σ → Thread I σ (Except ε α)

namespace Calling

variable {I : Interface} {σ ε α β γ : Type}

/-- Return a value and change nothing. -/
def ret (a : α) : Calling I σ ε α := fun s => .done (.ok a) s

/-- Run `m`, then `f` on its result; a failure of `m` skips `f`. -/
def andThen (m : Calling I σ ε α) (f : α → Calling I σ ε β) : Calling I σ ε β := fun s =>
  (m s).andThen fun
    | .ok a, s' => f a s'
    | .error e, s' => .done (.error e) s'

instance : Monad (Calling I σ ε) where
  pure := ret
  bind := andThen

/-- Stop with an error. -/
def fail (e : ε) : Calling I σ ε α := fun s => .done (.error e) s

/-- Read the state. -/
def get : Calling I σ ε σ := fun s => .done (.ok s) s

/-- Change the state. -/
def modify (f : σ → σ) : Calling I σ ε Unit := fun s => .done (.ok ()) (f s)

/-- Make a call and return the answer. -/
def call (op : I.Op) : Calling I σ ε (I.Reply op) := fun s =>
  .call op s fun reply => .done (.ok reply) s

/-- Run `m` and return how it ended. -/
def attempt (m : Calling I σ ε α) : Calling I σ ε (Except ε α) := fun s =>
  (m s).andThen fun r s' => .done (.ok r) s'

/-- Turn a result into a program that returns it or stops with its error. -/
def ofExcept (r : Except ε α) : Calling I σ ε α := fun s => .done r s

/-! ### Weakest preconditions -/

/-- The postcondition that a result and the state at the exit must satisfy. -/
def post (Q : α → σ → γ → Prop) (R : ε → σ → γ → Prop) : Except ε α → σ → γ → Prop
  | .ok a, s, c => Q a s c
  | .error e, s, c => R e s c

/-- The weakest precondition: run from `s` with the outside at `c`, the program keeps its promise
at every call, and returns in states with `Q` or stops in states with `R`. -/
def Wp (o : Outside I σ γ) (m : Calling I σ ε α) (Q : α → σ → γ → Prop) (R : ε → σ → γ → Prop)
    (s : σ) (c : γ) : Prop := (m s).Safe o (post Q R) c

variable {o : Outside I σ γ}

@[simp] theorem wp_pure (a : α) (Q : α → σ → γ → Prop) (R : ε → σ → γ → Prop) (s : σ) (c : γ) :
    Wp o (pure a : Calling I σ ε α) Q R s c ↔ Q a s c := Iff.rfl

@[simp] theorem wp_fail (e : ε) (Q : α → σ → γ → Prop) (R : ε → σ → γ → Prop) (s : σ) (c : γ) :
    Wp o (fail e : Calling I σ ε α) Q R s c ↔ R e s c := Iff.rfl

@[simp] theorem wp_get (Q : σ → σ → γ → Prop) (R : ε → σ → γ → Prop) (s : σ) (c : γ) :
    Wp o (get : Calling I σ ε σ) Q R s c ↔ Q s s c := Iff.rfl

@[simp] theorem wp_modify (f : σ → σ) (Q : Unit → σ → γ → Prop) (R : ε → σ → γ → Prop) (s : σ)
    (c : γ) : Wp o (modify f : Calling I σ ε Unit) Q R s c ↔ Q () (f s) c := Iff.rfl

theorem wp_call (op : I.Op) (Q : I.Reply op → σ → γ → Prop) (R : ε → σ → γ → Prop) (s : σ)
    (c : γ) : Wp o (call op : Calling I σ ε _) Q R s c ↔ ∀ c₁, o.drift c c₁ →
      o.asked op s c₁ ∧ ∀ reply c₂, o.answers op c₁ reply c₂ → Q reply s c₂ := Iff.rfl

variable {asked : I.Op → σ → Prop}

@[simp] theorem wp_call_any (op : I.Op) (Q : I.Reply op → σ → Unit → Prop)
    (R : ε → σ → Unit → Prop) (s : σ) (c : Unit) :
    Wp (Outside.any asked) (call op : Calling I σ ε _) Q R s c ↔
      asked op s ∧ ∀ reply, Q reply s () := by
  rw [wp_call]
  constructor
  · intro h
    exact ⟨(h () trivial).1, fun reply => (h () trivial).2 reply () trivial⟩
  · rintro ⟨hasked, hrep⟩ ⟨⟩ -
    exact ⟨hasked, fun reply _ _ => hrep reply⟩

@[simp] theorem wp_ofExcept (r : Except ε α) (Q : α → σ → γ → Prop) (R : ε → σ → γ → Prop) (s : σ)
    (c : γ) : Wp o (ofExcept r) Q R s c ↔ (∀ a, r = .ok a → Q a s c) ∧ ∀ e, r = .error e → R e s c := by
  cases r with
  | ok a =>
    change Q a s c ↔ _
    simp
  | error e =>
    change R e s c ↔ _
    simp

@[simp] theorem wp_bind (m : Calling I σ ε α) (f : α → Calling I σ ε β) (Q : β → σ → γ → Prop)
    (R : ε → σ → γ → Prop) (s : σ) (c : γ) :
    Wp o (m >>= f) Q R s c ↔ Wp o m (fun a s' c' => Wp o (f a) Q R s' c') R s c := by
  change ((m s).andThen _).Safe o _ c ↔ (m s).Safe o _ c
  rw [Thread.safe_andThen]
  constructor
  · refine Thread.Safe.mono ?_
    rintro (e | a) s' c' h
    · exact h
    · exact h
  · refine Thread.Safe.mono ?_
    rintro (e | a) s' c' h
    · exact h
    · exact h

@[simp] theorem wp_attempt (m : Calling I σ ε α) (Q : Except ε α → σ → γ → Prop) (R : ε → σ → γ → Prop)
    (s : σ) (c : γ) : Wp o (attempt m) Q R s c ↔ Wp o m (fun a => Q (.ok a)) (fun e => Q (.error e)) s c := by
  change ((m s).andThen _).Safe o _ c ↔ (m s).Safe o _ c
  rw [Thread.safe_andThen]
  constructor
  · refine Thread.Safe.mono ?_
    rintro (e | a) s' c' h
    · exact h
    · exact h
  · refine Thread.Safe.mono ?_
    rintro (e | a) s' c' h
    · exact h
    · exact h

variable {m : Calling I σ ε α} {Q' : α → σ → γ → Prop} {R' : ε → σ → γ → Prop} {s : σ}

theorem wp_mono {Q : α → σ → γ → Prop} {R : ε → σ → γ → Prop} {c : γ} (h : Wp o m Q R s c)
    (hQ : ∀ a s' c', Q a s' c' → Q' a s' c') (hR : ∀ e s' c', R e s' c' → R' e s' c') : Wp o m Q' R' s c := by
  refine Thread.Safe.mono ?_ h
  rintro (e | a) s' c' h
  · exact hR e s' c' h
  · exact hQ a s' c' h

@[simp] theorem wp_ite {p : Prop} [Decidable p] (m n : Calling I σ ε α) (Q : α → σ → γ → Prop)
    (R : ε → σ → γ → Prop) (s : σ) (c : γ) :
    Wp o (if p then m else n) Q R s c ↔ (p → Wp o m Q R s c) ∧ (¬p → Wp o n Q R s c) := by
  by_cases hp : p
  · simp [hp]
  · simp [hp]

variable {Q : α → σ → Unit → Prop} {R : ε → σ → Unit → Prop}

/-- A precondition against any outside serves against one that keeps `J`. -/
theorem Wp.transfer {J : γ → Prop} {c : γ} (h : Wp (Outside.any asked) m Q R s ())
    (hdrf : ∀ {c c'}, J c → o.drift c c' → J c') (hasked : ∀ op s c, asked op s → J c → o.asked op s c)
    (hanss : ∀ op s c reply c', asked op s → J c → o.answers op c reply c' → J c')
    (hQ : ∀ a s c, Q a s () → J c → Q' a s c) (hR : ∀ e s c, R e s () → J c → R' e s c) (hJ : J c) :
    Wp o m Q' R' s c := by
  refine Thread.Safe.transfer hdrf hasked hanss ?_ h hJ
  rintro (e | a) s' c' hpost hJ'
  · exact hR e s' c' hpost hJ'
  · exact hQ a s' c' hpost hJ'

theorem Wp.ends {s' : σ} {calls : List (I.Op × σ)} {r : Except ε α} (h : Wp (Outside.any asked) m Q R s ())
    (hends : (m s).Ends calls r s') : post Q R r s' () ∧ ∀ made ∈ calls, asked made.1 made.2 :=
  Thread.Safe.ends h hends

end Calling
