/-
The rate limiter over a run.

Every key is used with one limit and one window.  Whatever other keys are checked, and whenever the
state is pruned, the calls on a key are answered as an ideal gate would answer them: the only exception
is a table that is full, and then the call is on a key without a live bucket.

Main results:

* `Remote.Run.shows` — every bucket shows its gate;
* `Remote.Run.limited` — the limiter bounds every key, admits below the bound, and keeps keys apart.
-/

import Mathlib.Data.List.TakeWhile
import Wardian.Remote.RateLimit

set_option autoImplicit false

namespace Wardian.Remote

open Option
open List
open SlidingWindow

/-! ### Runs -/

/-- The limit and the window of each key. -/
structure Policy where
  maxAttempts : String → Nat
  windowMs : String → Int
  positive : ∀ key, 1 ≤ maxAttempts key
  bounded : ∀ key, windowMs key ≤ rateLimitRetainMs

inductive Call
  | check (key : String) (now : Int)
  | available (key : String) (now : Int)
  | prune (now : Int)

namespace Call

def now : Call → Int
  | check _ now => now
  | available _ now => now
  | prune now => now

def key? : Call → Option String
  | check key _ => some key
  | available key _ => some key
  | prune _ => none

/-- What the call asks of the gate of its key. -/
def ask? : Call → Option (Gate.Ask Int)
  | check _ now => some (.request now)
  | available _ now => some (.probe now)
  | prune _ => none

end Call

def serve (policy : Policy) (runtime : RemoteRuntimeState) :
    Call → Option (Except String Unit) × RemoteRuntimeState
  | .check key now =>
    let (answer, runtime) := checkRateLimit runtime key now (policy.maxAttempts key)
      (policy.windowMs key)
    (some answer, runtime)
  | .available key now =>
    let (answer, runtime) := checkRateLimitAvailable runtime key now (policy.maxAttempts key)
      (policy.windowMs key)
    (some answer, runtime)
  | .prune now => (none, pruneExpiredRuntimeState now runtime)

structure Event where
  call : Call
  before : RemoteRuntimeState
  answer : Option (Except String Unit)

/-- The event of a call. -/
def eventOf (policy : Policy) (runtime : RemoteRuntimeState) (call : Call) : Event :=
  { call := call, before := runtime, answer := (serve policy runtime call).1 }

/-- Runs of calls at times that do not go back, from a state without buckets. -/
inductive Run (policy : Policy) : List Event → Int → RemoteRuntimeState → Prop
  | start (runtime : RemoteRuntimeState) (since : Int) (hemp : runtime.rateLimits = ∅) :
      Run policy [] since runtime
  | call {trace : List Event} {since : Int} {runtime : RemoteRuntimeState}
      (hrun : Run policy trace since runtime) (call : Call) (hltr : since ≤ call.now) :
      Run policy (trace ++ [eventOf policy runtime call]) call.now (serve policy runtime call).2

/-- The refusal of a full table. -/
def isCapacity : Option (Except String Unit) → Bool
  | some (.error code) => code == "rate_limit_capacity"
  | _ => false

/-- The event is a call on the key that was not refused for a full table. -/
def Event.isOn (key : String) (event : Event) : Bool :=
  event.call.key? == some key && !isCapacity event.answer

/-- The events of a key. -/
def own (key : String) (trace : List Event) : List Event := trace.filter (Event.isOn key)

/-- The time of a check that was admitted. -/
def Event.admittedAt (key : String) (event : Event) : Option Int :=
  match event.call, event.answer with
  | .check key' now, some (.ok ()) => if key' = key then some now else none
  | _, _ => none

/-- The times at which checks on a key were admitted. -/
def admittedTimes (key : String) (trace : List Event) : List Int :=
  trace.filterMap (Event.admittedAt key)

/-- What the events of a key have asked. -/
def asks (key : String) (trace : List Event) : List (Gate.Ask Int) :=
  (own key trace).filterMap fun event => event.call.ask?

/-- The gate that a key is after a run. -/
def gateOf (policy : Policy) (key : String) (trace : List Event) : Gate Int :=
  Gate.fresh.run (policy.maxAttempts key) (policy.windowMs key) (asks key trace)

/-- The answer of a gate, as the limiter gives it. -/
def verdict (admitted : Bool) : Option (Except String Unit) :=
  if admitted then some (.ok ()) else some (.error "rate_limited")

/-- A bucket with an attempt that is kept, or with a lock. -/
def Live (now : Int) (bucket : RateLimitBucket) : Prop :=
  (∃ attempt ∈ bucket.attempts, now - attempt < rateLimitRetainMs) ∨
    isLocked now bucket.lockedUntilMs = true

variable {policy : Policy} {trace trace' : List Event} {since since' now : Int}
  {runtime runtime' : RemoteRuntimeState} {key : String} {event : Event} {call : Call}

/-! ### One call -/

theorem eq_verdict {answer : Except String Unit} {admitted : Bool} (hiff : answer = .ok () ↔ admitted = true)
    (hcs : answer = .ok () ∨ answer = .error "rate_limited") : some answer = verdict admitted := by
  unfold verdict
  rcases hcs with rfl | rfl
  · rw [if_pos (hiff.1 rfl)]
  · rw [if_neg]
    intro hadm
    cases hiff.2 hadm

theorem isCapacity_verdict (admitted : Bool) : isCapacity (verdict admitted) = false := by
  cases admitted <;> decide

theorem asks_append (key : String) (trace : List Event) (event : Event) :
    asks key (trace ++ [event]) =
      asks key trace ++ (if event.isOn key then event.call.ask?.toList else []) := by
  unfold asks own
  rw [filter_append, filterMap_append]
  by_cases hon : event.isOn key = true
  · rw [if_pos hon, filter_cons_of_pos hon, filter_nil]
    cases hask : event.call.ask? with
    | none | some ask => simp [hask]
  · rw [if_neg hon, filter_cons_of_neg hon, filter_nil, filterMap_nil]

variable {ask : Gate.Ask Int}

theorem gateOf_append_own (hon : event.isOn key = true) (hask : event.call.ask? = some ask) :
    gateOf policy key (trace ++ [event]) =
      ((gateOf policy key trace).ask (policy.maxAttempts key) (policy.windowMs key) ask).2 := by
  unfold gateOf
  rw [asks_append, if_pos hon, hask, toList_some, Gate.run_append]

theorem gateOf_append_other (hon : event.isOn key = false) :
    gateOf policy key (trace ++ [event]) = gateOf policy key trace := by
  unfold gateOf
  rw [asks_append, hon, if_neg (by simp), append_nil]

variable {answer : Option (Except String Unit)}

theorem isOn_of_key? (hne : call.key? ≠ some key) :
    ({ call := call, before := runtime, answer := answer } : Event).isOn key = false := by
  unfold Event.isOn
  rw [Bool.and_eq_false_iff]
  left
  rw [beq_eq_false_iff_ne]
  exact hne

theorem exists_ask_of_key? (hkey : call.key? = some key) :
    ∃ ask, call.ask? = some ask ∧ ask.time = call.now := by
  cases call with
  | check k now | available k now => exact ⟨_, rfl, rfl⟩
  | prune now => cases hkey

theorem exists_ask_of_isOn (hon : event.isOn key = true) : ∃ ask, event.call.ask? = some ask := by
  unfold Event.isOn at hon
  rw [Bool.and_eq_true, beq_iff_eq] at hon
  obtain ⟨ask, hask, -⟩ := exists_ask_of_key? hon.1
  exact ⟨ask, hask⟩

/-- What a call does on the key: it asks the gate of the key unless the table is full. -/
structure Serves (policy : Policy) (key : String) (trace : List Event) (event : Event)
    (runtime' : RemoteRuntimeState) : Prop where
  shows : Shows (policy.windowMs key) event.call.now (gateOf policy key (trace ++ [event]))
    (runtime'.bucketOf key)
  answer : ∀ ask, event.isOn key = true → event.call.ask? = some ask → event.answer =
    verdict ((gateOf policy key trace).ask (policy.maxAttempts key) (policy.windowMs key) ask).1

/-- A call that is not one on the key leaves its bucket to the prune. -/
theorem serves_other
    (h : Shows (policy.windowMs key) event.call.now (gateOf policy key trace) (runtime'.bucketOf key))
    (hon : event.isOn key = false) : Serves policy key trace event runtime' := by
  refine ⟨?_, ?_⟩
  · rw [gateOf_append_other hon]
    exact h
  · intro ask hon'
    rw [hon] at hon'
    cases hon'

theorem serves_own (hkey : event.call.key? = some key) (hask : event.call.ask? = some ask)
    (hans : event.answer = verdict ((gateOf policy key trace).ask (policy.maxAttempts key)
      (policy.windowMs key) ask).1)
    (hshw : Shows (policy.windowMs key) event.call.now
      ((gateOf policy key trace).ask (policy.maxAttempts key) (policy.windowMs key) ask).2
      (runtime'.bucketOf key)) : Serves policy key trace event runtime' := by
  have hon : event.isOn key = true := by
    unfold Event.isOn
    rw [hkey, hans, isCapacity_verdict]
    simp
  refine ⟨?_, ?_⟩
  · rw [gateOf_append_own hon hask]
    exact hshw
  · intro ask' _ hask'
    obtain rfl := Option.some.inj (hask.symm.trans hask')
    exact hans

theorem serves_check (k : String) (now : Int) (hltr : since ≤ now)
    (h : ∀ key, Shows (policy.windowMs key) since (gateOf policy key trace) (runtime.bucketOf key))
    (key : String) :
    Serves policy key trace (eventOf policy runtime (.check k now))
      (serve policy runtime (.check k now)).2 := by
  have hprnd := fun key => (h key).prune hltr (policy.bounded key)
  have hserve : serve policy runtime (.check k now) =
      (some (checkPruned (pruneRateLimitBuckets now runtime) k now (policy.maxAttempts k)
        (policy.windowMs k)).1,
      (checkPruned (pruneRateLimitBuckets now runtime) k now (policy.maxAttempts k)
        (policy.windowMs k)).2) := rfl
  unfold eventOf
  rw [hserve]
  unfold checkPruned
  by_cases hfull : (pruneRateLimitBuckets now runtime).isFullFor k = true
  · rw [if_pos hfull]
    refine serves_other (hprnd key) ?_
    unfold Event.isOn
    rw [Bool.and_eq_false_iff]
    right
    change (!isCapacity (some (.error "rate_limit_capacity"))) = false
    decide
  · rw [if_neg hfull]
    obtain ⟨hiff, hcs, hshw⟩ := (hprnd k).request le_rfl (policy.positive k)
    by_cases hkey : k = key
    · subst hkey
      refine serves_own rfl rfl (eq_verdict hiff hcs) ?_
      dsimp only
      rw [bucketOf_setBucket, if_pos rfl]
      exact hshw
    · refine serves_other ?_ (isOn_of_key? (by simpa [Call.key?] using hkey))
      dsimp only
      rw [bucketOf_setBucket, if_neg hkey]
      exact hprnd key

theorem serves_available (k : String) (now : Int) (hltr : since ≤ now)
    (h : ∀ key, Shows (policy.windowMs key) since (gateOf policy key trace) (runtime.bucketOf key))
    (key : String) :
    Serves policy key trace (eventOf policy runtime (.available k now))
      (serve policy runtime (.available k now)).2 := by
  have hprnd := fun key => (h key).prune hltr (policy.bounded key)
  obtain ⟨hiff, hcs, hshw⟩ := (hprnd k).probe le_rfl (policy.positive k)
  obtain ⟨hans, hbuck⟩ := checkRateLimitAvailable_spec runtime k now (policy.maxAttempts k)
    (policy.windowMs k)
  by_cases hkey : k = key
  · subst hkey
    refine serves_own rfl rfl ?_ ?_
    · change some (checkRateLimitAvailable runtime k now _ _).1 = _
      rw [hans]
      exact eq_verdict hiff hcs
    · change Shows _ _ _ ((checkRateLimitAvailable runtime k now _ _).2.bucketOf k)
      rw [hbuck, if_pos rfl]
      exact hshw
  · refine serves_other ?_ (isOn_of_key? (by simpa [Call.key?] using hkey))
    change Shows _ _ _ ((checkRateLimitAvailable runtime k now _ _).2.bucketOf key)
    rw [hbuck, if_neg hkey]
    exact hprnd key

/-- **Every call asks the gates of its key only.** -/
theorem serves_call (hltr : since ≤ call.now)
    (h : ∀ key, Shows (policy.windowMs key) since (gateOf policy key trace) (runtime.bucketOf key))
    (key : String) : Serves policy key trace (eventOf policy runtime call) (serve policy runtime call).2 := by
  cases call with
  | check k now => exact serves_check k now hltr h key
  | available k now => exact serves_available k now hltr h key
  | prune now =>
    refine serves_other ?_ (isOn_of_key? (by simp [Call.key?]))
    change Shows _ now _ ((pruneExpiredRuntimeState now runtime).bucketOf key)
    rw [bucketOf_pruneExpired]
    exact (h key).prune hltr (policy.bounded key)

/-! ### The run -/

theorem Run.shows (h : Run policy trace since runtime) (key : String) :
    Shows (policy.windowMs key) since (gateOf policy key trace) (runtime.bucketOf key) := by
  induction h generalizing key with
  | start runtime since hemp =>
    have hdflt : runtime.bucketOf key = RateLimitBucket.default := by
      unfold RemoteRuntimeState.bucketOf
      rw [hemp, Table.lookup_empty]
      rfl
    rw [hdflt]
    exact shows_fresh _ _
  | call hrun call hltr ih => exact (serves_call hltr ih key).shows

theorem Run.before (h : Run policy trace since runtime) :
    ∀ {before after : List Event} {event : Event}, trace = before ++ event :: after →
      ∃ since', Run policy before since' event.before ∧ since' ≤ event.call.now ∧
        event.answer = (serve policy event.before event.call).1 := by
  induction h with
  | start runtime since hemp =>
    intro before after event htr
    simp at htr
  | @call trace since runtime hrun call hltr ih =>
    intro before after event htr
    rcases eq_nil_or_concat after with rfl | ⟨front, final, rfl⟩
    · obtain ⟨rfl, hlast⟩ := append_inj' htr rfl
      obtain rfl := singleton_inj.1 hlast
      exact ⟨since, hrun, hltr, rfl⟩
    · have hspl : trace ++ [eventOf policy runtime call] =
          (before ++ event :: front) ++ [final] := by
        rw [htr]
        simp
      obtain ⟨rfl, -⟩ := append_inj' hspl rfl
      exact ih rfl

theorem Run.answers (h : Run policy trace since runtime) (key : String) :
    (own key trace).map Event.answer =
      (Gate.fresh.answers (policy.maxAttempts key) (policy.windowMs key) (asks key trace)).map
        verdict := by
  induction h with
  | start runtime since hemp => rfl
  | @call trace since runtime hrun call hltr ih =>
    rw [asks_append]
    unfold own at ih ⊢
    rw [filter_append, map_append, ih]
    by_cases hon : Event.isOn key (eventOf policy runtime call) = true
    · obtain ⟨ask, hask⟩ := exists_ask_of_isOn hon
      rw [if_pos hon, filter_cons_of_pos hon, filter_nil, map_singleton, hask,
        toList_some, Gate.answers_append, map_append, map_singleton,
        (serves_call hltr hrun.shows key).answer ask hon hask]
      rfl
    · rw [if_neg hon, filter_cons_of_neg hon, filter_nil, map_nil,
        append_nil, append_nil]

theorem admittedTimes_append (key : String) (trace : List Event) (event : Event) :
    admittedTimes key (trace ++ [event]) =
      admittedTimes key trace ++ (event.admittedAt key).toList := by
  unfold admittedTimes
  rw [filterMap_append]
  cases hat : event.admittedAt key with
  | none | some now => simp [hat]

theorem admittedAt_of_not_isOn (hon : event.isOn key = false) : event.admittedAt key = none := by
  unfold Event.admittedAt
  split
  · rename_i k now hcall hans
    rw [if_neg]
    rintro rfl
    unfold Event.isOn at hon
    rw [hcall, hans] at hon
    simp [Call.key?, isCapacity] at hon
  · rfl

theorem admittedAt_check {before : RemoteRuntimeState} (key : String) (now : Int) (admitted : Bool) :
    Event.admittedAt key { call := .check key now, before := before, answer := verdict admitted } =
      if admitted then some now else none := by
  cases admitted with
  | true => exact if_pos rfl
  | false => rfl

theorem admittedAt_available {before : RemoteRuntimeState} (key k : String) (now : Int) :
    Event.admittedAt key { call := .available k now, before := before, answer := answer } =
      none := rfl

theorem admitted_append (call : Call) (hltr : since ≤ call.now)
    (h : Run policy trace since runtime) (key : String) :
    (gateOf policy key (trace ++ [eventOf policy runtime call])).admitted =
      (gateOf policy key trace).admitted ++ ((eventOf policy runtime call).admittedAt key).toList := by
  by_cases hon : (eventOf policy runtime call).isOn key = true
  · obtain ⟨ask, hask⟩ := exists_ask_of_isOn hon
    have hans := (serves_call hltr h.shows key).answer ask hon hask
    have hevent : eventOf policy runtime call =
        { call := call
          before := runtime
          answer := verdict ((gateOf policy key trace).ask (policy.maxAttempts key)
            (policy.windowMs key) ask).1 } := by
      rw [← hans]
      rfl
    rw [gateOf_append_own hon hask]
    unfold Event.isOn at hon
    rw [Bool.and_eq_true, beq_iff_eq] at hon
    rw [hevent]
    cases call with
    | prune now => cases hask
    | available k now =>
      obtain rfl := Option.some.inj hask
      rw [admittedAt_available, toList_none, append_nil]
      exact Gate.admitted_probe
    | check k now =>
      obtain rfl := Option.some.inj hask
      obtain rfl : k = key := Option.some.inj hon.1
      rw [admittedAt_check]
      refine Gate.admitted_request.trans ?_
      change (if (Gate.request _ _ _ _).1 = true then _ else _) =
        _ ++ (if (Gate.request _ _ _ _).1 = true then some now else none).toList
      split
      · rfl
      · exact (append_nil _).symm
  · rw [Bool.not_eq_true] at hon
    rw [gateOf_append_other hon, admittedAt_of_not_isOn hon, toList_none, append_nil]

theorem Run.admitted (h : Run policy trace since runtime) (key : String) :
    (gateOf policy key trace).admitted = admittedTimes key trace := by
  induction h with
  | start runtime since hemp => rfl
  | @call trace since runtime hrun call hltr ih =>
    rw [admittedTimes_append, ← ih]
    exact admitted_append call hltr hrun key

/-! ### The limiter -/

/-- What the limiter promises of a run. -/
structure Limited (policy : Policy) (trace : List Event) : Prop where
  /-- Every window admits at most the limit of its key. -/
  bound : ∀ key start, ((admittedTimes key trace).filter fun time =>
    decide (start ≤ time ∧ time < start + policy.windowMs key)).length ≤ policy.maxAttempts key
  /-- A call is admitted where the key is not locked, the window has room and the table has too. -/
  admits : ∀ before event after key, trace = before ++ event :: after →
    event.call.key? = some key →
    isLocked event.call.now (event.before.bucketOf key).lockedUntilMs = false →
    ((admittedTimes key before).filter fun time =>
      decide (event.call.now < time + policy.windowMs key)).length < policy.maxAttempts key →
    (pruneRateLimitBuckets event.call.now event.before).isFullFor key = false →
    event.answer = some (.ok ())
  /-- The answers to the calls on a key, but for the refusals of a full table, are the same in every
  run that has the same calls on it. -/
  apart : ∀ key trace' since' runtime', Run policy trace' since' runtime' →
    (own key trace').map Event.call = (own key trace).map Event.call →
    (own key trace').map Event.answer = (own key trace).map Event.answer
  /-- A full table refuses no key with a live bucket. -/
  spares : ∀ event ∈ trace, ∀ key, event.call.key? = some key → isCapacity event.answer = true →
    ∀ bucket, event.before.rateLimits[key]? = some bucket → ¬Live event.call.now bucket

theorem isRetained_of_live {bucket : RateLimitBucket} (h : Live now bucket) :
    isRetained now (retireBucket now bucket) = true := by
  unfold isRetained retireBucket
  rw [Bool.or_eq_true]
  rcases h with ⟨attempt, hmem, hyoung⟩ | hlckd
  · left
    rw [Bool.not_eq_true', isEmpty_eq_false_iff]
    unfold dropAged
    intro hemp
    rw [dropWhile_eq_nil_iff] at hemp
    have := hemp attempt hmem
    rw [decide_eq_true_eq] at this
    omega
  · right
    dsimp only
    rw [if_pos hlckd]
    exact hlckd

/-- Only a table without a bucket of the key refuses it for being full. -/
theorem isFullFor_of_capacity (h : Run policy trace since runtime) (hltr : since ≤ call.now)
    (hkey : call.key? = some key) (hcap : isCapacity (serve policy runtime call).1 = true) :
    (pruneRateLimitBuckets call.now runtime).isFullFor key = true := by
  by_contra hroom
  rw [Bool.not_eq_true] at hroom
  have hprnd := (h.shows key).prune hltr (policy.bounded key)
  cases call with
  | prune now => cases hkey
  | available k now =>
    obtain rfl := Option.some.inj hkey
    have hserve : (serve policy runtime (.available k now)).1 =
        some (probePruned (pruneRateLimitBuckets now runtime) k now (policy.maxAttempts k)
          (policy.windowMs k)).1 := rfl
    rw [hserve] at hcap
    unfold probePruned at hcap
    cases hlook : (pruneRateLimitBuckets now runtime).rateLimits[k]? with
    | none =>
      rw [hlook] at hcap
      cases hcap
    | some bucket =>
      rw [hlook] at hcap
      unfold RemoteRuntimeState.bucketOf at hprnd
      change Shows _ now _ (((pruneRateLimitBuckets now runtime).rateLimits[k]?).getD _)
        at hprnd
      rw [hlook, getD_some] at hprnd
      obtain ⟨hiff, hcs, -⟩ := hprnd.probe le_rfl (policy.positive k)
      dsimp only at hcap
      rw [eq_verdict hiff hcs, isCapacity_verdict] at hcap
      cases hcap
  | check k now =>
    obtain rfl := Option.some.inj hkey
    have hserve : (serve policy runtime (.check k now)).1 =
        some (checkPruned (pruneRateLimitBuckets now runtime) k now (policy.maxAttempts k)
          (policy.windowMs k)).1 := rfl
    rw [hserve] at hcap
    unfold checkPruned at hcap
    change (pruneRateLimitBuckets now runtime).isFullFor k = false at hroom
    rw [hroom, if_neg (by simp)] at hcap
    obtain ⟨hiff, hcs, -⟩ := hprnd.request le_rfl (policy.positive k)
    dsimp only at hcap
    change isCapacity (some (checkRateLimitBucket
      ((pruneRateLimitBuckets now runtime).bucketOf k) now _ _).1) = true at hcap
    change (checkRateLimitBucket ((pruneRateLimitBuckets now runtime).bucketOf k) now _ _).1 =
      _ ↔ _ at hiff
    rw [eq_verdict hiff hcs, isCapacity_verdict] at hcap
    cases hcap

/-- **The limiter bounds every key, admits below the bound, and keeps the keys apart.** -/
theorem Run.limited (h : Run policy trace since runtime) : Limited policy trace := by
  constructor
  · intro key start
    rw [← h.admitted key]
    exact Gate.within_run (asks key trace) (Gate.within_fresh _ _) start
  · intro before event after key htr hkey hlckd hroom hfull
    obtain ⟨since', hrun, hltr, hans⟩ := h.before htr
    rw [hans]
    obtain ⟨ask, hask, hnow⟩ := exists_ask_of_key? hkey
    have hon : (eventOf policy event.before event.call).isOn key = true := by
      by_contra hoff
      unfold Event.isOn at hoff
      rw [Bool.and_eq_true, not_and, beq_iff_eq] at hoff
      have hcap : isCapacity (serve policy event.before event.call).1 = true := by
        simpa [eventOf] using hoff hkey
      rw [isFullFor_of_capacity hrun hltr hkey hcap] at hfull
      cases hfull
    have hgate : ((gateOf policy key before).ask (policy.maxAttempts key)
        (policy.windowMs key) ask).1 = true := by
      refine Gate.ask_admits ?_ ?_
      · rw [hnow, ← (hrun.shows key).locked event.call.now hltr]
        exact hlckd
      · unfold Gate.recent
        rw [hnow, hrun.admitted key]
        exact hroom
    refine ((serves_call hltr hrun.shows key).answer ask hon hask).trans ?_
    rw [hgate]
    rfl
  · intro key trace' since' runtime' h' hcalls
    have hasks : asks key trace' = asks key trace := by
      have hmap := congrArg (filterMap Call.ask?) hcalls
      rw [filterMap_map, filterMap_map] at hmap
      exact hmap
    rw [h'.answers, h.answers, hasks]
  · intro event hevent key hkey hcap bucket hbkt hlive
    obtain ⟨before, after, htr⟩ := append_of_mem hevent
    obtain ⟨since', hrun, hltr, hans⟩ := h.before htr
    rw [hans] at hcap
    have hfull := isFullFor_of_capacity hrun hltr hkey hcap
    unfold RemoteRuntimeState.isFullFor at hfull
    rw [Bool.and_eq_true, lookup_prune, hbkt, map_some,
      filter_some_pos (isRetained_of_live hlive)] at hfull
    cases hfull.1

/-! Two attempts a minute on one key: the third locks it until the minute has passed. -/

def sampleStart : RemoteRuntimeState :=
  { pairingOffers := ∅, pendingPairingRequests := ∅, authChallenges := ∅, sessions := ∅,
    websocketTickets := ∅, activeStatusStreams := ∅, rateLimits := ∅ }

theorem sampleMax_positive (_ : String) : 1 ≤ 2 := by decide

theorem sampleWindow_bounded (_ : String) : (60000 : Int) ≤ rateLimitRetainMs := by decide

def samplePolicy : Policy :=
  { maxAttempts := fun _ => 2
    windowMs := fun _ => 60000
    positive := sampleMax_positive
    bounded := sampleWindow_bounded }

/-- The events of some calls, from a state. -/
def eventsOf (policy : Policy) : RemoteRuntimeState → List Call → List Event
  | _, [] => []
  | runtime, call :: calls =>
    eventOf policy runtime call :: eventsOf policy (serve policy runtime call).2 calls

def sampleCalls : List Call :=
  [.check "auth:dev-1" 1000, .check "auth:dev-1" 2000, .check "auth:dev-1" 3000,
    .available "auth:dev-1" 4000, .check "auth:dev-1" 65000]

theorem limited_sample : Limited samplePolicy (eventsOf samplePolicy sampleStart sampleCalls) ∧
    (eventsOf samplePolicy sampleStart sampleCalls).map Event.answer =
      [verdict true, verdict true, verdict false, verdict false, verdict true] := by
  refine ⟨?_, by decide +kernel⟩
  have h0 : Run samplePolicy [] 0 sampleStart := .start sampleStart 0 rfl
  have h1 := h0.call (.check "auth:dev-1" 1000) (by decide)
  have h2 := h1.call (.check "auth:dev-1" 2000) (by decide)
  have h3 := h2.call (.check "auth:dev-1" 3000) (by decide)
  have h4 := h3.call (.available "auth:dev-1" 4000) (by decide)
  have h5 := h4.call (.check "auth:dev-1" 65000) (by decide)
  exact Run.limited h5

end Wardian.Remote
