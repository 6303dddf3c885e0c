/-
The throttle of failed signatures.

The failures of a device are checked when a request begins and recorded when it has failed.  The limit of
five in ten minutes is kept by every run in which the failures still to come are part of the check: a
request of the device with a wrong signature begins only where those in flight and the recorded failures
are fewer than five together, no request of it has a clock that a call on its bucket has passed, and
every failure that happens is recorded.

Main results:

* `Remote.Covers.prune`, `Remote.Covers.probe`, `Remote.Covers.record` — the calls on the limiter;
* `Remote.System.throttled_act` — a step keeps the invariant;
* `Remote.System.failures_run_le` — five failures at most in a window.
-/

import Wardian.Remote.AuthSession

set_option autoImplicit false

namespace Wardian.Remote

open List

/-! ### Buckets -/

/-- How many of some times are in a window. -/
def countIn (start : Int) (times : List Int) : Nat := times.countP (inWindow start)

theorem countIn_cons (start time : Int) (times : List Int) :
    countIn start (time :: times) = countIn start times + if inWindow start time then 1 else 0 :=
  countP_cons

theorem countIn_append (start time : Int) (times : List Int) :
    countIn start (times ++ [time]) = countIn start times + if inWindow start time then 1 else 0 := by
  unfold countIn
  rw [countP_append, countP_singleton]

theorem countIn_le_length (start : Int) (times : List Int) : countIn start times ≤ times.length :=
  countP_le_length

theorem inWindow_eq_false {start now time : Int} (hnow : now < start + failureWindowMs)
    (hold : time + failureWindowMs ≤ now) : inWindow start time = false := by
  unfold inWindow
  rw [decide_eq_false_iff_not]
  omega

theorem lt_of_inWindow {start time : Int} (h : inWindow start time = true) :
    time < start + failureWindowMs := by
  unfold inWindow at h
  rw [decide_eq_true_eq] at h
  exact h.2

theorem countIn_eq_zero {start now : Int} {times : List Int} (hnow : now < start + failureWindowMs)
    (hold : ∀ time ∈ times, time + failureWindowMs ≤ now) : countIn start times = 0 := by
  unfold countIn
  rw [countP_eq_zero]
  intro time hmem
  rw [inWindow_eq_false hnow (hold time hmem)]
  simp

/-- What is dropped for its age is in no window that is still open. -/
theorem countIn_dropAged {start now : Int} (times : List Int) (hnow : now < start + failureWindowMs) :
    countIn start (dropAged failureWindowMs now times) = countIn start times := by
  unfold dropAged
  induction times with
  | nil => rfl
  | cons time times ih =>
    by_cases hold : failureWindowMs ≤ now - time
    · rw [dropWhile_cons_of_pos (by simpa using hold), ih, countIn_cons,
        inWindow_eq_false hnow (by omega), if_neg (by simp), Nat.add_zero]
    · rw [dropWhile_cons_of_neg (by simpa using hold)]

theorem dropAged_sublist (age now : Int) (times : List Int) : (dropAged age now times).Sublist times :=
  dropWhile_sublist _

/-- A bucket that has lost only what is in no open window. -/
structure Kept (now : Int) (before after : RateLimitBucket) : Prop where
  sublist : after.attempts.Sublist before.attempts
  counts : ∀ start, now < start + failureWindowMs →
    countIn start after.attempts = countIn start before.attempts
  locked : ∀ lockedUntil, after.lockedUntilMs = some lockedUntil →
    before.lockedUntilMs = some lockedUntil

theorem Kept.refl (now : Int) (bucket : RateLimitBucket) : Kept now bucket bucket :=
  ⟨Sublist.refl _, fun _ _ => rfl, fun _ h => h⟩

theorem kept_retire (now : Int) (bucket : RateLimitBucket) :
    Kept now bucket (retireBucket now bucket) where
  sublist := dropAged_sublist _ _ _
  counts _ hnow := countIn_dropAged bucket.attempts hnow
  locked lockedUntil h := by
    unfold retireBucket at h
    dsimp only at h
    split at h
    · exact h
    · cases h

theorem kept_prune (now : Int) (runtime : RemoteRuntimeState) (key : String) :
    Kept now (runtime.bucketOf key) ((pruneRateLimitBuckets now runtime).bucketOf key) := by
  unfold RemoteRuntimeState.bucketOf
  rw [lookup_prune]
  cases runtime.rateLimits[key]? with
  | none => exact Kept.refl now _
  | some bucket =>
    have hkept := kept_retire now bucket
    rw [Option.map_some]
    by_cases hretd : isRetained now (retireBucket now bucket) = true
    · rw [Option.filter_some_pos hretd]
      exact hkept
    · rw [Bool.not_eq_true] at hretd
      rw [Option.filter_some_neg hretd]
      unfold isRetained at hretd
      rw [Bool.or_eq_false_iff, Bool.not_eq_false', List.isEmpty_iff] at hretd
      refine ⟨nil_sublist _, ?_, ?_⟩
      · intro start hnow
        have hcnt := hkept.counts start hnow
        rw [hretd.1] at hcnt
        exact hcnt
      · intro lockedUntil h
        cases h

/-- The bucket leaves room for the requests in flight, and has the failures that were recorded in the
windows that are still open. -/
structure Covers (inFlight : Nat) (latest : Int) (recorded : Int → Nat) (bucket : RateLimitBucket) :
    Prop where
  past : ∀ attempt ∈ bucket.attempts, attempt ≤ latest
  room : inFlight + bucket.attempts.length ≤ maxFailures
  counts : ∀ start, latest < start + failureWindowMs →
    recorded start ≤ countIn start bucket.attempts
  locked : ∀ lockedUntil, bucket.lockedUntilMs = some lockedUntil →
    inFlight = 0 ∧ ∀ attempt ∈ bucket.attempts, attempt + failureWindowMs ≤ lockedUntil

section Covers

variable {inFlight : Nat} {latest now : Int} {recorded recorded' : Int → Nat}
  {bucket bucket' : RateLimitBucket}

namespace Covers

theorem kept (h : Covers inFlight latest recorded bucket) (hkept : Kept now bucket bucket') :
    Covers inFlight (max latest now) recorded bucket' where
  past attempt hmem := (h.past attempt (hkept.sublist.subset hmem)).trans (le_max_left _ _)
  room := by
    have := hkept.sublist.length_le
    have := h.room
    omega
  counts start hnow := by
    rw [hkept.counts start ((le_max_right _ _).trans_lt hnow)]
    exact h.counts start ((le_max_left _ _).trans_lt hnow)
  locked lockedUntil hlckd := by
    obtain ⟨hzero, hold⟩ := h.locked lockedUntil (hkept.locked lockedUntil hlckd)
    exact ⟨hzero, fun attempt hmem => hold attempt (hkept.sublist.subset hmem)⟩

theorem prune {runtime : RemoteRuntimeState} {key : String}
    (h : Covers inFlight latest recorded (runtime.bucketOf key)) (now : Int) :
    Covers inFlight (max latest now) recorded ((pruneRateLimitBuckets now runtime).bucketOf key) :=
  h.kept (kept_prune now runtime key)

theorem fewer {fewer : Nat} (h : Covers inFlight latest recorded bucket) (hfewer : fewer ≤ inFlight)
    (hrecd : ∀ start, recorded' start ≤ recorded start) :
    Covers fewer latest recorded' bucket where
  past := h.past
  room := (Nat.add_le_add_right hfewer _).trans h.room
  counts start hnow := (hrecd start).trans (h.counts start hnow)
  locked lockedUntil hlckd := by
    obtain ⟨hzero, hold⟩ := h.locked lockedUntil hlckd
    exact ⟨by omega, hold⟩

theorem enter (h : Covers inFlight latest recorded bucket)
    (hroom : inFlight + bucket.attempts.length < maxFailures)
    (hunlk : bucket.lockedUntilMs = none) : Covers (inFlight + 1) latest recorded bucket where
  past := h.past
  room := by omega
  counts := h.counts
  locked lockedUntil hlckd := by
    rw [hunlk] at hlckd
    cases hlckd

theorem cleared (h : Covers inFlight latest recorded bucket) (hltr : latest ≤ now)
    (hlckd : isLocked now bucket.lockedUntilMs = false) :
    Covers inFlight now recorded (pruneBucketWindow now failureWindowMs (clearExpiredLock bucket)) ∧
      (pruneBucketWindow now failureWindowMs (clearExpiredLock bucket)).lockedUntilMs = none := by
  unfold clearExpiredLock
  by_cases hsome : bucket.lockedUntilMs.isSome = true
  · rw [if_pos hsome]
    obtain ⟨lockedUntil, heq⟩ := Option.isSome_iff_exists.1 hsome
    obtain ⟨hzero, hold⟩ := h.locked lockedUntil heq
    unfold isLocked at hlckd
    rw [heq, Option.any_some, decide_eq_false_iff_not] at hlckd
    refine ⟨⟨?_, ?_, ?_, ?_⟩, rfl⟩
    · intro attempt hmem
      cases hmem
    · rw [hzero]
      exact Nat.zero_le _
    · intro start hnow
      have hcnt := h.counts start (hltr.trans_lt hnow)
      rw [countIn_eq_zero hnow fun time hmem => (hold time hmem).trans (by omega)] at hcnt
      exact hcnt.trans (Nat.zero_le _)
    · intro lockedUntil hlckd
      cases hlckd
  · rw [if_neg hsome]
    rw [Bool.not_eq_true, Option.isSome_eq_false_iff, Option.isNone_iff_eq_none] at hsome
    have hkept : Kept now bucket (pruneBucketWindow now failureWindowMs bucket) :=
      ⟨dropAged_sublist _ _ _, fun _ hnow => countIn_dropAged bucket.attempts hnow, fun _ h => h⟩
    have hcovs := h.kept hkept
    rw [max_eq_right hltr] at hcovs
    exact ⟨hcovs, hsome⟩

end Covers

/-- The attempts that a check at a time counts. -/
def keptAttempts (now : Int) (bucket : RateLimitBucket) : List Int :=
  dropAged failureWindowMs now bucket.attempts

/-- The requests of the device in flight are part of the check, or there are none. -/
def HasRoom (inFlight : Nat) (now : Int) (bucket : RateLimitBucket) : Prop :=
  inFlight = 0 ∨ inFlight + (keptAttempts now bucket).length < maxFailures

instance (inFlight : Nat) (now : Int) (bucket : RateLimitBucket) :
    Decidable (HasRoom inFlight now bucket) :=
  inferInstanceAs (Decidable (_ ∨ _))

theorem HasRoom.prune {runtime : RemoteRuntimeState} {key : String}
    (h : HasRoom inFlight now (runtime.bucketOf key)) :
    HasRoom inFlight now ((pruneRateLimitBuckets now runtime).bucketOf key) := by
  refine h.imp_right fun h => lt_of_le_of_lt (Nat.add_le_add_left ?_ _) h
  unfold keptAttempts RemoteRuntimeState.bucketOf
  rw [lookup_prune]
  cases runtime.rateLimits[key]? with
  | none => exact le_rfl
  | some bucket =>
    rw [Option.map_some]
    by_cases hretd : isRetained now (retireBucket now bucket) = true
    · rw [Option.filter_some_pos hretd]
      exact (dropAged_sublist _ _ _).length_le
    · rw [Option.filter_some_neg (by simpa using hretd)]
      exact Nat.zero_le _

theorem HasRoom.cleared (h : HasRoom inFlight now bucket) :
    inFlight = 0 ∨ inFlight + (pruneBucketWindow now failureWindowMs
      (clearExpiredLock bucket)).attempts.length < maxFailures := by
  refine h.imp_right fun h => lt_of_le_of_lt (Nat.add_le_add_left ?_ _) h
  unfold clearExpiredLock
  split
  · exact Nat.zero_le _
  · exact le_rfl

/-- The check of a request that begins: where it passes and there is room, the request may be one more
in flight. -/
theorem Covers.probe (h : Covers inFlight latest recorded bucket) (hltr : latest ≤ now) :
    Covers inFlight now recorded (probeBucket bucket now maxFailures failureWindowMs).2 ∧
      ((probeBucket bucket now maxFailures failureWindowMs).1 = .ok () →
        HasRoom inFlight now bucket → Covers (inFlight + 1) now recorded
          (probeBucket bucket now maxFailures failureWindowMs).2) := by
  unfold probeBucket
  by_cases hlckd : isLocked now bucket.lockedUntilMs = true
  · rw [if_pos hlckd]
    refine ⟨?_, fun hok => by cases hok⟩
    have hcovs := h.kept (Kept.refl now bucket)
    rw [max_eq_right hltr] at hcovs
    exact hcovs
  · rw [Bool.not_eq_true] at hlckd
    rw [if_neg (by simp [hlckd])]
    obtain ⟨hcovs, hunlk⟩ := h.cleared hltr hlckd
    dsimp only
    by_cases hfull : max maxFailures 1 ≤ (pruneBucketWindow now failureWindowMs
        (clearExpiredLock bucket)).attempts.length
    · rw [if_pos hfull]
      refine ⟨⟨hcovs.past, hcovs.room, hcovs.counts, ?_⟩, fun hok => by cases hok⟩
      intro lockedUntil heq
      obtain rfl := Option.some.inj heq
      refine ⟨?_, ?_⟩
      · have := hcovs.room
        unfold maxFailures at this hfull
        omega
      · intro attempt hmem
        have := hcovs.past attempt hmem
        omega
    · rw [if_neg hfull]
      refine ⟨hcovs, fun _ hroom => hcovs.enter ?_ hunlk⟩
      have hfew := hroom.cleared
      unfold maxFailures at hfew hfull ⊢
      omega

/-- The record of a failure: one request less is in flight, and its failure is in the bucket. -/
theorem Covers.record (h : Covers (inFlight + 1) latest recorded bucket) (hpast : now ≤ latest)
    (hrecd : ∀ start, recorded' start ≤ recorded start + if inWindow start now then 1 else 0) :
    Covers inFlight latest recorded'
      (checkRateLimitBucket bucket now maxFailures failureWindowMs).2 := by
  have hunlk : bucket.lockedUntilMs = none := by
    rw [Option.eq_none_iff_forall_ne_some]
    intro lockedUntil heq
    have := (h.locked lockedUntil heq).1
    omega
  have hlen := (dropAged_sublist failureWindowMs now bucket.attempts).length_le
  have hroom := h.room
  have hchk : checkRateLimitBucket bucket now maxFailures failureWindowMs = (.ok (),
      { attempts := dropAged failureWindowMs now bucket.attempts ++ [now]
        lockedUntilMs := none }) := by
    have hopen : isLocked now bucket.lockedUntilMs = false := by
      rw [hunlk]
      rfl
    have hclear : clearExpiredLock bucket = bucket := by
      unfold clearExpiredLock
      rw [hunlk, if_neg (by simp)]
    have hfew : ¬max maxFailures 1 ≤ (dropAged failureWindowMs now bucket.attempts).length := by
      unfold maxFailures at hroom ⊢
      omega
    unfold checkRateLimitBucket
    rw [hopen, if_neg (by simp), hclear]
    unfold pruneBucketWindow
    dsimp only
    rw [if_neg hfew, hunlk]
  rw [hchk]
  refine ⟨?_, ?_, ?_, ?_⟩
  · intro attempt hmem
    rcases mem_append.1 hmem with hmem | hmem
    · exact h.past attempt ((dropAged_sublist _ _ _).subset hmem)
    · rw [mem_singleton] at hmem
      omega
  · dsimp only
    rw [length_append, length_singleton]
    omega
  · intro start hnow
    have hcnt := h.counts start hnow
    have hrecd := hrecd start
    dsimp only
    rw [countIn_append, countIn_dropAged _ (hpast.trans_lt hnow)]
    omega
  · intro lockedUntil heq
    cases heq

end Covers

/-! ### Counting requests -/

/-- The verification of the signature is going to fail. -/
def SessionRequest.fails (gateway : Gateway) (request : SessionRequest)
    (challenge : AuthChallengeRecord) : Bool :=
  verifyAuthSession gateway request challenge = .charging

/-- Between the two times under the lock, with a signature that fails. -/
def SessionRequest.isInFlight (gateway : Gateway) (request : SessionRequest) : Bool :=
  match request.stage with
  | .verifying challenge => request.fails gateway challenge
  | .charging => true
  | _ => false

def Stage.isRecorded : Stage → Bool
  | .unauthorized => true
  | _ => false

/-- The request has failed, or is going to. -/
def SessionRequest.mayFail (gateway : Gateway) (request : SessionRequest) : Bool :=
  request.isInFlight gateway || request.stage.hasFailed

namespace System

variable {gateway : Gateway} {system : System} {deviceId : String} {index : Nat} {request : SessionRequest}
  {stage : Stage} {runtime : RemoteRuntimeState} {p q r : SessionRequest → Bool}

/-- The requests of a device with a property. -/
def countOf (system : System) (deviceId : String) (p : SessionRequest → Bool) : Nat :=
  system.requests.countP fun request => request.device.deviceId == deviceId && p request

def inFlight (gateway : Gateway) (system : System) (deviceId : String) : Nat :=
  system.countOf deviceId fun request => request.isInFlight gateway

def recorded (system : System) (deviceId : String) (start : Int) : Nat :=
  system.countOf deviceId fun request => request.stage.isRecorded && inWindow start request.now

def exposed (gateway : Gateway) (system : System) (deviceId : String) (start : Int) : Nat :=
  system.countOf deviceId fun request => request.mayFail gateway && inWindow start request.now

theorem countOf_le_add (h : ∀ request ∈ system.requests, request.device.deviceId = deviceId →
    p request = true → q request = true ∨ r request = true) :
    system.countOf deviceId p ≤ system.countOf deviceId q + system.countOf deviceId r := by
  unfold countOf
  generalize system.requests = requests at h
  induction requests with
  | nil => exact Nat.zero_le _
  | cons request requests ih =>
    have ih := ih fun request hmem => h request (mem_cons_of_mem _ hmem)
    have hhead := h request mem_cons_self
    rw [countP_cons, countP_cons, countP_cons]
    by_cases hp : (request.device.deviceId == deviceId && p request) = true
    · rw [Bool.and_eq_true, beq_iff_eq] at hp
      rcases hhead hp.1 hp.2 with hq | hr
      · rw [if_pos (by simp [hp]), if_pos (by simp [hp.1, hq])]
        omega
      · rw [if_pos (by simp [hp])]
        have hone : (if (request.device.deviceId == deviceId && r request) = true then 1 else 0) =
            1 := if_pos (by simp [hp.1, hr])
        omega
    · rw [if_neg hp]
      omega

theorem countOf_advance (deviceId : String) (stage : Stage) (runtime : RemoteRuntimeState)
    (p : SessionRequest → Bool) (hget : system.requests[index]? = some request) :
    (system.advance index request stage runtime).countOf deviceId p +
        (if request.device.deviceId = deviceId ∧ p request = true then 1 else 0) =
      system.countOf deviceId p +
        (if request.device.deviceId = deviceId ∧ p { request with stage := stage } = true then 1
          else 0) := by
  obtain ⟨hidx, hreq⟩ := List.getElem?_eq_some_iff.1 hget
  unfold countOf advance
  rw [countP_set hidx, hreq]
  simp only [Bool.and_eq_true, beq_iff_eq]
  by_cases hp : request.device.deviceId = deviceId ∧ p request = true
  · have hpos : 0 < system.requests.countP fun request =>
        request.device.deviceId == deviceId && p request :=
      countP_pos_iff.2 ⟨request, mem_of_getElem? hget, by simp [hp]⟩
    rw [if_pos hp]
    omega
  · rw [if_neg hp]
    omega

theorem countOf_advance_own (stage : Stage) (runtime : RemoteRuntimeState) (p : SessionRequest → Bool)
    (hget : system.requests[index]? = some request) (hdev : request.device.deviceId = deviceId) :
    (system.advance index request stage runtime).countOf deviceId p + (p request).toNat =
      system.countOf deviceId p + (p { request with stage := stage }).toNat := by
  have h := countOf_advance deviceId stage runtime p hget
  simp only [hdev, true_and] at h
  cases hp : p request <;> cases hq : p { request with stage := stage } <;> simp_all

theorem countOf_advance_other (hget : system.requests[index]? = some request)
    (hdev : request.device.deviceId ≠ deviceId) :
    (system.advance index request stage runtime).countOf deviceId p = system.countOf deviceId p := by
  have h := countOf_advance deviceId stage runtime p hget
  simpa only [hdev, false_and, if_false, Nat.add_zero] using h

/-! ### The invariant -/

/-- What holds of a device as long as its failures are all accounted for. -/
structure Throttled (gateway : Gateway) (deviceId : String) (system : System) : Prop where
  covers : Covers (system.inFlight gateway deviceId) (system.latest (failureKey deviceId))
    (system.recorded deviceId) (system.runtime.bucketOf (failureKey deviceId))
  past : ∀ request ∈ system.requests, request.device.deviceId = deviceId →
    request.isInFlight gateway = true → request.now ≤ system.latest (failureKey deviceId)
  kept : ∀ request ∈ system.requests, request.device.deviceId = deviceId →
    request.stage ≠ .dropped true
  bound : ∀ start, system.exposed gateway deviceId start ≤ maxFailures

theorem Throttled.exposed_le (h : Throttled gateway deviceId system) (start : Int) :
    system.exposed gateway deviceId start ≤
      system.inFlight gateway deviceId + system.recorded deviceId start := by
  unfold exposed inFlight recorded
  refine countOf_le_add ?_
  intro request hmem hdev hexpo
  rw [Bool.and_eq_true, SessionRequest.mayFail, Bool.or_eq_true] at hexpo
  obtain ⟨hflt | hfld, hin⟩ := hexpo
  · exact .inl hflt
  have hkept := h.kept request hmem hdev
  unfold SessionRequest.isInFlight
  cases hstg : request.stage with
  | charging => exact .inl rfl
  | unauthorized => exact .inr hin
  | dropped failed =>
    rw [hstg] at hfld hkept
    cases failed with
    | true => exact absurd rfl hkept
    | false => cases hfld
  | waiting | verifying _ | refused _ | verified =>
    rw [hstg] at hfld
    cases hfld

theorem le_latestWith (system : System) (before : RemoteRuntimeState) (own : Option String)
    (now : Int) (key : String) : system.latest key ≤ system.latestWith before own now key := by
  unfold latestWith
  split
  · exact le_max_left _ _
  · exact le_rfl

theorem latestWith_own (system : System) (before : RemoteRuntimeState) (key : String) (now : Int) :
    system.latestWith before (some key) now key = max (system.latest key) now := if_pos (.inl rfl)

/-- A call on another key that leaves the bucket as it was leaves its latest time too. -/
theorem covers_latestWith {before : RemoteRuntimeState} {key : String} {count : Nat}
    {recorded : Int → Nat} (own : Option String) (now : Int)
    (hbef : Covers count (system.latest key) recorded (before.bucketOf key))
    (haft : Covers count (max (system.latest key) now) recorded (system.runtime.bucketOf key)) :
    Covers count (system.latestWith before own now key) recorded
      (system.runtime.bucketOf key) := by
  unfold latestWith
  split
  · exact haft
  · rename_i hsame
    rw [not_or, not_not] at hsame
    rw [hsame.2]
    exact hbef

/-- A change of the runtime state that leaves the bucket covering. -/
theorem Throttled.setRuntime {latest : String → Int} (h : Throttled gateway deviceId system)
    (hlat : ∀ key, system.latest key ≤ latest key)
    (hcovs : Covers (system.inFlight gateway deviceId) (latest (failureKey deviceId))
      (system.recorded deviceId) (runtime.bucketOf (failureKey deviceId))) :
    Throttled gateway deviceId { system with runtime := runtime, latest := latest } where
  covers := hcovs
  past request hmem hdev hflt := (h.past request hmem hdev hflt).trans (hlat _)
  kept := h.kept
  bound := h.bound

theorem Throttled.advance {latest : String → Int} (h : Throttled gateway deviceId system)
    (hget : system.requests[index]? = some request) (hlat : ∀ key, system.latest key ≤ latest key)
    (hcovs : Covers ((system.advance index request stage runtime).inFlight gateway deviceId)
      (latest (failureKey deviceId))
      ((system.advance index request stage runtime).recorded deviceId)
      (runtime.bucketOf (failureKey deviceId)))
    (hpast : request.device.deviceId = deviceId →
      SessionRequest.isInFlight gateway { request with stage := stage } = true →
        request.now ≤ latest (failureKey deviceId))
    (hkept : request.device.deviceId = deviceId → stage ≠ .dropped true)
    (hbnd : request.device.deviceId = deviceId →
      SessionRequest.mayFail gateway { request with stage := stage } = true →
        request.mayFail gateway = true ∨ ∀ start, inWindow start request.now = true →
          system.exposed gateway deviceId start < maxFailures) :
    Throttled gateway deviceId
      { system.advance index request stage runtime with latest := latest } := by
  refine ⟨hcovs, ?_, ?_, ?_⟩
  · intro other hmem hdev hflt
    rcases mem_or_eq_of_mem_set hmem with hmem | rfl
    · exact (h.past other hmem hdev hflt).trans (hlat _)
    · exact hpast hdev hflt
  · intro other hmem hdev
    rcases mem_or_eq_of_mem_set hmem with hmem | rfl
    · exact h.kept other hmem hdev
    · exact hkept hdev
  · intro start
    have hold := h.bound start
    change (system.advance index request stage runtime).exposed gateway deviceId start ≤ maxFailures
    unfold exposed at hold ⊢
    by_cases hdev : request.device.deviceId = deviceId
    · have hcnt := countOf_advance_own stage runtime
        (fun request => request.mayFail gateway && inWindow start request.now) hget hdev
      dsimp only at hcnt
      by_cases hnew : (SessionRequest.mayFail gateway { request with stage := stage } &&
          inWindow start request.now) = true
      · rw [Bool.and_eq_true] at hnew
        rw [hnew.1, hnew.2] at hcnt
        rcases hbnd hdev hnew.1 with hwas | hroom
        · rw [hwas] at hcnt
          omega
        · have hroom := hroom start hnew.2
          unfold exposed at hroom
          have : (true && true).toNat = 1 := rfl
          omega
      · rw [Bool.not_eq_true] at hnew
        rw [hnew, Bool.toNat_false] at hcnt
        omega
    · rw [countOf_advance_other hget hdev]
      exact hold

theorem Throttled.advance_other {latest : String → Int} (h : Throttled gateway deviceId system)
    (hget : system.requests[index]? = some request) (hlat : ∀ key, system.latest key ≤ latest key)
    (hdev : request.device.deviceId ≠ deviceId)
    (hcovs : Covers (system.inFlight gateway deviceId) (latest (failureKey deviceId))
      (system.recorded deviceId) (runtime.bucketOf (failureKey deviceId))) :
    Throttled gateway deviceId
      { system.advance index request stage runtime with latest := latest } := by
  refine h.advance hget hlat ?_ (fun h => absurd h hdev) (fun h => absurd h hdev)
    fun h => absurd h hdev
  unfold inFlight recorded at hcovs ⊢
  rw [countOf_advance_other hget hdev]
  have hsame : (fun start => (system.advance index request stage runtime).countOf deviceId
      fun request => request.stage.isRecorded && inWindow start request.now) =
      fun start => system.countOf deviceId
        fun request => request.stage.isRecorded && inWindow start request.now :=
    funext fun start => countOf_advance_other hget hdev
  rw [hsame]
  exact hcovs

theorem inFlight_advance (gateway : Gateway) (stage : Stage) (runtime : RemoteRuntimeState)
    (hget : system.requests[index]? = some request) (hdev : request.device.deviceId = deviceId) :
    (system.advance index request stage runtime).inFlight gateway deviceId +
        (request.isInFlight gateway).toNat =
      system.inFlight gateway deviceId +
        (SessionRequest.isInFlight gateway { request with stage := stage }).toNat :=
  countOf_advance_own stage runtime (fun request => request.isInFlight gateway) hget hdev

theorem recorded_advance (stage : Stage) (runtime : RemoteRuntimeState)
    (hget : system.requests[index]? = some request)
    (hdev : request.device.deviceId = deviceId) (start : Int) :
    (system.advance index request stage runtime).recorded deviceId start +
        (request.stage.isRecorded && inWindow start request.now).toNat =
      system.recorded deviceId start + (stage.isRecorded && inWindow start request.now).toNat :=
  countOf_advance_own stage runtime
    (fun request => request.stage.isRecorded && inWindow start request.now) hget hdev

/-! ### The steps -/

theorem consumeAuthChallenge_rateLimits {runtime' : RemoteRuntimeState} {challengeId : String}
    {now : Int} {challenge : AuthChallengeRecord}
    (h : consumeAuthChallenge runtime challengeId now = .ok (challenge, runtime')) :
    runtime'.rateLimits = runtime.rateLimits := by
  unfold consumeAuthChallenge at h
  split at h
  · cases h
  · split at h
    · cases h
    · split at h
      · cases h
      · cases h
        rfl

theorem authChallenges_checkRateLimitAvailable (runtime : RemoteRuntimeState) (key : String)
    (now : Int) (maxAttempts : Nat) (windowMs : Int) :
    (checkRateLimitAvailable runtime key now maxAttempts windowMs).2.authChallenges =
      runtime.authChallenges := by
  unfold checkRateLimitAvailable probePruned
  split <;> rfl

theorem consumeAuthChallenge_found {runtime' : RemoteRuntimeState} {challengeId : String}
    {now : Int} {challenge : AuthChallengeRecord}
    (h : consumeAuthChallenge runtime challengeId now = .ok (challenge, runtime')) :
    ∃ found, runtime.authChallenges[challengeId]? = some found ∧
      challenge = { found with used := true } := by
  unfold consumeAuthChallenge at h
  split at h
  · cases h
  · rename_i found hfnd
    split at h
    · cases h
    · split at h
      · cases h
      · cases h
        exact ⟨found, hfnd, rfl⟩

/-- What the first time under the lock does: the check, and then the challenge. -/
theorem beginAuthSession_spec (gateway : Gateway) (runtime : RemoteRuntimeState) (request : SessionRequest) :
    (∀ key, (beginAuthSession runtime request).2.bucketOf key =
        (checkRateLimitAvailable runtime (failureKey request.device.deviceId) request.now maxFailures
          failureWindowMs).2.bucketOf key) ∧
      ((∃ error, (beginAuthSession runtime request).1 = .refused error) ∨
        (∃ challenge, (beginAuthSession runtime request).1 = .verifying challenge ∧
          (request.fails gateway challenge →
            (runtime.authChallenges[request.challengeId]?).any (request.fails gateway))) ∧
          (checkRateLimitAvailable runtime (failureKey request.device.deviceId) request.now
            maxFailures failureWindowMs).1 = .ok ()) := by
  unfold beginAuthSession
  rcases hchk : checkRateLimitAvailable runtime (failureKey request.device.deviceId) request.now
    maxFailures failureWindowMs with ⟨available, checked⟩
  cases available with
  | error code => exact ⟨fun _ => rfl, .inl ⟨_, rfl⟩⟩
  | ok _ =>
    dsimp only
    cases hcsm : consumeAuthChallenge checked request.challengeId request.now with
    | error code => exact ⟨fun _ => rfl, .inl ⟨_, rfl⟩⟩
    | ok consumed =>
      obtain ⟨challenge, runtime'⟩ := consumed
      refine ⟨?_, .inr ⟨⟨_, rfl, fun hfails => ?_⟩, rfl⟩⟩
      · intro key
        unfold RemoteRuntimeState.bucketOf
        dsimp only
        rw [consumeAuthChallenge_rateLimits hcsm]
      · obtain ⟨found, hfnd, rfl⟩ := consumeAuthChallenge_found hcsm
        have hsame := congrArg RemoteRuntimeState.authChallenges (congrArg Prod.snd hchk)
        rw [authChallenges_checkRateLimitAvailable] at hsame
        rw [hsame, hfnd]
        exact hfails

theorem verifyAuthSession_cases (gateway : Gateway) (request : SessionRequest)
    (challenge : AuthChallengeRecord) :
    (∃ error, verifyAuthSession gateway request challenge = .refused error) ∨
      verifyAuthSession gateway request challenge = .charging ∨
      verifyAuthSession gateway request challenge = .verified := by
  unfold verifyAuthSession
  split
  · exact .inl ⟨_, rfl⟩
  · split
    · exact .inl ⟨_, rfl⟩
    · exact .inl ⟨_, rfl⟩
    · exact .inr (.inl rfl)
    · exact .inr (.inr rfl)

/-- The condition on a step: a request of the device takes the lock first at a time that no call on the
bucket has passed, where the requests in flight and the failures kept leave room if its signature fails;
the table has room for a failure that is recorded; and no request is dropped before its failure is
recorded. -/
def Orderly (gateway : Gateway) (deviceId : String) (system : System) : Action → Prop
  | .begin index => ∀ request ∈ system.requests[index]?, request.stage = .waiting →
      request.device.deviceId = deviceId → system.latest (failureKey deviceId) ≤ request.now ∧
        ((system.runtime.authChallenges[request.challengeId]?).any (request.fails gateway) = true →
          HasRoom (system.inFlight gateway deviceId) request.now
            (system.runtime.bucketOf (failureKey deviceId)))
  | .record index => ∀ request ∈ system.requests[index]?, request.stage = .charging →
      request.device.deviceId = deviceId →
        (pruneRateLimitBuckets request.now system.runtime).isFullFor (failureKey deviceId) = false
  | .drop index => ∀ request ∈ system.requests[index]?, request.device.deviceId = deviceId →
      request.stage ≠ .charging
  | _ => True

section

variable (h : Throttled gateway deviceId system)
include h

theorem throttled_begin (hordy : system.Orderly gateway deviceId (.begin index))
    (hget : system.requests[index]? = some request) (hstg : request.stage = .waiting) :
    Throttled gateway deviceId ((system.advance index request
      (beginAuthSession system.runtime request).1
      (beginAuthSession system.runtime request).2).reads system.runtime
        (some (failureKey request.device.deviceId)) request.now) := by
  obtain ⟨hbuck, hres⟩ := beginAuthSession_spec gateway system.runtime request
  obtain ⟨hans, hchk⟩ := checkRateLimitAvailable_spec system.runtime
    (failureKey request.device.deviceId) request.now maxFailures failureWindowMs
  by_cases hdev : request.device.deviceId = deviceId
  · obtain ⟨hltr, hroom⟩ := hordy request hget hstg hdev
    rw [hdev] at hbuck hres hans hchk
    have hprnd := h.covers.prune request.now
    rw [max_eq_right hltr] at hprnd
    obtain ⟨hcovs, henter⟩ := hprnd.probe le_rfl
    have hbkt := (hbuck (failureKey deviceId)).trans (hchk (failureKey deviceId))
    rw [if_pos rfl] at hbkt
    have hinFlight := inFlight_advance gateway (beginAuthSession system.runtime request).1
      (beginAuthSession system.runtime request).2 hget hdev
    have hrecd := recorded_advance (beginAuthSession system.runtime request).1
      (beginAuthSession system.runtime request).2 hget hdev
    rw [show request.isInFlight gateway = false by
      rw [SessionRequest.isInFlight, hstg], Bool.toNat_false, Nat.add_zero] at hinFlight
    rw [hstg] at hrecd
    have hlat := (latestWith_own (system.advance index request
      (beginAuthSession system.runtime request).1 (beginAuthSession system.runtime request).2)
      system.runtime (failureKey deviceId) request.now).trans (max_eq_right hltr)
    rw [hdev]
    refine h.advance hget (le_latestWith _ _ _ _) ?_ (fun _ _ => hlat.ge) ?_ ?_
    · rw [hbkt, hlat]
      rcases hres with ⟨error, hrfsd⟩ | ⟨⟨challenge, hveri, hfails⟩, hok⟩
      · rw [hrfsd] at hinFlight hrecd ⊢
        exact hcovs.fewer hinFlight.le fun start => (hrecd start).le
      · rw [hveri] at hinFlight hrecd ⊢
        cases hfail : request.fails gateway challenge with
        | true =>
          rw [SessionRequest.isInFlight] at hinFlight
          have hinFlight := hinFlight.trans (congrArg _ (congrArg Bool.toNat hfail))
          exact (henter (hans ▸ hok) (hroom (hfails hfail)).prune).fewer hinFlight.le
            fun start => (hrecd start).le
        | false =>
          rw [SessionRequest.isInFlight] at hinFlight
          have hinFlight := hinFlight.trans (congrArg _ (congrArg Bool.toNat hfail))
          exact hcovs.fewer hinFlight.le fun start => (hrecd start).le
    · intro _ hdrpd
      rcases hres with ⟨error, hrfsd⟩ | ⟨⟨challenge, hveri, -⟩, -⟩
      · rw [hrfsd] at hdrpd
        cases hdrpd
      · rw [hveri] at hdrpd
        cases hdrpd
    · intro _ hmay
      right
      intro start hin
      rcases hres with ⟨error, hrfsd⟩ | ⟨⟨challenge, hveri, hfails⟩, hok⟩
      · rw [hrfsd] at hmay
        cases hmay
      · rw [hveri] at hmay
        have hfail : request.fails gateway challenge = true := by
          rwa [SessionRequest.mayFail, Bool.or_eq_true, or_iff_left (fun hfld => by cases hfld)]
            at hmay
        have henter := henter (hans ▸ hok) (hroom (hfails hfail)).prune
        have hexpo := h.exposed_le start
        have hcnt := (henter.counts start (lt_of_inWindow hin)).trans (countIn_le_length _ _)
        have := henter.room
        omega
  · refine h.advance_other hget (le_latestWith _ _ _ _) hdev ?_
    refine covers_latestWith _ _ h.covers ?_
    change Covers _ _ _ ((beginAuthSession system.runtime request).2.bucketOf _)
    rw [hbuck, hchk, if_neg fun hkey => hdev (failureKey_inj hkey)]
    exact h.covers.prune request.now

theorem throttled_record (hordy : system.Orderly gateway deviceId (.record index))
    (hget : system.requests[index]? = some request) (hstg : request.stage = .charging) :
    Throttled gateway deviceId ((system.advance index request .unauthorized
      (recordFailure system.runtime request)).reads system.runtime
        (some (failureKey request.device.deviceId)) request.now) := by
  have hmem := mem_of_getElem? hget
  have hflt : request.isInFlight gateway = true := by rw [SessionRequest.isInFlight, hstg]
  by_cases hdev : request.device.deviceId = deviceId
  · have hroom := hordy request hget hstg hdev
    have hpast := h.past request hmem hdev hflt
    have hbkt := bucketOf_checkRateLimit system.runtime (failureKey deviceId)
      (failureKey deviceId) request.now maxFailures failureWindowMs fun _ => hroom
    rw [if_pos rfl] at hbkt
    have hinFlight := inFlight_advance gateway .unauthorized
      (recordFailure system.runtime request) hget hdev
    have hrecd := recorded_advance .unauthorized
      (recordFailure system.runtime request) hget hdev
    rw [hflt] at hinFlight
    rw [hstg] at hrecd
    have hlat := (latestWith_own (system.advance index request .unauthorized
      (recordFailure system.runtime request)) system.runtime (failureKey deviceId)
      request.now).trans (max_eq_left hpast)
    rw [hdev]
    refine h.advance hget (le_latestWith _ _ _ _) ?_ (fun _ hflt => by cases hflt)
      (fun _ hdrpd => by cases hdrpd)
      (fun _ _ => .inl (by rw [SessionRequest.mayFail, hflt, Bool.true_or]))
    have hcnt : (system.advance index request .unauthorized
        (recordFailure system.runtime request)).inFlight gateway deviceId + 1 =
          system.inFlight gateway deviceId := hinFlight
    have hprnd := h.covers.prune request.now
    rw [max_eq_left hpast, ← hcnt] at hprnd
    rw [hlat]
    unfold recordFailure
    rw [hdev, hbkt]
    refine Covers.record hprnd hpast ?_
    intro start
    have hrecd := hrecd start
    unfold recordFailure at hrecd
    rw [hdev] at hrecd
    cases hin : inWindow start request.now with
    | true | false =>
      rw [hin] at hrecd
      exact hrecd.le
  · refine h.advance_other hget (le_latestWith _ _ _ _) hdev ?_
    refine covers_latestWith _ _ h.covers ?_
    change Covers _ _ _ ((recordFailure system.runtime request).bucketOf _)
    have hoth : failureKey request.device.deviceId ≠ failureKey deviceId :=
      fun hkey => hdev (failureKey_inj hkey)
    unfold recordFailure
    rw [bucketOf_checkRateLimit _ _ _ _ _ _ fun hkey => absurd hkey hoth, if_neg hoth]
    exact h.covers.prune request.now

theorem Throttled.leave (hget : system.requests[index]? = some request)
    (hflt : SessionRequest.isInFlight gateway { request with stage := stage } = false)
    (hrecd : stage.isRecorded = false) (hfld : stage.hasFailed = false) :
    Throttled gateway deviceId (system.advance index request stage system.runtime) := by
  by_cases hdev : request.device.deviceId = deviceId
  · refine h.advance hget (fun _ => le_rfl) ?_ ?_ ?_ ?_
    · have hcnt := inFlight_advance gateway stage system.runtime hget hdev
      rw [hflt, Bool.toNat_false, Nat.add_zero] at hcnt
      refine h.covers.fewer (hcnt ▸ Nat.le_add_right _ _) ?_
      intro start
      have hcnt := recorded_advance stage system.runtime hget hdev start
      rw [hrecd, Bool.false_and, Bool.toNat_false, Nat.add_zero] at hcnt
      exact hcnt ▸ Nat.le_add_right _ _
    · intro _ hin
      rw [hflt] at hin
      cases hin
    · rintro _ rfl
      cases hfld
    · intro _ hmay
      unfold SessionRequest.mayFail at hmay
      rw [hflt, hfld] at hmay
      cases hmay
  · exact h.advance_other hget (fun _ => le_rfl) hdev h.covers

theorem throttled_verify {challenge : AuthChallengeRecord}
    (hget : system.requests[index]? = some request) (hstg : request.stage = .verifying challenge) :
    Throttled gateway deviceId (system.advance index request
      (verifyAuthSession gateway request challenge) system.runtime) := by
  have hmem := mem_of_getElem? hget
  rcases verifyAuthSession_cases gateway request challenge with ⟨error, hnext⟩ | hnext | hnext
  · rw [hnext]
    exact h.leave hget rfl rfl rfl
  · have hflt : request.isInFlight gateway = true := by
      rw [SessionRequest.isInFlight, hstg]
      exact decide_eq_true hnext
    rw [hnext]
    by_cases hdev : request.device.deviceId = deviceId
    · refine h.advance hget (fun _ => le_rfl) ?_ (fun _ _ => h.past request hmem hdev hflt)
        (fun _ hdrpd => by cases hdrpd)
        (fun _ _ => .inl (by rw [SessionRequest.mayFail, hflt, Bool.true_or]))
      have hinFlight := inFlight_advance gateway .charging system.runtime hget hdev
      have hrecd := recorded_advance .charging system.runtime hget hdev
      rw [hflt] at hinFlight
      rw [hstg] at hrecd
      refine h.covers.fewer ?_ fun start => (hrecd start).le
      exact (Nat.add_right_cancel hinFlight).le
    · exact h.advance_other hget (fun _ => le_rfl) hdev h.covers
  · rw [hnext]
    exact h.leave hget rfl rfl rfl

theorem throttled_drop (hordy : system.Orderly gateway deviceId (.drop index))
    (hget : system.requests[index]? = some request) (hstg : request.stage = .charging) :
    Throttled gateway deviceId (system.advance index request (.dropped true) system.runtime) := by
  have hdev : request.device.deviceId ≠ deviceId :=
    fun hdev => hordy request hget hdev hstg
  exact h.advance_other hget (fun _ => le_rfl) hdev h.covers

theorem throttled_arrive (hstg : request.stage = .waiting) :
    Throttled gateway deviceId { system with requests := system.requests ++ [request] } := by
  have hcnt : ∀ {p : SessionRequest → Bool}, p request = false →
      { system with requests := system.requests ++ [request] }.countOf deviceId p =
        system.countOf deviceId p := by
    intro p hp
    unfold countOf
    rw [countP_append, countP_singleton, hp, Bool.and_false, if_neg (by simp),
      Nat.add_zero]
  have hflt : request.isInFlight gateway = false := by rw [SessionRequest.isInFlight, hstg]
  refine ⟨?_, ?_, ?_, ?_⟩
  · refine h.covers.fewer (hcnt hflt).le ?_
    intro start
    exact (hcnt (by rw [hstg]; rfl)).le
  · intro other hmem hdev hoth
    rcases mem_append.1 hmem with hmem | hmem
    · exact h.past other hmem hdev hoth
    · rw [mem_singleton.1 hmem, hflt] at hoth
      cases hoth
  · intro other hmem hdev
    rcases mem_append.1 hmem with hmem | hmem
    · exact h.kept other hmem hdev
    · rw [mem_singleton.1 hmem, hstg]
      simp
  · intro start
    refine (hcnt ?_).le.trans (h.bound start)
    rw [SessionRequest.mayFail, hflt, hstg]
    rfl

theorem throttled_limit (key : LimitKey) (now : Int)
    (maxAttempts : Nat) (windowMs : Int) :
    Covers (system.inFlight gateway deviceId) (max (system.latest (failureKey deviceId)) now)
      (system.recorded deviceId)
      ((checkRateLimit system.runtime key.text now maxAttempts windowMs).2.bucketOf
        (failureKey deviceId)) := by
  have hoth := text_ne_failureKey key deviceId
  rw [bucketOf_checkRateLimit _ _ _ _ _ _ fun hkey => absurd hkey hoth, if_neg hoth]
  exact h.covers.prune now

/-- A call that is not on the bucket of the device. -/
theorem Throttled.reads (own : Option String) (now : Int)
    (hcovs : Covers (system.inFlight gateway deviceId) (max (system.latest (failureKey deviceId)) now)
      (system.recorded deviceId) (runtime.bucketOf (failureKey deviceId))) :
    Throttled gateway deviceId ({ system with runtime := runtime }.reads system.runtime own now) :=
  h.setRuntime (le_latestWith _ _ _ _) (covers_latestWith own now h.covers hcovs)

theorem throttled_challenge (challengeId nonce device : String) (now : Int) :
    Throttled gateway deviceId (system.act gateway (.challenge challengeId nonce device now)) := by
  have hcovs := throttled_limit h (.authChallenge device) now 5 60000
  unfold act
  dsimp only
  split
  · exact h.reads _ now hcovs
  · refine h.reads _ now ?_
    have hprnd := hcovs.prune now
    rw [max_assoc, max_self] at hprnd
    exact hprnd

theorem throttled_step {next : SessionRequest → System}
    (hnext : ∀ request, system.requests[index]? = some request →
      Throttled gateway deviceId (next request)) :
    Throttled gateway deviceId (system.step index next) := by
  unfold step
  cases hget : system.requests[index]? with
  | none => exact h
  | some request => exact hnext request hget

theorem throttled_act (action : Action)
    (hordy : system.Orderly gateway deviceId action) :
    Throttled gateway deviceId (system.act gateway action) := by
  cases action with
  | arrive device challengeId signature now => exact throttled_arrive h rfl
  | begin index =>
    refine throttled_step h ?_
    intro request hget
    unfold beginRequest
    split
    · exact throttled_begin h hordy hget ‹_›
    · exact h
  | verify index =>
    refine throttled_step h ?_
    intro request hget
    unfold verifyRequest
    split
    · exact throttled_verify h hget ‹_›
    · exact h
  | record index =>
    refine throttled_step h ?_
    intro request hget
    unfold recordRequest
    split
    · exact throttled_record h hordy hget ‹_›
    · exact h
  | drop index =>
    refine throttled_step h ?_
    intro request hget
    unfold dropRequest
    split
    · exact h.leave hget rfl rfl rfl
    · exact h.leave hget rfl rfl rfl
    · exact throttled_drop h hordy hget ‹_›
    · exact h
  | challenge challengeId nonce device now => exact throttled_challenge h challengeId nonce device now
  | limit key now maxAttempts windowMs =>
    exact h.reads _ now (throttled_limit h key now maxAttempts windowMs)
  | prune now => exact h.reads _ now (h.covers.prune now)
  | other runtime => exact h.setRuntime (fun _ => le_rfl) h.covers

end

/-! ### The runs -/

/-- Every step meets the condition. -/
def OrderlyRun (gateway : Gateway) (deviceId : String) : System → List Action → Prop
  | _, [] => True
  | system, action :: actions =>
    system.Orderly gateway deviceId action ∧
      OrderlyRun gateway deviceId (system.act gateway action) actions

theorem throttled_start (gateway : Gateway) (deviceId : String) (since : Int) :
    Throttled gateway deviceId (start since) := by
  have hdflt : (start since).runtime.bucketOf (failureKey deviceId) = RateLimitBucket.default := by
    unfold RemoteRuntimeState.bucketOf start
    dsimp only
    rw [Table.lookup_empty]
    rfl
  refine ⟨?_, ?_, ?_, fun _ => Nat.zero_le _⟩
  · rw [hdflt]
    refine ⟨?_, Nat.zero_le _, fun _ _ => Nat.zero_le _, ?_⟩
    · intro attempt hmem
      cases hmem
    · intro lockedUntil hlckd
      cases hlckd
  · intro request hmem
    cases hmem
  · intro request hmem
    cases hmem

theorem throttled_run (h : Throttled gateway deviceId system) (actions : List Action)
    (hordy : OrderlyRun gateway deviceId system actions) :
    Throttled gateway deviceId (system.run gateway actions) := by
  induction actions generalizing system with
  | nil => exact h
  | cons action actions ih => exact ih (throttled_act h action hordy.1) hordy.2

theorem failures_le_exposed (gateway : Gateway) (system : System) (deviceId : String)
    (start : Int) : system.failures deviceId start ≤ system.exposed gateway deviceId start := by
  unfold failures exposed countOf
  refine countP_mono_left ?_
  intro request _ hfld
  unfold SessionRequest.mayFail
  simp only [Bool.and_eq_true, Bool.or_eq_true] at hfld ⊢
  exact ⟨hfld.1.1, .inr hfld.1.2, hfld.2⟩

instance (gateway : Gateway) (deviceId : String) (system : System) :
    (action : Action) → Decidable (system.Orderly gateway deviceId action)
  | .begin index => inferInstanceAs (Decidable (∀ request ∈ system.requests[index]?, _))
  | .record index => inferInstanceAs (Decidable (∀ request ∈ system.requests[index]?, _))
  | .drop index => inferInstanceAs (Decidable (∀ request ∈ system.requests[index]?, _))
  | .arrive .. => inferInstanceAs (Decidable True)
  | .verify _ => inferInstanceAs (Decidable True)
  | .challenge .. => inferInstanceAs (Decidable True)
  | .limit .. => inferInstanceAs (Decidable True)
  | .prune _ => inferInstanceAs (Decidable True)
  | .other _ => inferInstanceAs (Decidable True)

instance (gateway : Gateway) (deviceId : String) :
    (system : System) → (actions : List Action) →
      Decidable (OrderlyRun gateway deviceId system actions)
  | _, [] => inferInstanceAs (Decidable True)
  | system, action :: actions =>
    have := instDecidableOrderlyRun gateway deviceId (system.act gateway action) actions
    inferInstanceAs (Decidable (system.Orderly gateway deviceId action ∧
      OrderlyRun gateway deviceId (system.act gateway action) actions))

/-- **In an orderly run at most five requests of the device fail in ten minutes.** -/
theorem failures_run_le (gateway : Gateway) (deviceId : String) (since : Int)
    (actions : List Action) (hordy : OrderlyRun gateway deviceId (start since) actions)
    (start : Int) : ((System.start since).run gateway actions).failures deviceId start ≤ 5 :=
  (failures_le_exposed gateway _ deviceId start).trans
    ((throttled_run (throttled_start gateway deviceId since) actions hordy).bound start)

/-! A device signs with a wrong key: four requests fail one after the other, and then two at once. -/

def sampleGateway : Gateway :=
  { canonicalOrigin := "https://wardian.tailnet.ts.net"
    checkSignature := fun _ _ signature => if signature = "forged" then .invalid else .valid }

def sampleDevice : DeviceRecord := { deviceId := "dev-1", publicKeySpkiDerBase64 := "key-1" }

/-- A request that fails before the next one begins. -/
def forge (challengeId : String) (index : Nat) (now : Int) : List Action :=
  [.challenge challengeId "nonce-1" "dev-1" now, .arrive sampleDevice challengeId "forged" now,
    .begin index, .verify index, .record index]

def fourFailures : List Action :=
  forge "challenge-0" 0 0 ++ forge "challenge-1" 1 1000 ++ forge "challenge-2" 2 2000 ++
    forge "challenge-3" 3 3000

/-- A fifth failure and a sixth attempt, while a request with the right key is in flight and another
limit is asked at a later time. -/
def orderlyFailures : List Action :=
  fourFailures ++ [.challenge "challenge-4" "nonce-1" "dev-1" 60000,
    .arrive sampleDevice "challenge-4" "signed" 60000, .begin 4, .limit .pairingOffer 90000 5 60000] ++
      forge "challenge-5" 5 61000 ++ forge "challenge-6" 6 62000 ++ [.verify 4]

theorem failures_run_le_sample :
    ((System.start 0).run sampleGateway orderlyFailures).failures "dev-1" 0 ≤ 5 :=
  failures_run_le sampleGateway "dev-1" 0 orderlyFailures (by decide +kernel) 0

/-- Two requests that begin before either has failed are both let through by four failures. -/
theorem not_failures_le : ¬∀ gateway deviceId since actions start,
    ((System.start since).run gateway actions).failures deviceId start ≤ 5 := by
  intro h
  have hsix : ¬((System.start 0).run sampleGateway (fourFailures ++
      [.challenge "challenge-4" "nonce-1" "dev-1" 60000,
        .challenge "challenge-5" "nonce-1" "dev-1" 60000,
        .arrive sampleDevice "challenge-4" "forged" 60000,
        .arrive sampleDevice "challenge-5" "forged" 60000,
        .begin 4, .begin 5, .verify 4, .verify 5, .record 4, .record 5])).failures "dev-1" 0 ≤ 5 := by
    decide +kernel
  exact hsix (h _ _ _ _ _)

end System

end Wardian.Remote
