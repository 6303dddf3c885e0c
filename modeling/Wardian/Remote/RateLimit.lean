/-
The rate limiter of the remote gateway.

The runtime state has a bucket for each key: the times of the attempts that were admitted, and the time
until which the key is locked.  Every call first prunes all buckets: attempts older than a fixed time,
locks that have expired, and the buckets that are then empty.  A call on a key then drops the attempts
outside of the window of the key, and admits the call or locks the key.  Times are integers: the sum of
a time and a window is taken to be within the 64 bits of the source.

Main results:

* `Remote.Shows.prune` — no prune changes what a bucket shows;
* `Remote.Shows.request`, `Remote.Shows.probe` — a check asks the gate.
-/

import Wardian.Lib.SlidingWindow
import Wardian.Lib.Table

set_option autoImplicit false

namespace Wardian.Remote

open Bool
open List
open SlidingWindow

/-! ### The state -/

/-- The time for which attempts are kept, in milliseconds. -/
def rateLimitRetainMs : Int := 10 * 60 * 1000

def maxRateLimitBuckets : Nat := 1024

structure RateLimitBucket where
  /-- Oldest first. -/
  attempts : List Int
  lockedUntilMs : Option Int
deriving DecidableEq

/-- The bucket of a key that has none. -/
def RateLimitBucket.default : RateLimitBucket := { attempts := [], lockedUntilMs := none }

structure PairingOfferRecord where
  expiresAtMs : Int
  used : Bool

inductive PendingPairingDecision
  | pending
  | approving
  | approved
  | rejected
deriving DecidableEq

structure PendingPairingRequestRecord where
  expiresAtMs : Int
  decision : PendingPairingDecision

structure AuthChallengeRecord where
  challengeId : String
  deviceId : String
  nonce : String
  canonicalOrigin : String
  expiresAtMs : Int
  used : Bool
deriving DecidableEq

structure RemoteSessionRecord where
  deviceId : String
  expiresAtMs : Int
  absoluteExpiresAtMs : Int
  revoked : Bool

structure WebSocketTicketRecord where
  expiresAtMs : Int
  used : Bool

structure RemoteRuntimeState where
  pairingOffers : Table PairingOfferRecord
  pendingPairingRequests : Table PendingPairingRequestRecord
  authChallenges : Table AuthChallengeRecord
  sessions : Table RemoteSessionRecord
  websocketTickets : Table WebSocketTicketRecord
  activeStatusStreams : Table Nat
  rateLimits : Table RateLimitBucket

/-! ### The limiter

The times are those of the clock, in milliseconds; no sum or difference of them leaves 64 bits. -/

/-- Drop the attempts at the front that have reached an age. -/
def dropAged (age now : Int) (attempts : List Int) : List Int :=
  attempts.dropWhile fun attempt => decide (age ≤ now - attempt)

/-- The lock has not expired. -/
def isLocked (now : Int) (lockedUntilMs : Option Int) : Bool :=
  lockedUntilMs.any fun lockedUntil => decide (now < lockedUntil)

def pruneBucketWindow (now windowMs : Int) (bucket : RateLimitBucket) : RateLimitBucket :=
  { bucket with attempts := dropAged windowMs now bucket.attempts }

/-- The prune of one bucket. -/
def retireBucket (now : Int) (bucket : RateLimitBucket) : RateLimitBucket :=
  { attempts := dropAged rateLimitRetainMs now bucket.attempts
    lockedUntilMs := if isLocked now bucket.lockedUntilMs then bucket.lockedUntilMs else none }

/-- The bucket is kept by the prune. -/
def isRetained (now : Int) (bucket : RateLimitBucket) : Bool :=
  !bucket.attempts.isEmpty || isLocked now bucket.lockedUntilMs

def pruneRateLimitBuckets (now : Int) (runtime : RemoteRuntimeState) : RemoteRuntimeState :=
  { runtime with rateLimits :=
      (runtime.rateLimits.map fun _ bucket => retireBucket now bucket).filter fun _ bucket =>
        isRetained now bucket }

/-- Clear the attempts of a lock that has expired. -/
def clearExpiredLock (bucket : RateLimitBucket) : RateLimitBucket :=
  if bucket.lockedUntilMs.isSome then { attempts := [], lockedUntilMs := none } else bucket

/-- What a check that records no attempt answers, and what it leaves. -/
def probeBucket (bucket : RateLimitBucket) (now : Int) (maxAttempts : Nat) (windowMs : Int) :
    Except String Unit × RateLimitBucket :=
  if isLocked now bucket.lockedUntilMs then (.error "rate_limited", bucket)
  else
    let bucket := pruneBucketWindow now windowMs (clearExpiredLock bucket)
    if max maxAttempts 1 ≤ bucket.attempts.length then
      (.error "rate_limited", { bucket with lockedUntilMs := some (now + windowMs) })
    else (.ok (), bucket)

def checkRateLimitBucket (bucket : RateLimitBucket) (now : Int) (maxAttempts : Nat)
    (windowMs : Int) : Except String Unit × RateLimitBucket :=
  if isLocked now bucket.lockedUntilMs then (.error "rate_limited", bucket)
  else
    let bucket := pruneBucketWindow now windowMs (clearExpiredLock bucket)
    if max maxAttempts 1 ≤ bucket.attempts.length then
      (.error "rate_limited", { bucket with lockedUntilMs := some (now + windowMs) })
    else (.ok (), { bucket with attempts := bucket.attempts ++ [now] })

def RemoteRuntimeState.setBucket (runtime : RemoteRuntimeState) (key : String)
    (bucket : RateLimitBucket) : RemoteRuntimeState :=
  { runtime with rateLimits := runtime.rateLimits.insert key bucket }

/-- The table has no room for a bucket of the key. -/
def RemoteRuntimeState.isFullFor (runtime : RemoteRuntimeState) (key : String) : Bool :=
  runtime.rateLimits[key]?.isNone && decide (maxRateLimitBuckets ≤ runtime.rateLimits.size)

/-- Check a key of a table that has been pruned. -/
def checkPruned (runtime : RemoteRuntimeState) (key : String) (now : Int) (maxAttempts : Nat)
    (windowMs : Int) : Except String Unit × RemoteRuntimeState :=
  if runtime.isFullFor key then (.error "rate_limit_capacity", runtime)
  else
    let (answer, bucket) := checkRateLimitBucket
      (runtime.rateLimits[key]?.getD RateLimitBucket.default) now maxAttempts windowMs
    (answer, runtime.setBucket key bucket)

def checkRateLimit (runtime : RemoteRuntimeState) (key : String) (now : Int) (maxAttempts : Nat)
    (windowMs : Int) : Except String Unit × RemoteRuntimeState :=
  checkPruned (pruneRateLimitBuckets now runtime) key now maxAttempts windowMs

/-- Probe a key of a table that has been pruned. -/
def probePruned (runtime : RemoteRuntimeState) (key : String) (now : Int) (maxAttempts : Nat)
    (windowMs : Int) : Except String Unit × RemoteRuntimeState :=
  match runtime.rateLimits[key]? with
  | none => (.ok (), runtime)
  | some bucket =>
    let (answer, bucket) := probeBucket bucket now maxAttempts windowMs
    (answer, runtime.setBucket key bucket)

def checkRateLimitAvailable (runtime : RemoteRuntimeState) (key : String) (now : Int)
    (maxAttempts : Nat) (windowMs : Int) : Except String Unit × RemoteRuntimeState :=
  probePruned (pruneRateLimitBuckets now runtime) key now maxAttempts windowMs

def sessionIsActive (session : RemoteSessionRecord) (now : Int) : Bool :=
  !session.revoked && decide (now ≤ session.expiresAtMs) && decide (now ≤ session.absoluteExpiresAtMs)

def pruneExpiredRuntimeState (now : Int) (runtime : RemoteRuntimeState) : RemoteRuntimeState :=
  let sessions := runtime.sessions.filter fun _ session => sessionIsActive session now
  pruneRateLimitBuckets now
    { runtime with
      pairingOffers := runtime.pairingOffers.filter fun _ offer =>
        !offer.used && decide (now ≤ offer.expiresAtMs)
      pendingPairingRequests := runtime.pendingPairingRequests.filter fun _ request =>
        request.decision == .approving ||
          decide (now ≤ request.expiresAtMs) && request.decision != .rejected
      authChallenges := runtime.authChallenges.filter fun _ challenge =>
        !challenge.used && decide (now ≤ challenge.expiresAtMs)
      sessions := sessions
      websocketTickets := runtime.websocketTickets.filter fun _ ticket =>
        !ticket.used && decide (now ≤ ticket.expiresAtMs)
      activeStatusStreams := runtime.activeStatusStreams.filter fun sessionId _ =>
        sessions.contains sessionId }

/-! ### Lookups -/

/-- The bucket of a key, or that of a key without one. -/
def RemoteRuntimeState.bucketOf (runtime : RemoteRuntimeState) (key : String) : RateLimitBucket :=
  runtime.rateLimits[key]?.getD RateLimitBucket.default

theorem lookup_prune (now : Int) (runtime : RemoteRuntimeState) (key : String) :
    (pruneRateLimitBuckets now runtime).rateLimits[key]? =
      (runtime.rateLimits[key]?.map (retireBucket now)).filter (isRetained now) := by
  unfold pruneRateLimitBuckets
  rw [Std.ExtTreeMap.getElem?_filter', Std.ExtTreeMap.getElem?_map', Option.pmap_eq_map]

theorem bucketOf_setBucket (runtime : RemoteRuntimeState) (key other : String) (bucket : RateLimitBucket) :
    (runtime.setBucket key bucket).bucketOf other =
      if key = other then bucket else runtime.bucketOf other := by
  unfold RemoteRuntimeState.bucketOf RemoteRuntimeState.setBucket
  rw [Table.lookup_insert]
  split <;> rfl

@[simp] theorem bucketOf_pruneExpired (now : Int) (runtime : RemoteRuntimeState) (key : String) :
    (pruneExpiredRuntimeState now runtime).bucketOf key =
      (pruneRateLimitBuckets now runtime).bucketOf key := rfl

theorem probeBucket_default (now : Int) {maxAttempts : Nat} (windowMs : Int) :
    probeBucket RateLimitBucket.default now maxAttempts windowMs =
      (.ok (), RateLimitBucket.default) := by
  unfold probeBucket
  have hmax : ¬max maxAttempts 1 ≤ 0 := by omega
  exact if_neg hmax

/-- A check without an attempt answers what its bucket does, and changes that bucket only. -/
theorem checkRateLimitAvailable_spec (runtime : RemoteRuntimeState) (key : String) (now : Int)
    (maxAttempts : Nat) (windowMs : Int) :
    (checkRateLimitAvailable runtime key now maxAttempts windowMs).1 =
        (probeBucket ((pruneRateLimitBuckets now runtime).bucketOf key) now maxAttempts windowMs).1 ∧
      ∀ other, (checkRateLimitAvailable runtime key now maxAttempts windowMs).2.bucketOf other =
        if key = other then
          (probeBucket ((pruneRateLimitBuckets now runtime).bucketOf key) now maxAttempts windowMs).2
        else (pruneRateLimitBuckets now runtime).bucketOf other := by
  unfold checkRateLimitAvailable probePruned
  cases hlook : (pruneRateLimitBuckets now runtime).rateLimits[key]? with
  | none =>
    have hdflt :
        (pruneRateLimitBuckets now runtime).bucketOf key = RateLimitBucket.default := by
      unfold RemoteRuntimeState.bucketOf
      rw [hlook]
      rfl
    rw [hdflt, probeBucket_default]
    refine ⟨rfl, ?_⟩
    intro other
    by_cases hkey : key = other
    · rw [if_pos hkey, ← hkey]
      exact hdflt
    · rw [if_neg hkey]
  | some bucket =>
    have hbkt : (pruneRateLimitBuckets now runtime).bucketOf key = bucket := by
      unfold RemoteRuntimeState.bucketOf
      rw [hlook]
      rfl
    rw [hbkt]
    exact ⟨rfl, fun other => bucketOf_setBucket _ key other _⟩

theorem bucketOf_checkRateLimit (runtime : RemoteRuntimeState) (key other : String) (now : Int)
    (maxAttempts : Nat) (windowMs : Int)
    (hroom : key = other → (pruneRateLimitBuckets now runtime).isFullFor key = false) :
    (checkRateLimit runtime key now maxAttempts windowMs).2.bucketOf other =
      if key = other then
        (checkRateLimitBucket ((pruneRateLimitBuckets now runtime).bucketOf key) now maxAttempts
          windowMs).2
      else (pruneRateLimitBuckets now runtime).bucketOf other := by
  unfold checkRateLimit checkPruned
  by_cases hfull : (pruneRateLimitBuckets now runtime).isFullFor key = true
  · rw [if_pos hfull, if_neg]
    intro hkey
    rw [hroom hkey] at hfull
    cases hfull
  · rw [if_neg hfull]
    exact bucketOf_setBucket _ key other _

/-! ### What a bucket shows -/

/-- The attempts of a window that are in a list. -/
def recentIn (windowMs now : Int) (attempts : List Int) : List Int :=
  attempts.filter fun attempt => decide (now < attempt + windowMs)

/-- A bucket shows a gate from a time on: it has the admissions that are still in the window, and the
lock as long as it lasts. -/
structure Shows (windowMs since : Int) (gate : Gate Int) (bucket : RateLimitBucket) : Prop where
  sorted : bucket.attempts.Pairwise (· ≤ ·)
  past : ∀ attempt ∈ bucket.attempts, attempt ≤ since
  recent : ∀ now, since ≤ now →
    recentIn windowMs now bucket.attempts = recentIn windowMs now gate.admitted
  locked : ∀ now, since ≤ now → isLocked now bucket.lockedUntilMs = gate.locked now
  before : ∀ lockedUntil, bucket.lockedUntilMs = some lockedUntil →
    ∀ attempt ∈ bucket.attempts, attempt + windowMs ≤ lockedUntil

variable {windowMs since now : Int} {gate : Gate Int} {bucket : RateLimitBucket}

theorem shows_fresh (windowMs since : Int) :
    Shows windowMs since Gate.fresh RateLimitBucket.default where
  sorted := List.Pairwise.nil
  past := by simp [RateLimitBucket.default]
  recent _ _ := rfl
  locked _ _ := rfl
  before _ h := by cases h

namespace Shows

theorem later (h : Shows windowMs since gate bucket) (hnow : since ≤ now) :
    Shows windowMs now gate bucket where
  sorted := h.sorted
  past attempt hmem := (h.past attempt hmem).trans hnow
  recent later hltr := h.recent later (hnow.trans hltr)
  locked later hltr := h.locked later (hnow.trans hltr)
  before := h.before

end Shows

/-- In order, what is dropped at the front is all that has reached the age. -/
theorem dropAged_eq_filter (age now : Int) {attempts : List Int} (h : attempts.Pairwise (· ≤ ·)) :
    dropAged age now attempts = recentIn age now attempts := by
  unfold dropAged recentIn
  induction attempts with
  | nil => rfl
  | cons attempt attempts ih =>
    obtain ⟨hhead, htail⟩ := pairwise_cons.1 h
    by_cases hold : age ≤ now - attempt
    · rw [dropWhile_cons_of_pos (by simpa using hold),
        filter_cons_of_neg (by simp; omega)]
      exact ih htail
    · rw [dropWhile_cons_of_neg (by simpa using hold)]
      symm
      rw [filter_eq_self]
      intro other hoth
      rw [decide_eq_true_eq]
      rcases mem_cons.1 hoth with rfl | hoth
      · omega
      · have := hhead other hoth
        omega

/-- What is recent later was recent before, in any wider window. -/
theorem recentIn_recentIn {age later : Int} (attempts : List Int) (hage : windowMs ≤ age)
    (hltr : now ≤ later) :
    recentIn windowMs later (recentIn age now attempts) = recentIn windowMs later attempts := by
  unfold recentIn
  rw [filter_filter]
  refine filter_congr ?_
  intro attempt _
  rw [← decide_and, decide_eq_decide]
  constructor
  · exact fun h => h.1
  · intro h
    exact ⟨h, by omega⟩

namespace Shows

theorem retire (h : Shows windowMs since gate bucket) (hnow : since ≤ now)
    (hwin : windowMs ≤ rateLimitRetainMs) : Shows windowMs now gate (retireBucket now bucket) := by
  have hdrop := dropAged_eq_filter rateLimitRetainMs now h.sorted
  have hsub : ∀ attempt ∈ dropAged rateLimitRetainMs now bucket.attempts,
      attempt ∈ bucket.attempts := by
    intro attempt hmem
    exact (dropWhile_sublist _).subset hmem
  constructor
  · exact List.Pairwise.sublist (dropWhile_sublist _) h.sorted
  · intro attempt hmem
    exact (h.past attempt (hsub attempt hmem)).trans hnow
  · intro later hltr
    change recentIn windowMs later (dropAged rateLimitRetainMs now bucket.attempts) = _
    rw [hdrop, recentIn_recentIn _ hwin hltr]
    exact h.recent later (hnow.trans hltr)
  · intro later hltr
    rw [← h.locked later (hnow.trans hltr)]
    unfold retireBucket
    dsimp only
    cases hlock : isLocked now bucket.lockedUntilMs with
    | true => rfl
    | false =>
      rw [if_neg (by simp)]
      unfold isLocked at hlock ⊢
      cases hsome : bucket.lockedUntilMs with
      | none => rfl
      | some lockedUntil =>
        rw [hsome, Option.any_some, decide_eq_false_iff_not] at hlock
        rw [Option.any_none, Option.any_some, eq_comm, decide_eq_false_iff_not]
        omega
  · intro lockedUntil hlckd attempt hmem
    unfold retireBucket at hlckd
    dsimp only at hlckd
    split at hlckd
    · exact h.before lockedUntil hlckd attempt (hsub attempt hmem)
    · cases hlckd

/-- A bucket that is not retained shows what a key without one shows. -/
theorem default_of_not_retained (h : Shows windowMs since gate bucket)
    (hnot : isRetained since bucket = false) : Shows windowMs since gate RateLimitBucket.default := by
  unfold isRetained at hnot
  rw [or_eq_false_iff, not_eq_false', List.isEmpty_iff] at hnot
  constructor
  · exact List.Pairwise.nil
  · intro attempt hmem
    cases hmem
  · intro now hnow
    rw [← h.recent now hnow, hnot.1]
    rfl
  · intro now hnow
    rw [← h.locked now hnow]
    have hlock := hnot.2
    unfold isLocked at hlock ⊢
    cases hsome : bucket.lockedUntilMs with
    | none => rfl
    | some lockedUntil =>
      rw [hsome, Option.any_some, decide_eq_false_iff_not] at hlock
      change false = decide (now < lockedUntil)
      rw [eq_comm, decide_eq_false_iff_not]
      omega
  · intro lockedUntil hlckd
    cases hlckd

/-- **No prune of the table changes what a key shows.** -/
theorem prune {runtime : RemoteRuntimeState} {key : String}
    (h : Shows windowMs since gate (runtime.bucketOf key)) (hnow : since ≤ now)
    (hwin : windowMs ≤ rateLimitRetainMs) :
    Shows windowMs now gate ((pruneRateLimitBuckets now runtime).bucketOf key) := by
  unfold RemoteRuntimeState.bucketOf at h ⊢
  rw [lookup_prune]
  cases hlook : runtime.rateLimits[key]? with
  | none =>
    rw [hlook] at h
    exact h.later hnow
  | some bucket =>
    rw [hlook] at h
    have hreti := h.retire hnow hwin
    rw [Option.map_some]
    by_cases hkept : isRetained now (retireBucket now bucket) = true
    · rw [Option.filter_some_pos hkept]
      exact hreti
    · rw [not_eq_true] at hkept
      rw [Option.filter_some_neg hkept]
      exact hreti.default_of_not_retained hkept

variable (h : Shows windowMs since gate bucket)
include h

theorem recent_of_expired
    (hlckd : isLocked now bucket.lockedUntilMs = false) (hsome : bucket.lockedUntilMs.isSome) :
    recentIn windowMs now bucket.attempts = [] := by
  obtain ⟨lockedUntil, heq⟩ := Option.isSome_iff_exists.1 hsome
  unfold isLocked at hlckd
  rw [heq, Option.any_some, decide_eq_false_iff_not] at hlckd
  unfold recentIn
  rw [filter_eq_nil_iff]
  intro attempt hmem
  have := h.before lockedUntil heq attempt hmem
  rw [decide_eq_true_eq]
  omega

/-- Where the lock has expired, the check is left with the recent admissions. -/
theorem cleared (hnow : since ≤ now)
    (hlckd : isLocked now bucket.lockedUntilMs = false) :
    pruneBucketWindow now windowMs (clearExpiredLock bucket) =
      { attempts := gate.recent windowMs now, lockedUntilMs := none } := by
  have hrct : gate.recent windowMs now = recentIn windowMs now bucket.attempts :=
    (h.recent now hnow).symm
  unfold pruneBucketWindow clearExpiredLock
  by_cases hsome : bucket.lockedUntilMs.isSome = true
  · rw [if_pos hsome, hrct, h.recent_of_expired hlckd hsome]
    rfl
  · rw [if_neg hsome, hrct, ← dropAged_eq_filter windowMs now h.sorted]
    rw [not_eq_true, Option.isSome_eq_false_iff, Option.isNone_iff_eq_none] at hsome
    rw [hsome]

theorem recent_pairwise (hnow : since ≤ now) :
    (gate.recent windowMs now).Pairwise (· ≤ ·) ∧
      ∀ attempt ∈ gate.recent windowMs now, attempt ≤ now := by
  have hrct : gate.recent windowMs now = recentIn windowMs now bucket.attempts :=
    (h.recent now hnow).symm
  rw [hrct]
  refine ⟨List.Pairwise.filter _ h.sorted, ?_⟩
  intro attempt hmem
  exact (h.past attempt (mem_filter.1 hmem).1).trans hnow

theorem recentOnly (hnow : since ≤ now)
    (hlckd : gate.locked now = false) :
    Shows windowMs now gate
      { attempts := gate.recent windowMs now, lockedUntilMs := none } := by
  obtain ⟨hsrtd, hpast⟩ := h.recent_pairwise hnow
  refine ⟨hsrtd, hpast, ?_, ?_, ?_⟩
  · intro later hltr
    exact recentIn_recentIn gate.admitted le_rfl hltr
  · intro later hltr
    unfold Gate.locked at hlckd ⊢
    cases hsome : gate.lockedUntil with
    | none => rfl
    | some lockedUntil =>
      rw [hsome, Option.any_some, decide_eq_false_iff_not] at hlckd
      change false = decide (later < lockedUntil)
      rw [eq_comm, decide_eq_false_iff_not]
      omega
  · intro lockedUntil heq
    cases heq

theorem lock (hnow : since ≤ now) :
    Shows windowMs now { gate with lockedUntil := some (now + windowMs) }
      { attempts := gate.recent windowMs now, lockedUntilMs := some (now + windowMs) } := by
  obtain ⟨hsrtd, hpast⟩ := h.recent_pairwise hnow
  refine ⟨hsrtd, hpast, ?_, fun _ _ => rfl, ?_⟩
  · intro later hltr
    exact recentIn_recentIn gate.admitted le_rfl hltr
  · intro lockedUntil heq attempt hmem
    obtain rfl := Option.some.inj heq
    have := hpast attempt hmem
    omega

theorem push (hnow : since ≤ now) (hlckd : gate.locked now = false) :
    Shows windowMs now { gate with admitted := gate.admitted ++ [now] }
      { attempts := gate.recent windowMs now ++ [now], lockedUntilMs := none } := by
  obtain ⟨hsrtd, hpast⟩ := h.recent_pairwise hnow
  have honly := h.recentOnly hnow hlckd
  refine ⟨?_, ?_, ?_, honly.locked, fun _ heq => by cases heq⟩
  · rw [pairwise_append]
    refine ⟨hsrtd, pairwise_singleton _ _, ?_⟩
    intro attempt hmem other hoth
    obtain rfl := mem_singleton.1 hoth
    exact hpast attempt hmem
  · intro attempt hmem
    rcases mem_append.1 hmem with hmem | hmem
    · exact hpast attempt hmem
    · exact (mem_singleton.1 hmem).le
  · intro later hltr
    have hrct := honly.recent later hltr
    unfold recentIn at hrct ⊢
    dsimp only
    rw [filter_append, filter_append, hrct]

/-- **A check that records no attempt probes the gate.** -/
theorem probe (hnow : since ≤ now) {maxAttempts : Nat}
    (hmax : 1 ≤ maxAttempts) :
    ((probeBucket bucket now maxAttempts windowMs).1 = .ok () ↔
      (gate.probe maxAttempts windowMs now).1 = true) ∧
    ((probeBucket bucket now maxAttempts windowMs).1 = .ok () ∨
      (probeBucket bucket now maxAttempts windowMs).1 = .error "rate_limited") ∧
    Shows windowMs now (gate.probe maxAttempts windowMs now).2
      (probeBucket bucket now maxAttempts windowMs).2 := by
  have hlock := h.locked now hnow
  unfold probeBucket Gate.probe
  rw [hlock, max_eq_left hmax]
  by_cases hlckd : gate.locked now = true
  · rw [if_pos hlckd, if_pos hlckd]
    exact ⟨by simp, Or.inr rfl, h.later hnow⟩
  · rw [if_neg hlckd, if_neg hlckd]
    rw [not_eq_true] at hlckd
    rw [hlckd] at hlock
    rw [h.cleared hnow hlock]
    dsimp only
    by_cases hfull : maxAttempts ≤ (gate.recent windowMs now).length
    · rw [if_pos hfull, if_pos hfull]
      exact ⟨by simp, Or.inr rfl, h.lock hnow⟩
    · rw [if_neg hfull, if_neg hfull]
      exact ⟨by simp, Or.inl rfl, h.recentOnly hnow hlckd⟩

theorem request (hnow : since ≤ now) {maxAttempts : Nat}
    (hmax : 1 ≤ maxAttempts) :
    ((checkRateLimitBucket bucket now maxAttempts windowMs).1 = .ok () ↔
      (gate.request maxAttempts windowMs now).1 = true) ∧
    ((checkRateLimitBucket bucket now maxAttempts windowMs).1 = .ok () ∨
      (checkRateLimitBucket bucket now maxAttempts windowMs).1 = .error "rate_limited") ∧
    Shows windowMs now (gate.request maxAttempts windowMs now).2
      (checkRateLimitBucket bucket now maxAttempts windowMs).2 := by
  have hlock := h.locked now hnow
  unfold checkRateLimitBucket Gate.request
  rw [hlock, max_eq_left hmax]
  by_cases hlckd : gate.locked now = true
  · rw [if_pos hlckd, if_pos hlckd]
    exact ⟨by simp, Or.inr rfl, h.later hnow⟩
  · rw [if_neg hlckd, if_neg hlckd]
    rw [not_eq_true] at hlckd
    rw [hlckd] at hlock
    rw [h.cleared hnow hlock]
    dsimp only
    by_cases hfull : maxAttempts ≤ (gate.recent windowMs now).length
    · rw [if_pos hfull, if_pos hfull]
      exact ⟨by simp, Or.inr rfl, h.lock hnow⟩
    · rw [if_neg hfull, if_neg hfull]
      exact ⟨by simp, Or.inl rfl, h.push hnow hlckd⟩

end Shows

end Wardian.Remote
