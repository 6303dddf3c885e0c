/-
Opening an authenticated session of the remote gateway.

A request reads the clock and then takes the lock of the runtime state twice.  The first time it checks
that the failures of its device leave room for another, and consumes its challenge.  It verifies the
signature without the lock.  Where that fails it takes the lock again, to record the failure at the time
it has read at its beginning.  Between any two steps the gateway may serve other requests, and a request
whose connection is closed is dropped where it stands.
-/

import Wardian.Remote.RateLimit

set_option autoImplicit false

namespace Wardian.Remote

/-! ### Challenges -/

def authChallengeTtlMs : Int := 60000

def createAuthChallenge (runtime : RemoteRuntimeState) (challengeId nonce deviceId
    canonicalOrigin : String) (now : Int) : AuthChallengeRecord × RemoteRuntimeState :=
  let runtime := pruneExpiredRuntimeState now runtime
  let challenge : AuthChallengeRecord :=
    { challengeId := challengeId
      deviceId := deviceId
      nonce := nonce
      canonicalOrigin := canonicalOrigin
      expiresAtMs := now + authChallengeTtlMs
      used := false }
  (challenge, { runtime with
    authChallenges := runtime.authChallenges.insert challengeId challenge })

def consumeAuthChallenge (runtime : RemoteRuntimeState) (challengeId : String) (now : Int) :
    Except String (AuthChallengeRecord × RemoteRuntimeState) :=
  match runtime.authChallenges[challengeId]? with
  | none => .error "auth_challenge_not_found"
  | some challenge =>
    if challenge.used then .error "auth_challenge_used"
    else if challenge.expiresAtMs < now then .error "auth_challenge_expired"
    else
      let challenge := { challenge with used := true }
      .ok (challenge, { runtime with
        authChallenges := runtime.authChallenges.insert challengeId challenge })

/-! ### Keys -/

/-- The keys of the other limits of the gateway. -/
inductive LimitKey
  | pairingOffer
  | pairingSubmit (offerId : String)
  | pairingStatus (requestId : String)
  | authChallenge (deviceId : String)
  | agentAction (action sessionId : String)
  | mutation (sessionId : String)

def LimitKey.text : LimitKey → String
  | pairingOffer => "pairing_offer:desktop"
  | pairingSubmit offerId => "pairing_submit:" ++ offerId
  | pairingStatus requestId => "pairing_status:" ++ requestId
  | authChallenge deviceId => "auth_challenge:" ++ deviceId
  | agentAction action sessionId => "agent_action:" ++ action ++ ":" ++ sessionId
  | mutation sessionId => "mutation:" ++ sessionId

def failureKey (deviceId : String) : String := "auth_session_failure:" ++ deviceId

def maxFailures : Nat := 5

def failureWindowMs : Int := 10 * 60000

theorem failureKey_inj {deviceId deviceId' : String}
    (h : failureKey deviceId = failureKey deviceId') : deviceId = deviceId' := by
  unfold failureKey at h
  have hlist := congrArg String.toList h
  rw [String.toList_append, String.toList_append] at hlist
  exact String.toList_inj.1 (List.append_cancel_left hlist)

theorem text_ne_failureKey (key : LimitKey) (deviceId : String) : key.text ≠ failureKey deviceId := by
  intro h
  have hlist := congrArg String.toList h
  unfold failureKey at hlist
  cases key <;> simp [LimitKey.text, String.toList_append] at hlist

/-! ### The steps of a request -/

structure RemoteGatewayError where
  status : Nat
  code : String
deriving DecidableEq

namespace RemoteGatewayError

def badRequest (code : String) : RemoteGatewayError := { status := 400, code := code }

def tooManyRequests (code : String) : RemoteGatewayError := { status := 429, code := code }

end RemoteGatewayError

def gatewayStaticErrorCode (code : String) : String :=
  if code ∈ ["pairing_offer_not_found", "pairing_offer_used", "pairing_offer_expired",
    "auth_challenge_not_found", "auth_challenge_used", "auth_challenge_expired"] then code
  else "remote_gateway_error"

structure DeviceRecord where
  deviceId : String
  publicKeySpkiDerBase64 : String

/-- What the decoders and the signature library say of a signature. -/
inductive SignatureCheck
  | malformedKey
  | malformedSignature
  | invalid
  | valid

/-- The origin of the gateway, and the check of a signature on a message by a public key. -/
structure Gateway where
  canonicalOrigin : String
  checkSignature : (publicKey message signature : String) → SignatureCheck

/-- How far a request has come. -/
inductive Stage
  | waiting
  | verifying (challenge : AuthChallengeRecord)
  /-- The signature has failed, and the failure is not yet recorded. -/
  | charging
  | unauthorized
  | refused (error : RemoteGatewayError)
  | verified
  | dropped (failed : Bool)
deriving DecidableEq

structure SessionRequest where
  device : DeviceRecord
  challengeId : String
  signatureDerBase64 : String
  /-- The clock, read before the lock is taken. -/
  now : Int
  stage : Stage

def authSignatureMessage (challenge : AuthChallengeRecord) : String :=
  "wardian.remote.auth.v1\norigin:" ++ challenge.canonicalOrigin ++ "\ndevice:" ++
    challenge.deviceId ++ "\nchallenge:" ++ challenge.challengeId ++ "\nnonce:" ++ challenge.nonce

/-- The first time under the lock. -/
def beginAuthSession (runtime : RemoteRuntimeState) (request : SessionRequest) :
    Stage × RemoteRuntimeState :=
  let (available, runtime) := checkRateLimitAvailable runtime (failureKey request.device.deviceId)
    request.now maxFailures failureWindowMs
  match available with
  | .error _ => (.refused (.tooManyRequests "rate_limited"), runtime)
  | .ok _ =>
    match consumeAuthChallenge runtime request.challengeId request.now with
    | .error code => (.refused (.badRequest (gatewayStaticErrorCode code)), runtime)
    | .ok (challenge, runtime) => (.verifying challenge, runtime)

/-- Without the lock. -/
def verifyAuthSession (gateway : Gateway) (request : SessionRequest)
    (challenge : AuthChallengeRecord) : Stage :=
  if challenge.deviceId ≠ request.device.deviceId ∨
      challenge.canonicalOrigin ≠ gateway.canonicalOrigin then
    .refused (.badRequest "auth_challenge_mismatch")
  else
    match gateway.checkSignature request.device.publicKeySpkiDerBase64
        (authSignatureMessage challenge) request.signatureDerBase64 with
    | .malformedKey => .refused (.badRequest "invalid_device_public_key")
    | .malformedSignature => .refused (.badRequest "invalid_auth_signature")
    | .invalid => .charging
    | .valid => .verified

/-- The second time under the lock: what the limiter answers is ignored. -/
def recordFailure (runtime : RemoteRuntimeState) (request : SessionRequest) : RemoteRuntimeState :=
  (checkRateLimit runtime (failureKey request.device.deviceId) request.now maxFailures
    failureWindowMs).2

/-! ### The gateway -/

structure System where
  runtime : RemoteRuntimeState
  requests : List SessionRequest
  /-- For each key, the latest time of a call on its bucket, or of another call that has changed it. -/
  latest : String → Int

inductive Action
  | arrive (device : DeviceRecord) (challengeId signature : String) (now : Int)
  | begin (index : Nat)
  | verify (index : Nat)
  | record (index : Nat)
  | drop (index : Nat)
  | challenge (challengeId nonce deviceId : String) (now : Int)
  /-- Another limited call. -/
  | limit (key : LimitKey) (now : Int) (maxAttempts : Nat) (windowMs : Int)
  | prune (now : Int)
  /-- Any change of the rest of the state, as by the calls on offers, sessions and tickets. -/
  | other (runtime : RemoteRuntimeState)

namespace System

variable (gateway : Gateway)

/-- Bring a request to a stage, with the runtime state it leaves. -/
def advance (system : System) (index : Nat) (request : SessionRequest) (stage : Stage)
    (runtime : RemoteRuntimeState) : System :=
  { system with
    runtime := runtime
    requests := system.requests.set index { request with stage := stage } }

/-- The latest times, with that of a call that was on a key or on none. -/
def latestWith (system : System) (before : RemoteRuntimeState) (own : Option String) (now : Int)
    (key : String) : Int :=
  if own = some key ∨ system.runtime.bucketOf key ≠ before.bucketOf key then
    max (system.latest key) now
  else system.latest key

/-- A time that a call on the limiter has used. -/
def reads (system : System) (before : RemoteRuntimeState) (own : Option String) (now : Int) :
    System :=
  { system with latest := system.latestWith before own now }

/-- What the request of an index does next. -/
def step (system : System) (index : Nat) (next : SessionRequest → System) : System :=
  match system.requests[index]? with
  | none => system
  | some request => next request

def beginRequest (system : System) (index : Nat) (request : SessionRequest) : System :=
  match request.stage with
  | .waiting =>
    let (stage, runtime) := beginAuthSession system.runtime request
    (system.advance index request stage runtime).reads system.runtime
      (some (failureKey request.device.deviceId)) request.now
  | _ => system

def verifyRequest (system : System) (index : Nat) (request : SessionRequest) : System :=
  match request.stage with
  | .verifying challenge =>
    system.advance index request (verifyAuthSession gateway request challenge) system.runtime
  | _ => system

def recordRequest (system : System) (index : Nat) (request : SessionRequest) : System :=
  match request.stage with
  | .charging =>
    (system.advance index request .unauthorized (recordFailure system.runtime request)).reads
      system.runtime (some (failureKey request.device.deviceId)) request.now
  | _ => system

/-- The connection of a request is closed. -/
def dropRequest (system : System) (index : Nat) (request : SessionRequest) : System :=
  match request.stage with
  | .waiting => system.advance index request (.dropped false) system.runtime
  | .verifying _ => system.advance index request (.dropped false) system.runtime
  | .charging => system.advance index request (.dropped true) system.runtime
  | _ => system

def act (system : System) : Action → System
  | .arrive device challengeId signature now =>
    { system with requests := system.requests ++
        [{ device := device
           challengeId := challengeId
           signatureDerBase64 := signature
           now := now
           stage := .waiting }] }
  | .begin index => system.step index (system.beginRequest index)
  | .verify index => system.step index (verifyRequest gateway system index)
  | .record index => system.step index (system.recordRequest index)
  | .drop index => system.step index (system.dropRequest index)
  | .challenge challengeId nonce deviceId now =>
    let key := (LimitKey.authChallenge deviceId).text
    let (answer, runtime) := checkRateLimit system.runtime key now 5 60000
    match answer with
    | .error _ => { system with runtime := runtime }.reads system.runtime (some key) now
    | .ok _ =>
      { system with runtime := (createAuthChallenge runtime challengeId nonce deviceId
          gateway.canonicalOrigin now).2 }.reads system.runtime (some key) now
  | .limit key now maxAttempts windowMs =>
    { system with runtime := (checkRateLimit system.runtime key.text now maxAttempts
        windowMs).2 }.reads system.runtime (some key.text) now
  | .prune now =>
    { system with runtime := pruneExpiredRuntimeState now system.runtime }.reads system.runtime
      none now
  | .other runtime =>
    { system with runtime := { runtime with rateLimits := system.runtime.rateLimits } }

/-- The gateway after some actions. -/
def run (system : System) (actions : List Action) : System := actions.foldl (act gateway) system

/-- A gateway that has served nothing, at a time. -/
def start (since : Int) : System :=
  { runtime :=
      { pairingOffers := ∅, pendingPairingRequests := ∅, authChallenges := ∅, sessions := ∅,
        websocketTickets := ∅, activeStatusStreams := ∅, rateLimits := ∅ }
    requests := []
    latest := fun _ => since }

end System

/-- The signature of the request was verified, and failed. -/
def Stage.hasFailed : Stage → Bool
  | .charging => true
  | .unauthorized => true
  | .dropped failed => failed
  | _ => false

/-- A time is in the window that begins with another. -/
def inWindow (start time : Int) : Bool := decide (start ≤ time ∧ time < start + failureWindowMs)

/-- The requests of a device whose clock is in a window and whose signature failed. -/
def System.failures (system : System) (deviceId : String) (start : Int) : Nat :=
  system.requests.countP fun request =>
    request.device.deviceId == deviceId && request.stage.hasFailed && inWindow start request.now

end Wardian.Remote
