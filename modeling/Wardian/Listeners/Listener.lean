/-
Automation listeners: what watches something and starts a run when it changes.

A listener is armed when the user has enabled it and the app has not disabled it.  The supervisor arms
all listeners anew when the fingerprint of their identifiers, armed states and triggers changes; the
runtime state of a listener, which every fire writes back, is not part of it.
-/

import Mathlib.Data.List.Sort
import Mathlib.Data.Nat.Digits.Defs
import Wardian.Lib.JsonShape
import Wardian.Lib.Records
import Wardian.Lib.Text

set_option autoImplicit false

namespace Wardian.Listeners

open JsonShape

/-! ### Triggers -/

def maxDebounceMs : Nat := 60000

def minPollIntervalSeconds : Nat := 30

def maxPollIntervalSeconds : Nat := 31536000

def maxWebhookMaxBodyBytes : Nat := 8 * 1024 * 1024

def maxPollMaxBodyBytes : Nat := 8 * 1024 * 1024

def maxPathSegmentLen : Nat := 64

inductive FileChangeKind
  | created
  | modified
  | removed
deriving DecidableEq

inductive WebhookAuth
  | token
  | hmacSha256
deriving DecidableEq

inductive PollMethod
  | get
  | head
deriving DecidableEq

inductive FingerprintSource
  | etagOrLastModified
  | bodyHash
  | jsonPointer
  | regex
deriving DecidableEq

structure FileWatchTrigger where
  path : String
  isRecursive : Bool
  patterns : List String
  ignore : List String
  events : List FileChangeKind
  debounceMs : Nat
deriving DecidableEq

structure WebhookTrigger where
  pathSegment : String
  auth : WebhookAuth
  signatureHeader : Option String
  maxBodyBytes : Nat
deriving DecidableEq

structure WebPollTrigger where
  url : String
  intervalSeconds : Nat
  method : PollMethod
  /-- In the order of the names. -/
  headers : List (String × String)
  fingerprint : FingerprintSource
  jsonPointer : Option String
  regex : Option String
  maxBodyBytes : Nat
deriving DecidableEq

inductive ListenerTrigger
  | fileWatch (trigger : FileWatchTrigger)
  | webhook (trigger : WebhookTrigger)
  | webPoll (trigger : WebPollTrigger)
deriving DecidableEq

/-! ### The JSON of a trigger -/

theorem isPlain_of_all {text : List Char} (h : text.all isPlain = true) : ∀ c ∈ text, isPlain c = true :=
  List.all_eq_true.1 h

/-- A word of plain characters. -/
def word (text : List Char) (h : text.all isPlain = true) : Tree :=
  .plain { text := text, plain := isPlain_of_all h }

theorem all_isPlain_toDigits (n : Nat) : (Nat.toDigits 10 n).all isPlain = true := by
  rw [List.all_eq_true]
  intro c hc
  have hdig := Nat.isDigit_of_mem_toDigits (by decide) (by decide) hc
  unfold Char.isDigit at hdig
  rw [Bool.and_eq_true, decide_eq_true_eq, decide_eq_true_eq] at hdig
  unfold isPlain
  simp only [Bool.or_eq_true, Bool.and_eq_true, decide_eq_true_eq]
  exact .inl (.inl (.inl (.inl (.inl hdig))))

def natural (n : Nat) : Tree := word (Nat.toDigits 10 n) (all_isPlain_toDigits n)

def boolean (b : Bool) : Tree :=
  if b then word "true".toList (by decide) else word "false".toList (by decide)

def text (s : String) : Tree := .string s.toList

def optional : Option String → Tree
  | none => word "null".toList (by decide)
  | some s => text s

def texts (strings : List String) : Tree := .array (strings.map text)

def member (name : String) (value : Tree) : List Char × Tree := (name.toList, value)

def FileChangeKind.name : FileChangeKind → String
  | created => "created"
  | modified => "modified"
  | removed => "removed"

def WebhookAuth.name : WebhookAuth → String
  | token => "token"
  | hmacSha256 => "hmac_sha256"

def PollMethod.name : PollMethod → String
  | get => "get"
  | head => "head"

def FingerprintSource.name : FingerprintSource → String
  | etagOrLastModified => "etag_or_last_modified"
  | bodyHash => "body_hash"
  | jsonPointer => "json_pointer"
  | regex => "regex"

def ListenerTrigger.members : ListenerTrigger → List (List Char × Tree)
  | fileWatch trigger =>
    [member "type" (text "file_watch"),
      member "path" (text trigger.path),
      member "recursive" (boolean trigger.isRecursive),
      member "patterns" (texts trigger.patterns),
      member "ignore" (texts trigger.ignore),
      member "events" (texts (trigger.events.map FileChangeKind.name)),
      member "debounce_ms" (natural trigger.debounceMs)]
  | webhook trigger =>
    [member "type" (text "webhook"),
      member "path_segment" (text trigger.pathSegment),
      member "auth" (text trigger.auth.name),
      member "signature_header" (optional trigger.signatureHeader),
      member "max_body_bytes" (natural trigger.maxBodyBytes)]
  | webPoll trigger =>
    [member "type" (text "web_poll"),
      member "url" (text trigger.url),
      member "interval_seconds" (natural trigger.intervalSeconds),
      member "method" (text trigger.method.name),
      member "headers" (.object (trigger.headers.map fun header => member header.1 (text header.2))),
      member "fingerprint" (text trigger.fingerprint.name),
      member "json_pointer" (optional trigger.jsonPointer),
      member "regex" (optional trigger.regex),
      member "max_body_bytes" (natural trigger.maxBodyBytes)]

/-- The text that `serde_json` writes. -/
def ListenerTrigger.json (trigger : ListenerTrigger) : List Char := (Tree.object trigger.members).text

/-! ### Listeners -/

structure ListenerRuntime where
  lastFireEpochMs : Option Nat
  fireCount : Nat
  recentFireEpochMs : List Nat
  disabledReason : Option String

structure AutomationListener where
  id : String
  blueprintId : String
  name : String
  enabled : Bool
  trigger : ListenerTrigger
  runtime : ListenerRuntime

def AutomationListener.shouldArm (listener : AutomationListener) : Bool :=
  listener.enabled && listener.runtime.disabledReason.isNone

/-! ### Validation -/

/-- What a listener is checked against: the file system, and the compilers of globs and regular
expressions. -/
structure Host where
  isAbsolute : String → Bool
  /-- The components of a path that exists, below the root. -/
  canonicalize : String → Except String (List String)
  display : List String → String
  userHome : Option (List String)
  wardianHome : Option (List String)
  globError : String → Option String
  regexError : String → Option String

def trimmed (s : String) : String := String.ofList (Text.trim s.toList)

def eqIgnoreAsciiCase (s t : String) : Bool :=
  Text.toAsciiLower s.toList == Text.toAsciiLower t.toList

def validateWatchRoot (host : Host) (path : String) : Except String (List String) := do
  let path := trimmed path
  if path.isEmpty then throw "file listeners require a watch path"
  if !host.isAbsolute path then throw ("watch path must be absolute: `" ++ path ++ "`")
  let canonical ← match host.canonicalize path with
    | .error error => throw ("watch path is not accessible: " ++ error)
    | .ok canonical => pure canonical
  if canonical.isEmpty then
    throw ("refusing to watch the filesystem root `" ++ host.display canonical ++ "`")
  if host.userHome == some canonical then
    throw "refusing to watch the entire user home directory"
  if host.wardianHome.any fun home => home.isPrefixOf canonical || canonical.isPrefixOf home then
    throw ("refusing to watch a path that contains or sits inside the Wardian home; automation runs "
      ++ "write there, so the listener would trigger itself")
  return canonical

namespace FileWatchTrigger

def validate (host : Host) (trigger : FileWatchTrigger) : Except String Unit := do
  let _ ← validateWatchRoot host trigger.path
  if maxDebounceMs < trigger.debounceMs then
    throw ("debounce_ms must be no greater than " ++ toString maxDebounceMs)
  for pattern in trigger.patterns ++ trigger.ignore do
    match host.globError pattern with
    | some error => throw ("invalid glob `" ++ pattern ++ "`: " ++ error)
    | none => pure ()

end FileWatchTrigger

def validatePathSegment (segment : String) : Except String Unit := do
  let segment := trimmed segment
  if segment.isEmpty then throw "webhook listeners require a path segment"
  if maxPathSegmentLen < segment.utf8ByteSize then
    throw ("webhook path segment must be at most " ++ toString maxPathSegmentLen ++ " characters")
  if !segment.toList.all fun c => Text.isAsciiAlphanumeric c || c == '-' || c == '_' then
    throw ("invalid webhook path segment `" ++ segment ++ "`; use letters, digits, `-`, and `_`")

namespace WebhookTrigger

def validate (trigger : WebhookTrigger) : Except String Unit := do
  validatePathSegment trigger.pathSegment
  if trigger.maxBodyBytes = 0 ∨ maxWebhookMaxBodyBytes < trigger.maxBodyBytes then
    throw ("max_body_bytes must be between 1 and " ++ toString maxWebhookMaxBodyBytes)
  if let some name := trigger.signatureHeader.map trimmed then
    if !name.isEmpty && !name.toList.all fun c => Text.isAsciiAlphanumeric c || c == '-' then
      throw ("invalid signature header name `" ++ name ++ "`")

end WebhookTrigger

namespace WebPollTrigger

def validateFingerprint (host : Host) (trigger : WebPollTrigger) : Except String Unit :=
  match trigger.fingerprint with
  | .jsonPointer =>
    match (trigger.jsonPointer.map trimmed).filter fun value => !value.isEmpty with
    | none => .error "json_pointer fingerprints require a pointer"
    | some pointer =>
      if pointer.toList.head? = some '/' then .ok ()
      else .error ("invalid json pointer `" ++ pointer ++
        "`; RFC 6901 pointers start with `/`")
  | .regex =>
    match (trigger.regex.map trimmed).filter fun value => !value.isEmpty with
    | none => .error "regex fingerprints require a pattern"
    | some pattern =>
      match host.regexError pattern with
      | some error => .error ("invalid regex `" ++ pattern ++ "`: " ++ error)
      | none => .ok ()
  | _ => .ok ()

def validate (host : Host) (trigger : WebPollTrigger) : Except String Unit := do
  let url := trimmed trigger.url
  if url.isEmpty then throw "web poll listeners require a url"
  if !("http://".toList.isPrefixOf url.toList || "https://".toList.isPrefixOf url.toList) then
    throw ("unsupported url scheme in `" ++ url ++ "`; expected http or https")
  if trigger.intervalSeconds < minPollIntervalSeconds then
    throw ("interval_seconds must be at least " ++ toString minPollIntervalSeconds)
  if maxPollIntervalSeconds < trigger.intervalSeconds then
    throw ("interval_seconds must be no greater than " ++ toString maxPollIntervalSeconds)
  if trigger.maxBodyBytes = 0 ∨ maxPollMaxBodyBytes < trigger.maxBodyBytes then
    throw ("max_body_bytes must be between 1 and " ++ toString maxPollMaxBodyBytes)
  trigger.validateFingerprint host
  if trigger.method = .head ∧ trigger.fingerprint ≠ .etagOrLastModified then
    throw ("HEAD requests return no body, so they only support the etag_or_last_modified " ++
      "fingerprint")
  for header in trigger.headers do
    if (trimmed header.1).isEmpty then throw "request header names must not be empty"
    if eqIgnoreAsciiCase header.1 "authorization" || eqIgnoreAsciiCase header.1 "cookie" then
      throw ("`" ++ header.1 ++
        "` is a credential; store it as a listener secret instead of in the listener config")

end WebPollTrigger

def validateListener (host : Host) (listener : AutomationListener) : Except String Unit :=
  if (trimmed listener.name).isEmpty then .error "listener name must not be empty"
  else if (trimmed listener.blueprintId).isEmpty then .error "listener blueprint must not be empty"
  else
    match listener.trigger with
    | .fileWatch trigger => trigger.validate host
    | .webhook trigger => trigger.validate
    | .webPoll trigger => trigger.validate host

/-! ### Fires -/

def rateCeilingFires : Nat := 20

def rateCeilingWindowMs : Nat := 60000

/-- What a fire writes, and whether it stays below the ceiling. -/
def recordFireWithinCeiling (runtime : ListenerRuntime) (now : Nat) : Bool × ListenerRuntime :=
  let recent := (runtime.recentFireEpochMs.filter fun time =>
    decide (now - rateCeilingWindowMs < time)) ++ [now]
  let runtime :=
    { runtime with
      recentFireEpochMs := recent
      fireCount := min (runtime.fireCount + 1) (2 ^ 64 - 1)
      lastFireEpochMs := some now }
  if rateCeilingFires < recent.length % 2 ^ 32 then
    (false, { runtime with disabledReason := some ("auto-disabled after " ++
      toString recent.length ++ " fires in " ++ toString (rateCeilingWindowMs / 1000) ++
      " seconds; check for a self-triggering watch path or an event flood") })
  else (true, runtime)

/-! ### The fingerprint -/

/-- What arming a listener depends on. -/
structure Arming where
  id : String
  shouldArm : Bool
  trigger : ListenerTrigger
deriving DecidableEq

def AutomationListener.arming (listener : AutomationListener) : Arming :=
  { id := listener.id, shouldArm := listener.shouldArm, trigger := listener.trigger }

/-- The byte of an armed state. -/
def armedChar (armed : Bool) : Char := if armed then Char.ofNat 1 else Char.ofNat 0

/-- What is hashed of a listener. -/
def Arming.record (arming : Arming) : Records.Record Char :=
  { key := arming.id.toList, mark := armedChar arming.shouldArm, body := arming.trigger.json }

def sortById (listeners : List AutomationListener) : List AutomationListener :=
  listeners.insertionSort fun left right => left.id ≤ right.id

/-- What is hashed of some listeners. -/
def armingRecords (listeners : List AutomationListener) : List (Records.Record Char) :=
  (sortById listeners).map fun listener => listener.arming.record

/-- The fingerprint, given the hash in hexadecimal digits. -/
def armingFingerprint (sha256Hex : List UInt8 → String) (listeners : List AutomationListener) :
    String :=
  sha256Hex (Utf8.encode (Records.textOf (armingRecords listeners)))

end Wardian.Listeners
