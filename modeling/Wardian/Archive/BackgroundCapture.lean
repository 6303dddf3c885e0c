/-
The admission of background captures.

Requests of one session are kept in one entry, which counts them; a claim carries the request of its entry
and the count at which it was taken.  A claim that is finished settles what it carries and nothing later;
one that is dropped leaves a wish to try again.

Main results:

* `admit_cases`, `takePending_cases`, `finish_cases`, `dropClaim_cases` — what a call does;
* `Inv.run` — what holds after any calls.
-/

import Wardian.Lib.Counter
import Wardian.ProviderLog.Acquisition

set_option autoImplicit false

namespace Wardian.BackgroundCapture

open Table
open Option
open List
open ProviderLog (ProviderLogNativeIdentity)

/-! ### Requests -/

structure SourceObservation where
  path : String
  nativeIdentity : ProviderLogNativeIdentity
  length : Nat
  modified : Option Nat
  deriving DecidableEq

/-- A request; an incarnation is known by its address. -/
structure CaptureRequest where
  sessionId : String
  incarnation : Nat
  provider : String
  conversation : Option String
  sourcePath : Option String
  source : Option SourceObservation
  loggingEnabled : Bool
  deriving DecidableEq

def CaptureRequest.sameIdentity (self other : CaptureRequest) : Bool :=
  self.incarnation == other.incarnation && self.provider == other.provider &&
    self.conversation == other.conversation && self.sourcePath == other.sourcePath &&
    self.source.map (fun source => (source.path, source.nativeIdentity)) ==
      other.source.map fun source => (source.path, source.nativeIdentity)

def CaptureRequest.sameObservation (self other : CaptureRequest) : Bool :=
  self.source == other.source && self.loggingEnabled == other.loggingEnabled

inductive CaptureStop
  | more
  | observed (status : String) (reason : Option String)
  | disabled
  | retired
  deriving DecidableEq

/-! ### The coordinator -/

structure Entry where
  request : CaptureRequest
  epoch : Nat
  servicedEpoch : Nat
  claim : Option Nat
  retry : Bool
  awaitObservation : Bool
  deriving DecidableEq

structure Inner where
  entries : Table Entry
  nextClaim : Nat

def Inner.empty : Inner := ⟨∅, 0⟩

structure CaptureClaim where
  request : CaptureRequest
  epoch : Nat
  nonce : Nat
  deriving DecidableEq

def Entry.fresh (request : CaptureRequest) : Entry := ⟨request, 1, 0, none, false, false⟩

/-- The entry of a request that has come in, unless its count is used up. -/
def Entry.observe (entry : Entry) (request : CaptureRequest) (force : Bool) : Option Entry :=
  if entry.request.sameIdentity request then
    if force || !entry.request.sameObservation request then
      (checkedSucc entry.epoch).map fun epoch => { entry with epoch := epoch, request := request }
    else some entry
  else (checkedSucc entry.epoch).map fun epoch => { entry with epoch := epoch, request := request }

/-- A new claim on an entry. -/
def Inner.issue (inner : Inner) (sessionId : String) (entry : Entry) : Inner × Option CaptureClaim :=
  match checkedSucc inner.nextClaim with
  | none => (inner, none)
  | some nonce =>
    (⟨inner.entries.insert sessionId { entry with claim := some nonce }, nonce⟩,
      some ⟨entry.request, entry.epoch, nonce⟩)

/-- The method `admit`, whose name is a keyword here. -/
def admitCapture (inner : Inner) (request : CaptureRequest) (force : Bool) : Inner × Option CaptureClaim :=
  let observed := match inner.entries[request.sessionId]? with
    | some entry => entry.observe request force
    | none => some (Entry.fresh request)
  match observed with
  | none => (inner, none)
  | some entry =>
    let inner := { inner with entries := inner.entries.insert request.sessionId entry }
    if entry.claim.isSome || (!entry.retry && entry.servicedEpoch == entry.epoch) then (inner, none)
    else inner.issue request.sessionId { entry with retry := false }

def takePending (inner : Inner) (sessionId : String) : Inner × Option CaptureClaim :=
  match inner.entries[sessionId]? with
  | none => (inner, none)
  | some entry =>
    if entry.claim.isSome || entry.retry || entry.servicedEpoch == entry.epoch then (inner, none)
    else inner.issue sessionId entry

/-- Whether a finished capture waits for an observation. -/
def CaptureStop.awaits : CaptureStop → Bool
  | .disabled => true
  | .observed status _ => status != "complete" && status != "projection"
  | _ => false

/-- What a claim leaves of its entry when it is finished. -/
def Entry.finished (entry : Entry) (claim : CaptureClaim) (stop : CaptureStop) : Option Entry :=
  if stop = .retired then
    if entry.epoch = claim.epoch then none
    else some { entry with servicedEpoch := claim.epoch, claim := none }
  else
    let request := if stop = .disabled ∧ entry.epoch = claim.epoch then
        { entry.request with loggingEnabled := false }
      else entry.request
    some { entry with
      request := request
      awaitObservation := stop.awaits
      servicedEpoch := claim.epoch
      claim := none }

def finish (inner : Inner) (claim : CaptureClaim) (stop : CaptureStop) : Inner :=
  match inner.entries[claim.request.sessionId]? with
  | none => inner
  | some entry =>
    if entry.claim = some claim.nonce then
      match entry.finished claim stop with
      | none => { inner with entries := inner.entries.erase claim.request.sessionId }
      | some entry => { inner with entries := inner.entries.insert claim.request.sessionId entry }
    else inner

/-- What happens when a claim goes out of scope that was not finished. -/
def dropClaim (inner : Inner) (claim : CaptureClaim) : Inner :=
  match inner.entries[claim.request.sessionId]? with
  | none => inner
  | some entry =>
    if entry.claim = some claim.nonce then
      { inner with
        entries := inner.entries.insert claim.request.sessionId { entry with claim := none, retry := true } }
    else inner

def retained (sessions : List (String × Nat)) (sessionId : String) (entry : Entry) : Bool :=
  sessions.any fun agent => sessionId == agent.1 && agent.2 == entry.request.incarnation

def retainAgents (inner : Inner) (sessions : List (String × Nat)) : Inner :=
  { inner with entries := inner.entries.filter (retained sessions) }

/-! ### Calls in any order -/

/-- The coordinator and the claims that are neither finished nor dropped. -/
structure State where
  inner : Inner
  live : List CaptureClaim

def State.empty : State := ⟨Inner.empty, []⟩

inductive Call
  | admitCapture (request : CaptureRequest) (force : Bool)
  | takePending (sessionId : String)
  | finish (claim : CaptureClaim) (stop : CaptureStop)
  | drop (claim : CaptureClaim)
  | retainAgents (sessions : List (String × Nat))

/-- A claim that was handed out. -/
def State.handOut (s : State) (result : Inner × Option CaptureClaim) : State :=
  ⟨result.1, result.2.toList ++ s.live⟩

/-- One call; a claim is used up when it is finished or dropped. -/
def step (s : State) : Call → Option State
  | .admitCapture request force => some (s.handOut (admitCapture s.inner request force))
  | .takePending sessionId => some (s.handOut (takePending s.inner sessionId))
  | .finish claim stop =>
    if claim ∈ s.live then some ⟨finish s.inner claim stop, s.live.erase claim⟩ else none
  | .drop claim => if claim ∈ s.live then some ⟨dropClaim s.inner claim, s.live.erase claim⟩ else none
  | .retainAgents sessions => some { s with inner := retainAgents s.inner sessions }

def run (s : State) (calls : List Call) : Option State := calls.foldlM step s

/-! ### What a call does -/

/-- The entry under which a request is kept. -/
def Observed (inner : Inner) (request : CaptureRequest) (force : Bool) (entry : Entry) : Prop :=
  (∃ old, inner.entries[request.sessionId]? = some old ∧ old.observe request force = some entry) ∨
    (inner.entries[request.sessionId]? = none ∧ entry = Entry.fresh request)

/-- An entry that nobody owns and that is not settled. -/
structure Entry.Open (entry : Entry) : Prop where
  free : entry.claim = none
  wanted : entry.retry = true ∨ entry.servicedEpoch ≠ entry.epoch

/-- A claim that owns an entry. -/
structure Owns (s : State) (claim : CaptureClaim) (entry : Entry) : Prop where
  live : claim ∈ s.live
  found : s.inner.entries[claim.request.sessionId]? = some entry
  nonce : entry.claim = some claim.nonce

section Calls

variable {inner : Inner} {request : CaptureRequest} {force : Bool} {entry entry' : Entry}

/-- Whether a request says something new to an entry. -/
def Entry.News (entry : Entry) (request : CaptureRequest) (force : Bool) : Prop :=
  force = true ∨ entry.request.sameIdentity request = false ∨ entry.request.sameObservation request = false

theorem observe_of_news (h : entry.News request force) : entry.observe request force =
    (checkedSucc entry.epoch).map fun epoch => { entry with epoch := epoch, request := request } := by
  unfold Entry.observe
  split
  next hidn =>
    refine if_pos ?_
    rw [Bool.or_eq_true, Bool.not_eq_true']
    rcases h with h | h | h
    · exact .inl h
    · rw [hidn] at h
      cases h
    · exact .inr h
  next => rfl

theorem observe_of_not_news (h : ¬entry.News request force) : entry.observe request force = some entry := by
  unfold Entry.News at h
  rw [not_or, not_or, Bool.not_eq_true, Bool.not_eq_false, Bool.not_eq_false] at h
  unfold Entry.observe
  rw [if_pos h.2.1, h.1, h.2.2]
  rfl

theorem observe_eq_some (h : entry.observe request force = some entry') :
    entry' = entry ∨ (entry.epoch < u64Max ∧
      entry' = { entry with epoch := entry.epoch + 1, request := request }) := by
  by_cases hnews : entry.News request force
  · rw [observe_of_news hnews] at h
    obtain ⟨epoch, hepo, rfl⟩ := map_eq_some_iff.1 h
    obtain ⟨hlt, rfl⟩ := checkedSucc_eq_some.1 hepo
    exact .inr ⟨hlt, rfl⟩
  · rw [observe_of_not_news hnews] at h
    exact .inl (Option.some.inj h).symm

theorem observe_eq_none (h : entry.observe request force = none) : u64Max ≤ entry.epoch := by
  by_cases hnews : entry.News request force
  · rw [observe_of_news hnews, map_eq_none_iff] at h
    exact checkedSucc_eq_none.1 h
  · rw [observe_of_not_news hnews] at h
    cases h

/-- The lookups after an entry was put. -/
def Inner.Puts (inner inner' : Inner) (sessionId : String) (entry : Option Entry) : Prop :=
  ∀ k, inner'.entries[k]? = if sessionId = k then entry else inner.entries[k]?

/-- A claim is handed out. -/
structure Issues (inner : Inner) (sessionId : String) (entry : Entry)
    (result : Inner × Option CaptureClaim) : Prop where
  claim : result.2 = some ⟨entry.request, entry.epoch, inner.nextClaim + 1⟩
  next : result.1.nextClaim = inner.nextClaim + 1
  puts : inner.Puts result.1 sessionId
    (some { entry with retry := false, claim := some (inner.nextClaim + 1) })

theorem issue_cases (sessionId : String) (hretry : entry.retry = false) :
    (u64Max ≤ inner.nextClaim ∧ inner.issue sessionId entry = (inner, none)) ∨
      Issues inner sessionId entry (inner.issue sessionId entry) := by
  unfold Inner.issue
  cases hnonce : checkedSucc inner.nextClaim with
  | none => exact .inl ⟨checkedSucc_eq_none.1 hnonce, rfl⟩
  | some nonce =>
    obtain ⟨-, rfl⟩ := checkedSucc_eq_some.1 hnonce
    refine .inr ⟨rfl, rfl, fun k => ?_⟩
    rw [← hretry]
    exact lookup_insert ..

theorem open_iff : entry.Open ↔
    (entry.claim.isSome || (!entry.retry && entry.servicedEpoch == entry.epoch)) = false := by
  rw [Bool.or_eq_false_iff, Bool.and_eq_false_iff, Bool.not_eq_false', beq_eq_false_iff_ne,
    isSome_eq_false_iff, isNone_iff_eq_none]
  exact ⟨fun h => ⟨h.free, h.wanted⟩, fun h => ⟨h.1, h.2⟩⟩

theorem admit_of_observed (h : Observed inner request force entry) : admitCapture inner request force =
    if entry.claim.isSome || (!entry.retry && entry.servicedEpoch == entry.epoch) then
      ({ inner with entries := inner.entries.insert request.sessionId entry }, none)
    else Inner.issue { inner with entries := inner.entries.insert request.sessionId entry }
      request.sessionId { entry with retry := false } := by
  unfold admitCapture
  rcases h with ⟨old, hold, hobs⟩ | ⟨hnone, rfl⟩
  · rw [hold]
    dsimp only
    rw [hobs]
  · rw [hnone]

theorem admit_cases (inner : Inner) (request : CaptureRequest) (force : Bool) :
    ((∃ old, inner.entries[request.sessionId]? = some old ∧ u64Max ≤ old.epoch) ∧
        admitCapture inner request force = (inner, none)) ∨
      ∃ entry, Observed inner request force entry ∧
        (((¬entry.Open ∨ u64Max ≤ inner.nextClaim) ∧ (admitCapture inner request force).2 = none ∧
            (admitCapture inner request force).1.nextClaim = inner.nextClaim ∧
            inner.Puts (admitCapture inner request force).1 request.sessionId (some entry)) ∨
          (entry.Open ∧ Issues inner request.sessionId entry (admitCapture inner request force))) := by
  have hobsd : ∀ entry, Observed inner request force entry →
      ((¬entry.Open ∨ u64Max ≤ inner.nextClaim) ∧ (admitCapture inner request force).2 = none ∧
        (admitCapture inner request force).1.nextClaim = inner.nextClaim ∧
        inner.Puts (admitCapture inner request force).1 request.sessionId (some entry)) ∨
      (entry.Open ∧ Issues inner request.sessionId entry (admitCapture inner request force)) := by
    intro entry hent
    have hputs : ∀ k, (inner.entries.insert request.sessionId entry)[k]? =
        if request.sessionId = k then some entry else inner.entries[k]? :=
      fun k => lookup_insert ..
    rw [admit_of_observed hent]
    by_cases hopen : entry.Open
    · rw [open_iff.1 hopen, if_neg Bool.false_ne_true]
      rcases @issue_cases { inner with entries := inner.entries.insert request.sessionId entry }
        { entry with retry := false } request.sessionId rfl with ⟨hfull, hres⟩ | hiss
      · rw [hres]
        exact .inl ⟨.inr hfull, rfl, rfl, hputs⟩
      · refine .inr ⟨hopen, hiss.claim, hiss.next, fun k => ?_⟩
        rw [hiss.puts k, hputs k]
        split <;> rfl
    · rw [Bool.eq_true_of_not_eq_false fun h => hopen (open_iff.2 h), if_pos rfl]
      exact .inl ⟨.inl hopen, rfl, rfl, hputs⟩
  cases hold : inner.entries[request.sessionId]? with
  | none => exact .inr ⟨_, .inr ⟨hold, rfl⟩, hobsd _ (.inr ⟨hold, rfl⟩)⟩
  | some old =>
    cases hobs : old.observe request force with
    | some entry => exact .inr ⟨entry, .inl ⟨old, hold, hobs⟩, hobsd _ (.inl ⟨old, hold, hobs⟩)⟩
    | none =>
      refine .inl ⟨⟨old, rfl, observe_eq_none hobs⟩, ?_⟩
      unfold admitCapture
      rw [hold]
      dsimp only
      rw [hobs]

theorem takePending_cases (inner : Inner) (sessionId : String) :
    takePending inner sessionId = (inner, none) ∨
      ∃ entry, inner.entries[sessionId]? = some entry ∧ entry.claim = none ∧ entry.retry = false ∧
        Issues inner sessionId entry (takePending inner sessionId) := by
  unfold takePending
  cases hent : inner.entries[sessionId]? with
  | none => exact .inl rfl
  | some entry =>
    dsimp only
    split
    next => exact .inl rfl
    next hqui =>
      rw [Bool.or_eq_true, Bool.or_eq_true, not_or, not_or, Bool.not_eq_true, Bool.not_eq_true,
        isSome_eq_false_iff, isNone_iff_eq_none, beq_iff_eq] at hqui
      rcases @issue_cases inner entry sessionId hqui.1.2 with ⟨-, hres⟩ | hiss
      · exact .inl hres
      · exact .inr ⟨entry, rfl, hqui.1.1, hqui.1.2, hiss⟩

theorem finish_cases (inner : Inner) (claim : CaptureClaim) (stop : CaptureStop) :
    ((∀ entry, inner.entries[claim.request.sessionId]? = some entry → entry.claim ≠ some claim.nonce) ∧
        finish inner claim stop = inner) ∨
      ∃ entry, inner.entries[claim.request.sessionId]? = some entry ∧ entry.claim = some claim.nonce ∧
        (finish inner claim stop).nextClaim = inner.nextClaim ∧
        inner.Puts (finish inner claim stop) claim.request.sessionId (entry.finished claim stop) := by
  unfold finish
  cases hent : inner.entries[claim.request.sessionId]? with
  | none =>
    refine .inl ⟨fun entry h => ?_, rfl⟩
    cases h
  | some entry =>
    dsimp only
    split
    next howns =>
      refine .inr ⟨entry, rfl, howns, ?_⟩
      cases entry.finished claim stop with
      | none => exact ⟨rfl, fun k => lookup_erase ..⟩
      | some left => exact ⟨rfl, fun k => lookup_insert ..⟩
    next howns =>
      refine .inl ⟨fun other hoth => ?_, rfl⟩
      rwa [← Option.some.inj hoth]

theorem dropClaim_cases (inner : Inner) (claim : CaptureClaim) :
    ((∀ entry, inner.entries[claim.request.sessionId]? = some entry → entry.claim ≠ some claim.nonce) ∧
        dropClaim inner claim = inner) ∨
      ∃ entry, inner.entries[claim.request.sessionId]? = some entry ∧ entry.claim = some claim.nonce ∧
        (dropClaim inner claim).nextClaim = inner.nextClaim ∧
        inner.Puts (dropClaim inner claim) claim.request.sessionId
          (some { entry with claim := none, retry := true }) := by
  unfold dropClaim
  cases hent : inner.entries[claim.request.sessionId]? with
  | none =>
    refine .inl ⟨fun entry h => ?_, rfl⟩
    cases h
  | some entry =>
    dsimp only
    split
    next howns => exact .inr ⟨entry, rfl, howns, rfl, fun k => lookup_insert ..⟩
    next howns =>
      refine .inl ⟨fun other hoth => ?_, rfl⟩
      rwa [← Option.some.inj hoth]

theorem retainAgents_entries (inner : Inner) (sessions : List (String × Nat)) (k : String) :
    (retainAgents inner sessions).entries[k]? = inner.entries[k]?.filter (retained sessions k) := by
  exact Std.ExtTreeMap.getElem?_filter' ..

end Calls

/-! ### What holds after every call -/

/-- What holds of an entry. -/
structure EntryInv (live : List CaptureClaim) (k : String) (entry : Entry) : Prop where
  serviced : entry.servicedEpoch ≤ entry.epoch
  owner : ∀ n, entry.claim = some n →
    ∃ claim ∈ live, claim.nonce = n ∧ claim.request.sessionId = k ∧ claim.epoch ≤ entry.epoch
  quiet : entry.retry = true → entry.claim = none
  session : entry.request.sessionId = k

/-- What holds of the entries and of the claims that are out. -/
structure Inv (s : State) : Prop where
  nonces : ∀ claim ∈ s.live, claim.nonce ≤ s.inner.nextClaim
  distinct : ∀ claim ∈ s.live, ∀ other ∈ s.live, claim.nonce = other.nonce → claim = other
  entries : ∀ (k : String) (entry : Entry), s.inner.entries[k]? = some entry → EntryInv s.live k entry

variable {live : List CaptureClaim}

theorem EntryInv.mono {live' : List CaptureClaim} {k : String} {entry : Entry} (h : EntryInv live k entry)
    (hlive : ∀ claim ∈ live, claim.request.sessionId = k → entry.claim = some claim.nonce → claim ∈ live') :
    EntryInv live' k entry := by
  refine ⟨h.serviced, fun n hn => ?_, h.quiet, h.session⟩
  obtain ⟨claim, hclm, rfl, hses, hepo⟩ := h.owner n hn
  exact ⟨claim, hlive claim hclm hses hn, rfl, hses, hepo⟩

theorem observed_inv {inner : Inner} {request : CaptureRequest} {force : Bool}
    {entry : Entry} (hents : ∀ (k : String) (old : Entry), inner.entries[k]? = some old → EntryInv live k old)
    (h : Observed inner request force entry) : EntryInv live request.sessionId entry := by
  rcases h with ⟨old, hold, hobs⟩ | ⟨-, rfl⟩
  · have hinv := hents _ old hold
    rcases observe_eq_some hobs with rfl | ⟨-, rfl⟩
    · exact hinv
    · refine ⟨Nat.le_succ_of_le hinv.serviced, fun n hn => ?_, hinv.quiet, rfl⟩
      obtain ⟨claim, hclm, hnonce, hses, hepo⟩ := hinv.owner n hn
      exact ⟨claim, hclm, hnonce, hses, Nat.le_succ_of_le hepo⟩
  · refine ⟨Nat.zero_le _, fun n hn => ?_, fun hretry => ?_, rfl⟩
    · cases hn
    · cases hretry

namespace Inv

variable {s : State} {inner : Inner} {live : List CaptureClaim} {sessionId : String}

theorem empty : Inv State.empty := by
  constructor
  case nonces => intro claim h; cases h
  case distinct => intro claim h; cases h
  case entries =>
    intro k entry h
    have hnone : State.empty.inner.entries[k]? = none := lookup_empty k
    rw [hnone] at h
    cases h

variable {claim : CaptureClaim} {entry : Entry}

theorem epoch_le (h : Inv s) (howns : Owns s claim entry) : claim.epoch ≤ entry.epoch := by
  obtain ⟨other, hlive, hnonce, -, hepo⟩ := (h.entries _ entry howns.found).owner _ howns.nonce
  rwa [h.distinct other hlive claim howns.live hnonce] at hepo

/-- One entry is changed, and the claims of the others are left. -/
theorem change (h : Inv s) {entry : Option Entry} (hputs : s.inner.Puts inner sessionId entry)
    (hnonces : ∀ claim ∈ live, claim.nonce ≤ inner.nextClaim)
    (hdist : ∀ claim ∈ live, ∀ other ∈ live, claim.nonce = other.nonce → claim = other)
    (hkept : ∀ claim ∈ s.live, claim.request.sessionId ≠ sessionId → claim ∈ live)
    (hent : ∀ found, entry = some found → EntryInv live sessionId found) : Inv ⟨inner, live⟩ := by
  refine ⟨hnonces, hdist, fun k found hfnd => ?_⟩
  change inner.entries[k]? = some found at hfnd
  rw [hputs k] at hfnd
  split at hfnd
  next heq => exact heq ▸ hent found hfnd
  next hne =>
    refine (h.entries k found hfnd).mono fun claim hclm hses _ => hkept claim hclm ?_
    rw [hses]
    exact fun heq => hne heq.symm

theorem distinct_erase (h : Inv s) (claim : CaptureClaim) : ∀ first ∈ s.live.erase claim,
    ∀ second ∈ s.live.erase claim, first.nonce = second.nonce → first = second :=
  fun first hfst second hsec =>
    h.distinct first (mem_of_mem_erase hfst) second (mem_of_mem_erase hsec)

theorem erase (h : Inv s)
    (hnot : ∀ entry, s.inner.entries[claim.request.sessionId]? = some entry → entry.claim ≠ some claim.nonce) :
    Inv ⟨s.inner, s.live.erase claim⟩ := by
  refine ⟨fun other hoth => h.nonces other (mem_of_mem_erase hoth), h.distinct_erase claim,
    fun k found hfnd => (h.entries k found hfnd).mono fun other hoth hses hclm => ?_⟩
  refine (mem_erase_of_ne ?_).2 hoth
  rintro rfl
  rw [hses] at hnot
  exact hnot found hfnd hclm

theorem issue (h : Inv s) {result : Inner × Option CaptureClaim} (hent : EntryInv s.live sessionId entry)
    (hiss : Issues s.inner sessionId entry result) : Inv (s.handOut result) := by
  unfold State.handOut
  rw [hiss.claim]
  have hnext := hiss.next
  have hold : ∀ claim ∈ s.live, claim.nonce ≠ s.inner.nextClaim + 1 := by
    intro claim hclm heq
    have hle := h.nonces claim hclm
    omega
  refine h.change hiss.puts ?_ ?_ (fun claim hclm _ => mem_cons_of_mem _ hclm) ?_
  · intro claim hclm
    rw [hnext]
    rcases mem_cons.1 hclm with rfl | hclm
    · exact Nat.le_refl _
    · exact Nat.le_succ_of_le (h.nonces claim hclm)
  · intro first hfst second hsec heq
    rcases mem_cons.1 hfst with rfl | hfst
    · rcases mem_cons.1 hsec with rfl | hsec
      · rfl
      · exact absurd heq.symm (hold second hsec)
    · rcases mem_cons.1 hsec with rfl | hsec
      · exact absurd heq (hold first hfst)
      · exact h.distinct first hfst second hsec heq
  · intro found hfnd
    obtain rfl := Option.some.inj hfnd
    refine ⟨hent.serviced, fun n hn => ?_, fun hretry => ?_, hent.session⟩
    · obtain rfl := Option.some.inj hn
      exact ⟨_, mem_cons_self .., rfl, hent.session, Nat.le_refl _⟩
    · cases hretry

/-- A claim that owns its entry is given back, with nobody owning the entry. -/
theorem giveBack (h : Inv s) {entry : Option Entry} (hnext : inner.nextClaim = s.inner.nextClaim)
    (hputs : s.inner.Puts inner claim.request.sessionId entry)
    (hent : ∀ found, entry = some found → found.servicedEpoch ≤ found.epoch ∧ found.claim = none ∧
      found.request.sessionId = claim.request.sessionId) : Inv ⟨inner, s.live.erase claim⟩ := by
  refine h.change hputs ?_ (h.distinct_erase claim) ?_ ?_
  · intro other hoth
    rw [hnext]
    exact h.nonces other (mem_of_mem_erase hoth)
  · intro other hoth hne
    refine (mem_erase_of_ne ?_).2 hoth
    rintro rfl
    exact hne rfl
  · intro found hfnd
    obtain ⟨hserv, hclm, hses⟩ := hent found hfnd
    refine ⟨hserv, fun n hn => ?_, fun _ => hclm, hses⟩
    rw [hclm] at hn
    cases hn

theorem finished_left {stop : CaptureStop} {left : Entry}
    (h : entry.finished claim stop = some left) : left.epoch = entry.epoch ∧
      left.servicedEpoch = claim.epoch ∧ left.claim = none ∧ left.retry = entry.retry ∧
        left.request.sessionId = entry.request.sessionId := by
  unfold Entry.finished at h
  split at h
  · split at h
    · cases h
    · obtain rfl := Option.some.inj h
      exact ⟨rfl, rfl, rfl, rfl, rfl⟩
  · obtain rfl := Option.some.inj h
    refine ⟨rfl, rfl, rfl, rfl, ?_⟩
    dsimp only
    split <;> rfl

theorem step {s' : State} (h : Inv s) {call : Call} (hstep : BackgroundCapture.step s call = some s') :
    Inv s' := by
  cases call with
  | admitCapture request force =>
    obtain rfl := Option.some.inj hstep
    rcases admit_cases s.inner request force with ⟨-, hres⟩ | ⟨entry, hobsd, hcs⟩
    · rw [hres]
      exact h
    · have hent := observed_inv h.entries hobsd
      rcases hcs with ⟨-, hclm, hnext, hputs⟩ | ⟨-, hiss⟩
      · unfold State.handOut
        rw [hclm]
        refine h.change hputs ?_ h.distinct (fun claim hclm _ => hclm) ?_
        · rw [hnext]
          exact h.nonces
        · intro found hfnd
          rwa [← Option.some.inj hfnd]
      · exact h.issue hent hiss
  | takePending sessionId =>
    obtain rfl := Option.some.inj hstep
    rcases takePending_cases s.inner sessionId with hres | ⟨entry, hfnd, -, -, hiss⟩
    · rw [hres]
      exact h
    · exact h.issue (h.entries _ entry hfnd) hiss
  | finish claim stop =>
    rw [BackgroundCapture.step, ite_none_right_eq_some] at hstep
    obtain ⟨hlive, heq⟩ := hstep
    obtain rfl := Option.some.inj heq
    rcases finish_cases s.inner claim stop with ⟨hnot, hres⟩ | ⟨entry, hfnd, hnonce, hnext, hputs⟩
    · rw [hres]
      exact h.erase hnot
    · refine h.giveBack hnext hputs fun left hleft => ?_
      obtain ⟨hepo, hserv, hclm, -, hses⟩ := finished_left hleft
      refine ⟨?_, hclm, hses.trans (h.entries _ entry hfnd).session⟩
      rw [hepo, hserv]
      exact h.epoch_le ⟨hlive, hfnd, hnonce⟩
  | drop claim =>
    rw [BackgroundCapture.step, ite_none_right_eq_some] at hstep
    obtain ⟨hlive, heq⟩ := hstep
    obtain rfl := Option.some.inj heq
    rcases dropClaim_cases s.inner claim with ⟨hnot, hres⟩ | ⟨entry, hfnd, -, hnext, hputs⟩
    · rw [hres]
      exact h.erase hnot
    · refine h.giveBack hnext hputs fun left hleft => ?_
      obtain rfl := Option.some.inj hleft
      have hent := h.entries _ entry hfnd
      exact ⟨hent.serviced, rfl, hent.session⟩
  | retainAgents sessions =>
    obtain rfl := Option.some.inj hstep
    refine ⟨h.nonces, h.distinct, fun k found hfnd => ?_⟩
    change (retainAgents s.inner sessions).entries[k]? = some found at hfnd
    rw [retainAgents_entries, filter_eq_some_iff] at hfnd
    exact h.entries k found hfnd.1

theorem run {s' : State} (h : Inv s) {calls : List Call} (hrun : BackgroundCapture.run s calls = some s') :
    Inv s' := by
  induction calls generalizing s with
  | nil =>
    obtain rfl := Option.some.inj hrun
    exact h
  | cons call calls ih =>
    obtain ⟨middle, hstep, hrest⟩ := bind_eq_some_iff.1 hrun
    exact ih (h.step hstep) hrest

end Inv

end Wardian.BackgroundCapture
