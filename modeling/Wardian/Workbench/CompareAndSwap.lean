/-
Saving the workbench is a compare-and-swap.

The durable state of a home is the revision and the token of what its slots resolve to.  A request
changes a slot only when it expects exactly that state; when its document reaches the primary the
revision goes up by one, and otherwise the durable state stays, even when the write stopped half
way.  So the durable state only moves forward, which is why the shortcuts for repeated requests are
sound: no expectation is met twice, and two requests that are answered `saved` for one target
revision are about one document.

A shortcut does not look at the expected revision of the request.  A request that proposes the very
document that is durable is answered `saved` whatever it was based on, as the sample run at the end
shows.

Main results:

* `Workbench.Does.comparesAndSwaps` — the effect of a request is a compare-and-swap;
* `Workbench.Run.compareAndSwap` — the compare-and-swap over whole runs.
-/

import Wardian.Workbench.Effects

set_option autoImplicit false

namespace Wardian.Workbench

open List

variable {serde : SerdeJson} {tokenFor : Bytes → String} {request : Request}
  {slots slots' : Slots} {document : WorkbenchDocumentV1}

/-! ### What was written is read back -/

theorem violations_of_valid (h : document.validate serde = []) :
    document.violations serde = [] ∧
      (serde.toVec document).length ≤ maxWorkbenchDocumentBytes := by
  unfold WorkbenchDocumentV1.validate at h
  dsimp only at h
  split at h
  · rename_i hviol
    refine ⟨hviol, ?_⟩
    unfold errorIf at h
    by_contra hlong
    simp [Nat.lt_of_not_le hlong] at h
  · exact absurd h ‹_›

theorem schemaVersion_of_valid (h : document.validate serde = []) :
    document.schemaVersion = workbenchSchemaVersion := by
  have hviol := (violations_of_valid h).1
  simp only [WorkbenchDocumentV1.violations, append_eq_nil_iff, and_assoc] at hviol
  have hschm := hviol.1
  unfold errorIf at hschm
  by_contra hne
  simp [hne] at hschm

/-- What was written is classified as a valid document of its revision. -/
theorem classifyBytes_toVec (tokenFor : Bytes → String) (hval : document.validate serde = [])
    (hrds : serde.ReadsBack document) : ∃ read, read.revision = document.revision ∧
      classifyBytes serde tokenFor (serde.toVec document) =
        .valid read (serde.toVec document) (tokenFor (serde.toVec document)) := by
  obtain ⟨read, hread, hreadValid⟩ := hrds.valid
  refine ⟨read, hrds.revision read hread, ?_⟩
  obtain ⟨value, hpar, hdoc⟩ := Option.bind_eq_some_iff.1 hread
  have hvers := hrds.schema value hpar
  have hlen := (violations_of_valid hval).2
  simp [classifyBytes, hrds.strict, hpar, hvers, Value.asU64, schemaVersion_of_valid hval,
    hdoc, hreadValid, Nat.not_lt.2 hlen]

variable {token : String}

theorem bytes_of_classifyBytes {bytes bytes' : Bytes}
    (h : classifyBytes serde tokenFor bytes = .valid document bytes' token) : bytes' = bytes := by
  unfold classifyBytes at h
  split at h
  · cases h
  · split at h
    · cases h
    · split at h
      · cases h
      · split at h
        · cases h
        · split at h
          · cases h
          · split at h
            · cases h
            · split at h
              · cases h
              · split at h
                · cases h
                · exact ((SlotState.valid.inj h).2.1).symm

/-! ### How the slots resolve -/

variable {source : WorkbenchLoadSource} {notice : Option String} {current : Option Bytes}

/-- Slots that resolve to a document have it in the primary, which is then the valid primary, or
they have no valid primary. -/
theorem resolve_v1 (h : slots.resolve serde tokenFor = .ok (.v1 source document token notice current)) :
    classifySlot serde tokenFor slots.backup ≠ .futureSchema ∧
      ((∃ bytes, slots.primary = some bytes ∧ current = some bytes ∧
          classifyBytes serde tokenFor bytes = .valid document bytes token) ∨
        (current = none ∧ ∀ document' bytes token',
          classifySlot serde tokenFor slots.primary ≠ .valid document' bytes token')) := by
  unfold Slots.resolve resolveSlots at h
  split at h
  · cases h
  · rename_i document' bytes token' hprim
    cases hslot : slots.primary with
    | none => rw [hslot] at hprim; cases hprim
    | some bytes' =>
      rw [hslot] at hprim
      obtain rfl := bytes_of_classifyBytes hprim
      split at h
      · cases h
      · rename_i hbkp
        cases h
        exact ⟨hbkp, .inl ⟨_, rfl, rfl, hprim⟩⟩
  all_goals
    rename_i hprim
    have hnotValid : ∀ document' bytes token',
        classifySlot serde tokenFor slots.primary ≠ .valid document' bytes token' := by
      intro _ _ _ hval
      rw [hprim] at hval
      cases hval
    split at h
    · cases h
    · rename_i hbkp
      cases h
      exact ⟨by rw [hbkp]; exact nofun, .inr ⟨rfl, hnotValid⟩⟩
    all_goals
      rename_i hbkp
      unfold resolveDefault at h
      split at h
      · cases h
        exact ⟨by rw [hbkp]; exact nofun, .inr ⟨rfl, hnotValid⟩⟩
      · cases h

/-- A valid primary is what the slots resolve to, unless the backup is of a newer schema. -/
theorem resolve_primary {bytes : Bytes} (hprim : slots.primary = some bytes)
    (hval : classifyBytes serde tokenFor bytes = .valid document bytes token)
    (hbkp : classifySlot serde tokenFor slots.backup ≠ .futureSchema) :
    slots.resolve serde tokenFor = .ok (.v1 .primary document token none (some bytes)) := by
  unfold Slots.resolve resolveSlots
  rw [hprim]
  simp only [classifySlot, hval]
  split
  · exact absurd ‹_› hbkp
  · rfl

theorem durable_of_resolve
    (h : slots.resolve serde tokenFor = .ok (.v1 source document token notice current)) :
    slots.durable serde tokenFor = some (document.revision, token) := by
  unfold Slots.durable
  rw [h]

section

variable (h : Admitted serde tokenFor request slots current document)
include h

theorem Admitted.durable_eq :
    slots.durable serde tokenFor = some (request.expectedRevision, request.expectedToken) := by
  obtain ⟨source, durable, notice, hresv, hrev⟩ := h.durable
  rw [durable_of_resolve hresv, hrev]

/-- The backup of an admitted write is readable: it is the old valid primary, or what it was. -/
theorem Admitted.backup_copied :
    classifySlot serde tokenFor (slots.copied current).backup ≠ .futureSchema := by
  obtain ⟨source, durable, notice, hresv, -⟩ := h.durable
  obtain ⟨hbkp, ⟨bytes, -, rfl, hval⟩ | ⟨rfl, -⟩⟩ := resolve_v1 hresv
  · change classifyBytes serde tokenFor bytes ≠ _
    rw [hval]
    exact nofun
  · exact hbkp

/-- Copying the valid primary to the backup leaves the durable state. -/
theorem Admitted.durable_copied :
    (slots.copied current).durable serde tokenFor = slots.durable serde tokenFor := by
  have hbkp := h.backup_copied
  obtain ⟨source, durable, notice, hresv, -⟩ := h.durable
  obtain ⟨-, ⟨bytes, hprim, rfl, hval⟩ | ⟨rfl, -⟩⟩ := resolve_v1 hresv
  · have hcpd : (slots.copied (some bytes)).primary = some bytes := hprim
    rw [durable_of_resolve hresv,
      durable_of_resolve (resolve_primary hcpd hval hbkp)]
  · rfl

theorem Admitted.durable_written (hrdbl : request.Readable serde) :
    (slots.written current (serde.toVec document)).durable serde tokenFor =
      some (request.expectedRevision + 1, tokenFor (serde.toVec document)) := by
  have hprim : (slots.written current (serde.toVec document)).primary =
      some (serde.toVec document) := rfl
  obtain ⟨read, hrev, hclas⟩ :=
    classifyBytes_toVec tokenFor h.valid (h.readable hrdbl)
  rw [durable_of_resolve (resolve_primary hprim hclas h.backup_copied), hrev, h.next]

/-- An admitted document is not the one that the primary holds, whose revision is another one. -/
theorem Admitted.primary_ne (hrdbl : request.Readable serde) :
    (slots.written current (serde.toVec document)).primary ≠ slots.primary := by
  intro hsame
  obtain ⟨read, hread, hclas⟩ := classifyBytes_toVec tokenFor h.valid (h.readable hrdbl)
  have hprim : slots.primary = some (serde.toVec document) := hsame.symm
  obtain ⟨source, durable, notice, hresv, hrev⟩ := h.durable
  obtain ⟨-, ⟨bytes, hbts, -, hval⟩ | ⟨-, hnotValid⟩⟩ := resolve_v1 hresv
  · rw [hprim] at hbts
    obtain rfl := Option.some.inj hbts
    rw [hclas] at hval
    obtain rfl := (SlotState.valid.inj hval).1
    have := h.next
    omega
  · refine hnotValid read (serde.toVec document) (tokenFor (serde.toVec document)) ?_
    rw [hprim]
    exact hclas

end

/-! ### One request -/

namespace Event

/-- The document of the request reached the primary. -/
def Writes (event : Event) : Prop :=
  (event.after.slots event.home).primary ≠ (event.before.slots event.home).primary

/-- The request was answered `saved`. -/
def Saved (event : Event) : Prop := ∃ result, event.answer = .ok result ∧ result.outcome = .saved

/-- The durable token that the answer names. -/
def durableToken (event : Event) : Option String :=
  match event.answer with
  | .ok result => result.durableToken
  | .error _ => none

variable (serde tokenFor)

/-- The durable state of the home before and after the request. -/
def durableBefore (event : Event) : Option (Nat × String) :=
  (event.before.slots event.home).durable serde tokenFor

def durableAfter (event : Event) : Option (Nat × String) :=
  (event.after.slots event.home).durable serde tokenFor

/-- The request compared and swapped. -/
structure ComparesAndSwaps (event : Event) : Prop where
  elsewhere : ∀ home, home ≠ event.home → event.after.slots home = event.before.slots home
  expected : event.after.slots event.home ≠ event.before.slots event.home →
    event.durableBefore serde tokenFor =
      some (event.request.expectedRevision, event.request.expectedToken)
  raises : event.Writes → ∃ token,
    event.durableAfter serde tokenFor = some (event.request.expectedRevision + 1, token)
  keeps : ¬event.Writes → event.durableAfter serde tokenFor = event.durableBefore serde tokenFor
  declined : (∀ result, event.answer = .ok result → result.outcome ≠ .saved) →
    (∀ text, event.answer ≠ .error (.persistIo text)) →
    event.after.slots event.home = event.before.slots event.home
  settled : ∀ result, event.answer = .ok result → result.outcome = .saved →
    event.request.Settled serde tokenFor result
  shown : ∀ result, event.answer = .ok result → result.outcome = .saved → ∃ token,
    result.durableToken = some token ∧
      event.durableAfter serde tokenFor = some (event.request.targetRevision, token)

end Event

variable {result : StoredResult}

theorem Request.Settled.durableRevision_eq (h : request.Settled serde tokenFor result) :
    result.durableRevision = some request.targetRevision := by
  cases request with
  | save request =>
    cases result with
    | save result => exact h.2.1
    | reset result => exact h.elim
  | reset request =>
    cases result with
    | save result => exact h.elim
    | reset result => exact h.2.1

theorem Request.Settled.outcome_eq (h : request.Settled serde tokenFor result) : result.outcome = .saved := by
  cases request with
  | save request =>
    cases result with
    | save result => exact h.1
    | reset result => exact h.elim
  | reset request =>
    cases result with
    | save result => exact h.elim
    | reset result => exact h.1

variable {event : Event}

/-- The effect of a request whose document can be read back is a compare-and-swap. -/
theorem Does.comparesAndSwaps
    (h : Does serde tokenFor event.home event.request event.before event.answer event.after)
    (hrdbl : event.request.Readable serde) : event.ComparesAndSwaps serde tokenFor := by
  obtain ⟨home, request, io, now, before, answer, after⟩ := event
  dsimp only at h hrdbl
  have helse := h.elsewhere
  have heff := h.effect
  -- A request that leaves the slots meets everything that is about a change.
  have hstay : after.slots home = before.slots home →
      (∀ result, answer = .ok result → result.outcome = .saved →
        request.Settled serde tokenFor result) →
      (∀ result, answer = .ok result → result.outcome = .saved →
        (before.slots home).Shows serde tokenFor result) →
      Event.ComparesAndSwaps serde tokenFor ⟨home, request, io, now, before, answer, after⟩ := by
    intro hslt hsetl hshw
    have hdrbl : (after.slots home).durable serde tokenFor =
        (before.slots home).durable serde tokenFor := by rw [hslt]
    refine ⟨helse, fun hne => absurd hslt hne, fun hwrts => ?_, fun _ => hdrbl,
      fun _ _ => hslt, hsetl, fun result hans hsvd => ?_⟩
    · exact absurd (congrArg Slots.primary hslt) hwrts
    · obtain ⟨document, token, notice, bytes, hresv, hrev, htok⟩ :=
        hshw result hans hsvd
      refine ⟨token, htok, ?_⟩
      have htgt := (hsetl result hans hsvd).durableRevision_eq
      have heq : document.revision = request.targetRevision :=
        Option.some.inj (hrev.symm.trans htgt)
      change (after.slots home).durable serde tokenFor = _
      rw [hdrbl, durable_of_resolve hresv, heq]
  have herr : ∀ e result, (Except.error e : Except WorkbenchIoError StoredResult) ≠
      .ok result := fun _ _ => nofun
  generalize haft : after.slots home = slotsAfter at heff
  cases heff with
  | failed e he =>
    exact hstay haft (fun result h => absurd h (herr _ _)) fun result h =>
      absurd h (herr _ _)
  | declined result hres =>
    refine hstay haft (fun result' h hsvd => ?_) fun result' h hsvd => ?_
    · obtain rfl := Except.ok.inj h
      exact absurd hsvd hres
    · obtain rfl := Except.ok.inj h
      exact absurd hsvd hres
  | settled result hsetl hshw =>
    refine hstay haft (fun result' h _ => ?_) fun result' h _ => ?_
    · obtain rfl := Except.ok.inj h
      exact hsetl
    · obtain rfl := Except.ok.inj h
      exact hshw
  | @interrupted text current document slots' hadm hslt =>
    have hbef := hadm.durable_eq
    refine ⟨helse, fun _ => hbef, fun hwrts => ?_, fun hkeeps => ?_,
      fun _ hne => absurd rfl (hne text), fun result h => absurd h (herr _ _),
      fun result h => absurd h (herr _ _)⟩
    · unfold Event.Writes at hwrts
      dsimp only at hwrts
      rw [haft] at hwrts
      rcases hslt with rfl | rfl | rfl
      · exact absurd rfl hwrts
      · exact absurd rfl hwrts
      · refine ⟨tokenFor (serde.toVec document), ?_⟩
        unfold Event.durableAfter
        dsimp only
        rw [haft]
        exact hadm.durable_written hrdbl
    · unfold Event.Writes at hkeeps
      unfold Event.durableAfter Event.durableBefore
      dsimp only at hkeeps ⊢
      rw [haft] at hkeeps ⊢
      rcases hslt with rfl | rfl | rfl
      · rfl
      · exact hadm.durable_copied
      · exact absurd (hadm.primary_ne hrdbl) hkeeps
  | @wrote result current document hadm hsetl htok =>
    have hdrbl : (after.slots home).durable serde tokenFor =
        some (request.expectedRevision + 1, tokenFor (serde.toVec document)) := by
      rw [haft]
      exact hadm.durable_written hrdbl
    refine ⟨helse, fun _ => hadm.durable_eq, fun _ => ⟨_, hdrbl⟩, fun hkeeps => ?_,
      fun hunsa _ => ?_, fun result' h _ => ?_, fun result' h _ => ?_⟩
    · refine absurd ?_ hkeeps
      unfold Event.Writes
      dsimp only
      rw [haft]
      exact hadm.primary_ne hrdbl
    · exact absurd hsetl.outcome_eq (hunsa result rfl)
    · obtain rfl := Except.ok.inj h
      exact hsetl
    · obtain rfl := Except.ok.inj h
      have htgt : request.expectedRevision + 1 = request.targetRevision := by
        rw [← hadm.next, hadm.target]
      exact ⟨_, htok, htgt ▸ hdrbl⟩

/-! ### Runs -/

/-- One durable state comes after another: the revision went up, or nothing changed. -/
def Onward (earlier later : Nat × String) : Prop := earlier.1 < later.1 ∨ earlier = later

theorem Onward.trans {a b c : Nat × String} (hab : Onward a b) (hbc : Onward b c) : Onward a c := by
  rcases hab with hab | rfl
  · rcases hbc with hbc | rfl
    · exact .inl (Nat.lt_trans hab hbc)
    · exact .inl hab
  · exact hbc

variable {durable : Nat × String}

theorem Event.ComparesAndSwaps.onward (h : event.ComparesAndSwaps serde tokenFor) {home : String}
    (hbef : (event.before.slots home).durable serde tokenFor = some durable) :
    ∃ durable', (event.after.slots home).durable serde tokenFor = some durable' ∧
      Onward durable durable' := by
  by_cases hhome : home = event.home
  · subst hhome
    by_cases hwrts : event.Writes
    · obtain ⟨token, haft⟩ := h.raises hwrts
      have hexpd := h.expected fun hsame => hwrts (congrArg Slots.primary hsame)
      have hdrbl : some durable =
          some (event.request.expectedRevision, event.request.expectedToken) :=
        hbef.symm.trans hexpd
      obtain rfl := Option.some.inj hdrbl
      exact ⟨_, haft, .inl (Nat.lt_succ_self _)⟩
    · have haft := h.keeps hwrts
      exact ⟨durable, haft.trans hbef, .inr rfl⟩
  · exact ⟨durable, by rw [h.elsewhere home hhome, hbef], .inr rfl⟩

variable {events : List Event}

/-- Every request of a run compares and swaps, whatever honest ledgers the run starts with. -/
theorem Run.each {world world' : World}
    (hrun : Run serde tokenFor world events world') (hldgs : world.ledgers.Honest)
    (hrdbl : ∀ event ∈ events, event.request.Readable serde) :
    ∀ event ∈ events, event.ComparesAndSwaps serde tokenFor := by
  induction hrun with
  | nil world => exact fun event h => absurd h (not_mem_nil)
  | restart hrun ih => exact ih honest_empty hrdbl
  | serve home request io now answer hserve hrun ih =>
    have hdoes := effect_serve hldgs hserve
    intro event hevent
    rcases mem_cons.1 hevent with rfl | hltr
    · exact Does.comparesAndSwaps hdoes (hrdbl _ (mem_cons_self ..))
    · exact ih hdoes.honest (fun e he => hrdbl e (mem_cons_of_mem _ he)) event hltr

/-- The durable state that a run starts from is behind that of every later request. -/
theorem Run.onward {world world' : World} (hrun : Run serde tokenFor world events world')
    (heach : ∀ event ∈ events, event.ComparesAndSwaps serde tokenFor) {home : String}
    (hstart : (world.slots home).durable serde tokenFor = some durable) :
    ∀ event ∈ events, event.home = home →
      ∃ durable', event.durableBefore serde tokenFor = some durable' ∧
        Onward durable durable' := by
  induction hrun generalizing durable with
  | nil world => exact fun event h => absurd h (not_mem_nil)
  | restart hrun ih => exact ih heach hstart
  | serve home' request io now answer hserve hrun ih =>
    intro event hevent hhome
    rcases mem_cons.1 hevent with rfl | hltr
    · exact ⟨durable, by rw [← hhome] at hstart; exact hstart, .inr rfl⟩
    · obtain ⟨next, hnext, honward⟩ := (heach _ (mem_cons_self ..)).onward hstart
      obtain ⟨later, hbef, hltr'⟩ :=
        ih (fun e he => heach e (mem_cons_of_mem _ he)) hnext event hltr hhome
      exact ⟨later, hbef, honward.trans hltr'⟩

/-- No expectation is met twice, and one target revision stands for one document. -/
structure Event.Excludes (earlier later : Event) : Prop where
  writes : earlier.request.expectedRevision = later.request.expectedRevision →
    earlier.Writes → ¬later.Writes
  saved : earlier.request.targetRevision = later.request.targetRevision →
    earlier.Saved → later.Saved → earlier.durableToken = later.durableToken

theorem Event.excludes_of_onward {earlier later : Event} (hearl : earlier.ComparesAndSwaps serde tokenFor)
    (hltr : later.ComparesAndSwaps serde tokenFor)
    (honward : ∀ durable, earlier.durableAfter serde tokenFor = some durable →
      ∃ durable', later.durableBefore serde tokenFor = some durable' ∧ Onward durable durable') :
    earlier.Excludes later := by
  refine ⟨fun hrev hwrts hwrts' => ?_, fun htgt hsvd hsvd' => ?_⟩
  · obtain ⟨token, haft⟩ := hearl.raises hwrts
    obtain ⟨durable, hbef, hdrbl⟩ := honward _ haft
    have hexpd := hltr.expected fun hsame => hwrts' (congrArg Slots.primary hsame)
    obtain rfl := Option.some.inj (hbef.symm.trans hexpd)
    rcases hdrbl with hlt | heq
    · dsimp only at hlt
      omega
    · have := congrArg Prod.fst heq
      dsimp only at this
      omega
  · obtain ⟨result, hans, hout⟩ := hsvd
    obtain ⟨result', hans', hout'⟩ := hsvd'
    obtain ⟨token, htok, haft⟩ := hearl.shown result hans hout
    obtain ⟨token', htok', haft'⟩ := hltr.shown result' hans' hout'
    obtain ⟨durable, hbef, hdrbl⟩ := honward _ haft
    obtain ⟨durable', haft'', hdrbl'⟩ := hltr.onward hbef
    obtain rfl := Option.some.inj (haft'.symm.trans haft'')
    -- The revision did not move between the two answers, so neither did the token.
    have hsame : token = token' := by
      rcases hdrbl.trans hdrbl' with hlt | heq
      · dsimp only at hlt
        omega
      · exact congrArg Prod.snd heq
    unfold Event.durableToken
    rw [hans, hans']
    dsimp only
    rw [htok, htok', hsame]

/-- In every run from empty ledgers, with documents that are read back as valid ones of their revision,
every request compares and swaps: it changes a slot only when
it expects the durable revision and token, its document reaches the primary only by raising the
revision by one, and an answer other than `saved`, or an error before the write, leaves both slots.
On one home no two requests that expect the same revision both write, so a request that is repeated
never writes again; and two requests that are both answered `saved` for one target revision name the
same durable document. -/
theorem Run.compareAndSwap {slots : String → Slots} {world : World}
    {events : List Event} (hrun : Run serde tokenFor ⟨slots, .empty⟩ events world)
    (hrdbl : ∀ event ∈ events, event.request.Readable serde) :
    (∀ event ∈ events, event.ComparesAndSwaps serde tokenFor) ∧
      events.Pairwise fun earlier later => earlier.home = later.home → earlier.Excludes later := by
  have heach := hrun.each honest_empty hrdbl
  refine ⟨heach, ?_⟩
  clear hrdbl
  -- The induction is on the run; what a request leaves behind is where the rest of the run starts.
  generalize (⟨slots, .empty⟩ : World) = start at hrun
  induction hrun with
  | nil world => exact .nil
  | restart hrun ih => exact ih heach
  | serve home request io now answer hserve hrun ih =>
    have hltr := fun e he => heach e (mem_cons_of_mem _ he)
    refine .cons (fun event hevent hhome => ?_) (ih hltr)
    exact Event.excludes_of_onward (heach _ (mem_cons_self ..)) (hltr event hevent)
      fun durable haft => hrun.onward hltr haft event hevent hhome.symm

/-! ### A sample run -/

/-- The width of a sidebar. -/
inductive SampleWidth
  | whole
  | written
  | read

namespace SampleWidth

def value : SampleWidth → F64
  | whole => .finite 240
  | written => .finite (8839880167970733 / 2 ^ 56)
  | read => .finite (2209970041992683 / 2 ^ 54)

/-- `240.0`, `0.12267798121760505` and `0.12267798121760504`. -/
def text : SampleWidth → Bytes
  | whole => [50, 52, 48, 46, 48]
  | written => [48, 46, 49, 50, 50, 54, 55, 55, 57, 56, 49, 50, 49, 55, 54, 48, 53, 48, 53]
  | read => [48, 46, 49, 50, 50, 54, 55, 55, 57, 56, 49, 50, 49, 55, 54, 48, 53, 48, 52]

/-- What `serde_json` reads for the text. -/
def number : SampleWidth → Number
  | whole => .float "240.0" true
  | written | read => .float "0.12267798121760504" true

end SampleWidth

/-- A document, with the hash of its text. -/
structure Sample where
  revision : Nat
  width : SampleWidth
  token : String

namespace Sample

/-- The default document with another revision, and perhaps another width. -/
def layout (sample : Sample) : WorkbenchDocumentV1 :=
  { defaultDocument with
    revision := sample.revision
    shell := { defaultDocument.shell with leftSidebarWidth := sample.width.value } }

/-- The JSON text of the document, with one digit for the revision:

  {"schema_version":1,"revision":R,"saved_at":"1970-01-01T00:00:00.000Z","root":{"kind":"group",
  "group_id":"group-1"},"groups":{"group-1":{"group_id":"group-1","surface_ids":[],
  "active_surface_id":null}},"surfaces":{},"active_group_id":"group-1","recently_closed":[],
  "shell":{"left_sidebar_collapsed":false,"left_sidebar_width":W,"right_sidebar_collapsed":false,
  "right_sidebar_width":240.0,"bottom_terminal_open":false,"bottom_terminal_height":360.0}} -/
def text (sample : Sample) : Bytes :=
  [123, 34, 115, 99, 104, 101, 109, 97, 95, 118, 101, 114, 115, 105, 111, 110, 34, 58, 49, 44, 34,
   114, 101, 118, 105, 115, 105, 111, 110, 34, 58] ++
  [48 + sample.revision.toUInt8] ++
  [44, 34, 115, 97, 118, 101, 100, 95, 97, 116, 34, 58, 34, 49, 57, 55, 48, 45, 48, 49, 45, 48, 49,
   84, 48, 48, 58, 48, 48, 58, 48, 48, 46, 48, 48, 48, 90, 34, 44, 34, 114, 111, 111, 116, 34, 58,
   123, 34, 107, 105, 110, 100, 34, 58, 34, 103, 114, 111, 117, 112, 34, 44, 34, 103, 114, 111, 117,
   112, 95, 105, 100, 34, 58, 34, 103, 114, 111, 117, 112, 45, 49, 34, 125, 44, 34, 103, 114, 111,
   117, 112, 115, 34, 58, 123, 34, 103, 114, 111, 117, 112, 45, 49, 34, 58, 123, 34, 103, 114, 111,
   117, 112, 95, 105, 100, 34, 58, 34, 103, 114, 111, 117, 112, 45, 49, 34, 44, 34, 115, 117, 114,
   102, 97, 99, 101, 95, 105, 100, 115, 34, 58, 91, 93, 44, 34, 97, 99, 116, 105, 118, 101, 95, 115,
   117, 114, 102, 97, 99, 101, 95, 105, 100, 34, 58, 110, 117, 108, 108, 125, 125, 44, 34, 115, 117,
   114, 102, 97, 99, 101, 115, 34, 58, 123, 125, 44, 34, 97, 99, 116, 105, 118, 101, 95, 103, 114,
   111, 117, 112, 95, 105, 100, 34, 58, 34, 103, 114, 111, 117, 112, 45, 49, 34, 44, 34, 114, 101,
   99, 101, 110, 116, 108, 121, 95, 99, 108, 111, 115, 101, 100, 34, 58, 91, 93, 44, 34, 115, 104,
   101, 108, 108, 34, 58, 123, 34, 108, 101, 102, 116, 95, 115, 105, 100, 101, 98, 97, 114, 95, 99,
   111, 108, 108, 97, 112, 115, 101, 100, 34, 58, 102, 97, 108, 115, 101, 44, 34, 108, 101, 102,
   116, 95, 115, 105, 100, 101, 98, 97, 114, 95, 119, 105, 100, 116, 104, 34, 58] ++ sample.width.text ++
  [44, 34, 114, 105, 103, 104, 116, 95, 115, 105, 100, 101, 98, 97, 114, 95, 99, 111, 108, 108, 97,
   112, 115, 101, 100, 34, 58, 102, 97, 108, 115, 101, 44, 34, 114, 105, 103, 104, 116, 95, 115,
   105, 100, 101, 98, 97, 114, 95, 119, 105, 100, 116, 104, 34, 58, 50, 52, 48, 46, 48, 44, 34, 98,
   111, 116, 116, 111, 109, 95, 116, 101, 114, 109, 105, 110, 97, 108, 95, 111, 112, 101, 110, 34,
   58, 102, 97, 108, 115, 101, 44, 34, 98, 111, 116, 116, 111, 109, 95, 116, 101, 114, 109, 105,
   110, 97, 108, 95, 104, 101, 105, 103, 104, 116, 34, 58, 51, 54, 48, 46, 48, 125, 125]

/-- The value that the text is read as. -/
def value (sample : Sample) : Value :=
  .object [("schema_version", .number (.posInt 1)), ("revision", .number (.posInt sample.revision)),
    ("saved_at", .string "1970-01-01T00:00:00.000Z"),
    ("root", .object [("kind", .string "group"), ("group_id", .string "group-1")]),
    ("groups", .object [("group-1", .object [("group_id", .string "group-1"),
      ("surface_ids", .array []), ("active_surface_id", .null)])]),
    ("surfaces", .object []), ("active_group_id", .string "group-1"),
    ("recently_closed", .array []),
    ("shell", .object [("left_sidebar_collapsed", .bool false),
      ("left_sidebar_width", .number sample.width.number),
      ("right_sidebar_collapsed", .bool false),
      ("right_sidebar_width", .number (.float "240.0" true)),
      ("bottom_terminal_open", .bool false),
      ("bottom_terminal_height", .number (.float "360.0" true))])]

def first : Sample :=
  ⟨0, .whole, "07225eceb5aba72865297a4476f0db0be86c261c2b0922f8b6b3203db2f57fa5"⟩

/-- A successor of the first, with a width that is read as its neighbour. -/
def precise : Sample :=
  ⟨1, .written, "3a4dd4a914386201c636929be500aab92fef7241afd561a456ca1dbb64541499"⟩

def rounded : Sample :=
  ⟨1, .read, "d423b9102fbc4a7e526a352424bf9a60a0974026ccc588e1732e34aa0bed3985"⟩

def last : Sample :=
  ⟨2, .whole, "2c15505beb20c6c05d0e2bbc62a4c27ba698aa05d8c4a0313b4700070bed6605"⟩

/-- The documents that the writer and the reader know. -/
def known : List Sample := [first, rounded, precise, last]

end Sample

/-- A writer and a reader that know these documents; what they write of another one is longer than a
document may be. -/
def sampleSerde : SerdeJson where
  toVec document :=
    match Sample.known.find? fun sample => document = sample.layout with
    | some sample => sample.text
    | none => replicate (maxWorkbenchDocumentBytes + 1) 0
  valueToVec _ := []
  parse bytes := (Sample.known.find? fun sample => bytes = sample.text).map Sample.value
  fromValue value := (Sample.known.find? fun sample => value = sample.value).map Sample.layout

def sampleToken (bytes : Bytes) : String :=
  match Sample.known.find? fun sample => bytes = sample.text with
  | some sample => sample.token
  | none => ""

/-- A valid document is one of those that the sample writer knows. -/
theorem sampleSerde_known (h : document.validate sampleSerde = []) :
    ∃ sample ∈ Sample.known, document = sample.layout := by
  have hlen := (violations_of_valid h).2
  unfold sampleSerde at hlen
  dsimp only at hlen
  split at hlen
  · rename_i sample hfind
    exact ⟨sample, mem_of_find?_eq_some hfind, by simpa using find?_some hfind⟩
  · rw [length_replicate] at hlen
    omega

theorem sampleSerde_readsBack (h : document.validate sampleSerde = []) : sampleSerde.ReadsBack document := by
  have hkn : ∀ sample ∈ Sample.known,
      strictJsonPreflight sampleSerde (sampleSerde.toVec sample.layout) = true ∧
        sampleSerde.parse (sampleSerde.toVec sample.layout) = some sample.value ∧
        ∃ other ∈ Sample.known, sampleSerde.fromValue sample.value = some other.layout ∧
          other.layout.validate sampleSerde = [] ∧
          other.layout.revision = sample.layout.revision := by
    decide +kernel
  obtain ⟨sample, hmem, rfl⟩ := sampleSerde_known h
  obtain ⟨hstrict, hpar, other, -, hdoc, hval, hrev⟩ := hkn sample hmem
  have hrds : sampleSerde.reads sample.layout = some other.layout := by
    rw [SerdeJson.reads, hpar, Option.bind_some, hdoc]
  refine ⟨⟨fun value hvl => ?_, fun read hread => ?_⟩, hstrict, other.layout, hrds, hval⟩
  · obtain rfl := Option.some.inj (hpar.symm.trans hvl)
    rfl
  · obtain rfl := Option.some.inj (hrds.symm.trans hread)
    exact hrev

/-- Serve requests of one home in order, with nothing failing. -/
def serveAll (world : World) : List Request → List Event
  | [] => []
  | request :: requests =>
    let (answer, world') := serve sampleSerde sampleToken .fine "" "home" request world
    ⟨"home", request, .fine, "", world, answer, world'⟩ :: serveAll world' requests

theorem run_serveAll (world : World) (requests : List Request) :
    ∃ world', Run sampleSerde sampleToken world (serveAll world requests) world' := by
  induction requests generalizing world with
  | nil => exact ⟨world, .nil world⟩
  | cons request requests ih =>
    obtain ⟨world', hrun⟩ :=
      ih (serve sampleSerde sampleToken .fine "" "home" request world).2
    exact ⟨world', .serve "home" request .fine "" _ rfl hrun⟩

/-- A save of one sample over another. -/
def Sample.saveOver (sample expected : Sample) (id : String) : WorkbenchSaveRequest :=
  ⟨sample.layout, expected.revision, expected.token, id⟩

/-- Two clients save in turn; then the first document's expectation comes again with the document
that is durable by now. -/
def sampleRequests : List Request :=
  [.save (Sample.precise.saveOver .first "a"), .save (Sample.last.saveOver .precise "b"),
    .save (Sample.last.saveOver .first "c")]

@[irreducible] def sampleEvents : List Event :=
  serveAll ⟨fun _ => ⟨none, none⟩, .empty⟩ sampleRequests

theorem run_sampleEvents :
    ∃ world, Run sampleSerde sampleToken ⟨fun _ => ⟨none, none⟩, .empty⟩ sampleEvents world := by
  unfold sampleEvents
  exact run_serveAll _ _

/-- The request of an event, and whether it was answered `saved`. -/
def Event.summary (event : Event) : Request × Bool :=
  (event.request, match event.answer with
    | .ok result => decide (result.outcome = .saved)
    | .error _ => false)

theorem summary_sampleEvents :
    sampleEvents.map Event.summary = sampleRequests.map fun request => (request, true) := by
  unfold sampleEvents
  decide +kernel

theorem Event.saved_of_summary
    (h : event.summary = (request, true)) : event.request = request ∧ event.Saved := by
  unfold Event.summary at h
  obtain ⟨hreq, hout⟩ := Prod.mk.inj h
  refine ⟨hreq, ?_⟩
  split at hout
  · exact ⟨_, ‹_›, of_decide_eq_true hout⟩
  · cases hout

theorem readable_sampleEvents : ∀ event ∈ sampleEvents, event.request.Readable sampleSerde := by
  intro event _
  unfold Request.Readable
  exact fun _ => sampleSerde_readsBack

/-- Two saves of different documents that expect one revision, and the same token, are both answered
`saved`: the second proposes the document that a third one made durable. -/
theorem saved_on_old_expectation :
    (∀ event ∈ sampleEvents, event.request.Readable sampleSerde) ∧
      ∃ world, Run sampleSerde sampleToken ⟨fun _ => ⟨none, none⟩, .empty⟩ sampleEvents world ∧
        ∃ earlier ∈ sampleEvents, ∃ later ∈ sampleEvents, ∃ save save' : WorkbenchSaveRequest,
          earlier.request = .save save ∧ later.request = .save save' ∧
            save.expectedRevision = save'.expectedRevision ∧
            save.expectedToken = save'.expectedToken ∧ save.document ≠ save'.document ∧
            earlier.Saved ∧ later.Saved := by
  obtain ⟨world, hrun⟩ := run_sampleEvents
  refine ⟨readable_sampleEvents, world, hrun, ?_⟩
  have hsumm := summary_sampleEvents
  simp only [sampleRequests, map_cons, map_nil] at hsumm
  obtain ⟨earlier, rest, hevs, hearl, hrest⟩ := map_eq_cons_iff.1 hsumm
  obtain ⟨between, rest', rfl, -, hrest'⟩ := map_eq_cons_iff.1 hrest
  obtain ⟨later, rest'', rfl, hltr, -⟩ := map_eq_cons_iff.1 hrest'
  obtain ⟨hearlierRequest, hearlierSaved⟩ := Event.saved_of_summary hearl
  obtain ⟨hlaterRequest, hlaterSaved⟩ := Event.saved_of_summary hltr
  refine ⟨earlier, ?_, later, ?_, _, _, hearlierRequest, hlaterRequest, rfl, rfl, ?_,
    hearlierSaved, hlaterSaved⟩
  · rw [hevs]
    exact mem_cons_self ..
  · rw [hevs]
    simp
  · intro heq
    have := congrArg WorkbenchDocumentV1.revision heq
    exact absurd this (by decide)

/-- The sample run compares and swaps. -/
theorem compareAndSwap_sampleEvents :
    (∀ event ∈ sampleEvents, event.ComparesAndSwaps sampleSerde sampleToken) ∧
      sampleEvents.Pairwise fun earlier later =>
        earlier.home = later.home → earlier.Excludes later := by
  obtain ⟨world, hrun⟩ := run_sampleEvents
  exact hrun.compareAndSwap readable_sampleEvents

end Wardian.Workbench
