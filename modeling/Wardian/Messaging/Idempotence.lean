/-
Idempotent admission.

A sender's key stands for one admission: its interaction, its delivery row and its place in the stream.
Whatever happens to the row afterwards, a later admission with the key finds it, and either answers with
it or is refused.

Main results:

* `Messaging.Event.Served.change` — an event adds the row of its admission, or no row with a key;
* `Messaging.History.keys` — no key gets two rows;
* `Messaging.idempotent_admission` — **a key admits once**.
-/

import Wardian.Messaging.Ownership
import Wardian.Messaging.Replies

set_option autoImplicit false

namespace Wardian.Messaging

open Table
open List

/-! ### What stays of an admission -/

/-- What a row says about the admission that made it. -/
def Delivery.origin (delivery : Delivery) :
    String × String × Operation × Option String × String :=
  (delivery.interactionId, delivery.sender, delivery.operation, delivery.idempotencyKey,
    delivery.fingerprint)

/-- The row was admitted with the key. -/
def Delivery.HasKey (delivery : Delivery) (sender : String) (operation : Operation) (key : String) :
    Prop :=
  delivery.sender = sender ∧ delivery.operation = operation ∧ delivery.idempotencyKey = some key

instance (delivery : Delivery) (sender : String) (operation : Operation) (key : String) :
    Decidable (delivery.HasKey sender operation key) :=
  inferInstanceAs (Decidable (_ ∧ _ ∧ _))

theorem Delivery.HasKey.of_origin {delivery delivery' : Delivery} {sender key : String}
    {operation : Operation} (h : delivery'.origin = delivery.origin)
    (hkey : delivery.HasKey sender operation key) : delivery'.HasKey sender operation key := by
  unfold Delivery.origin at h
  simp only [Prod.mk.injEq] at h
  obtain ⟨-, hsndr, hop, hsame, -⟩ := h
  exact ⟨hsndr.trans hkey.1, hop.trans hkey.2.1, hsame.trans hkey.2.2⟩

/-- Every row keeps its origin, and every host's task its host. -/
structure KeepsOrigins (store store' : Store) : Prop where
  rows : RowsStep (fun _ old new => new.origin = old.origin) store store'
  hosts : ∀ (id : String) (delivery : Delivery), store.deliveries[id]? = some delivery →
    store'.hostTasks[id]? = store.hostTasks[id]?

/-- A row that is new stands under its own identifier and has no key. -/
def NewRowsKeyless (store store' : Store) : Prop :=
  ∀ (id : String) (delivery : Delivery), store.deliveries[id]? = none →
    store'.deliveries[id]? = some delivery →
      delivery.interactionId = id ∧ delivery.idempotencyKey = none

/-- No key is new. -/
structure NoNewKeys (store store' : Store) : Prop where
  rows : RowsStep (fun _ old new => new.origin = old.origin) store store'
  keyless : NewRowsKeyless store store'
  hostTasks : store'.hostTasks = store.hostTasks

section

variable {sha256 : String → String} {env : Env} {store store' store'' : Store} {call : Call}
  {answer : Except Failure Answer} {events : List Event}

theorem KeepsOrigins.refl (store : Store) : KeepsOrigins store store :=
  ⟨.of_eq (fun _ _ => rfl) rfl, fun _ _ _ => rfl⟩

theorem KeepsOrigins.trans (h : KeepsOrigins store store') (h' : KeepsOrigins store' store'') :
    KeepsOrigins store store'' := by
  refine ⟨.trans (fun _ a b c hab hbc => hbc.trans hab) h.rows h'.rows, fun id delivery hrow => ?_⟩
  obtain ⟨delivery', hrow', -⟩ := h.rows id delivery hrow
  exact (h'.hosts id delivery' hrow').trans (h.hosts id delivery hrow)

theorem NoNewKeys.keeps (h : NoNewKeys store store') : KeepsOrigins store store' :=
  ⟨h.rows, fun id _ _ => by rw [h.hostTasks]⟩

theorem NoNewKeys.of_eq (hdels : store'.deliveries = store.deliveries)
    (hhosts : store'.hostTasks = store.hostTasks) : NoNewKeys store store' := by
  refine ⟨.of_eq (fun _ _ => rfl) hdels, fun id delivery hnone hrow => ?_, hhosts⟩
  rw [hdels, hnone] at hrow
  cases hrow

variable {delivery : Delivery}

theorem NoNewKeys.of_row {id : String} {delivery' : Delivery} (hrow : store.deliveries[id]? = some delivery)
    (horig : delivery'.origin = delivery.origin) : NoNewKeys store (store.withDelivery id delivery') := by
  refine ⟨.of_row (fun _ _ => rfl) hrow horig, fun other found hnone hfnd => ?_, rfl⟩
  rw [NoNewRows.of_row hrow other hnone] at hfnd
  cases hfnd

theorem NoNewKeys.trans (h : NoNewKeys store store') (h' : NoNewKeys store' store'') :
    NoNewKeys store store'' := by
  refine ⟨.trans (fun _ a b c hab hbc => hbc.trans hab) h.rows h'.rows,
    fun id delivery hnone hrow => ?_, h'.hostTasks.trans h.hostTasks⟩
  cases hmid : store'.deliveries[id]? with
  | none => exact h'.keyless id delivery hmid hrow
  | some middle =>
    obtain ⟨hid, hkeyl⟩ := h.keyless id middle hnone hmid
    obtain ⟨delivery', hrow', horig⟩ := h'.rows id middle hmid
    obtain rfl := Option.some.inj (hrow.symm.trans hrow')
    unfold Delivery.origin at horig
    simp only [Prod.mk.injEq] at horig
    exact ⟨horig.1.trans hid, horig.2.2.2.1.trans hkeyl⟩

theorem RepliedNew.noNewKeys {sender requestId message : String} {status : ReplyStatus}
    {task : InteractionRecord}
    (h : RepliedNew env sender requestId status message store store' task delivery) :
    NoNewKeys store store' := by
  have hdels := h.deliveries
  cases hsndr : task.senderSessionId with
  | none =>
    rw [hsndr] at hdels
    exact .of_eq hdels h.hostTasks
  | some recipient =>
    rw [hsndr] at hdels
    have hfrs := h.fresh (by rw [hsndr]; rfl)
    refine ⟨.of_new (fun _ _ => rfl) hfrs hdels, fun id found hnone hfnd => ?_,
      h.hostTasks⟩
    rw [hdels, lookup_insert] at hfnd
    split at hfnd
    · rename_i hid
      obtain rfl := Option.some.inj hfnd
      exact ⟨hid, rfl⟩
    · rw [hnone] at hfnd
      cases hfnd

theorem Publishes.noNewKeys {binding : TaskTurnBinding} {replied : Option Replied}
    (h : Publishes env binding replied store store') : NoNewKeys store store' := by
  cases h with
  | reply _ _ _ _ hrepd => exact hrepd.noNewKeys.trans (.of_eq rfl rfl)
  | mark hbnd hrecd hansd | same => exact .of_eq rfl rfl

theorem Recovers.noNewKeys {bindings : List TaskTurnBinding}
    (h : Recovers env bindings store store') : NoNewKeys store store' := by
  induction h with
  | stop env bindings store => exact .of_eq rfl rfl
  | step hpub hrest ih => exact hpub.noNewKeys.trans ih

theorem ClaimClosed.noNewKeys {claim : Option TaskClaim} (h : ClaimClosed claim store store') :
    NoNewKeys store store' := by
  unfold ClaimClosed at h
  cases claim with
  | none =>
    subst h
    exact .of_eq rfl rfl
  | some claim =>
    obtain ⟨delivery, hrow, -, rfl⟩ := h
    exact .of_row hrow rfl

theorem Received.noNewKeys {recipient : String} {cursor ackCursor : Option String} {limit : Nat}
    {page : AgentMessagePage} {ack after : Nat} {read : List Availability} {scan : PageScan}
    (h : Received env recipient cursor ackCursor limit page store store' ack after read scan) :
    NoNewKeys store store' := by
  refine ⟨fun id delivery hrow => ?_, fun id delivery hnone hrow => ?_, by rw [h.frame]⟩
  · rcases h.reads.row id with hsame | ⟨-, found, token, hfnd, -, hnew⟩
    · exact ⟨delivery, hsame.trans hrow, rfl⟩
    · obtain rfl := Option.some.inj (hrow.symm.trans hfnd)
      exact ⟨_, hnew, rfl⟩
  · rw [h.noNewRows id hnone] at hrow
    cases hrow

theorem Effect.noNewKeys (hcall : call.admission sha256 = none)
    (h : Effect sha256 env call answer store store') : NoNewKeys store store' := by
  cases h with
  | failed e | repliedBefore => exact .of_eq rfl rfl
  | admittedBefore hoth | admitted hoth =>
    rw [hcall] at hoth
    cases hoth
  | replied _ _ hrepd hclsd => exact hrepd.noNewKeys.trans hclsd.noNewKeys
  | received hrcv => exact hrcv.noNewKeys
  | claimed _ hdel | finished hdel | released hdel | staled hdel
  | continued hdel => exact .of_row hdel rfl
  | unclaimed | unchanged | recorded | marked | recordedBefore | markedBefore | abandoned =>
    exact .of_eq rfl rfl
  | @bound claim provider session turn mode binding delivery task store htask hreq htok
      hunbd hdel hheld =>
      have hturn : NoNewKeys store (store.withTaskTurn binding.requestId ⟨binding, .bound, none⟩) :=
        .of_eq rfl rfl
      have horig : (delivery.finished .providerAccepted).origin = delivery.origin := rfl
      exact hturn.trans (.of_row hdel horig)
  | published hpub => exact hpub.noNewKeys
  | recovered _ hrcvs => exact hrcvs.noNewKeys

end

/-! ### What an event does to the keys -/

/-- What an admission call must be in itself. -/
def Call.Valid (sha256 : String → String) : Call → Prop
  | .admitRequest request => ValidAdmission request none none none false
  | .admitWithWakeOnAdmission request origin => ValidAdmission request none none origin true
  | .admitWithRequesterOrigin request origin => ValidAdmission request none origin none false
  | .admitHostAutomationTask runId node recipient message generation =>
    ValidHostTask runId node recipient message generation
  | .admitHostAutomationMessage runId node recipient message generation =>
    ValidHostMessage sha256 runId node recipient message generation
  | _ => True

/-- The event has accepted an admission with the key. -/
def Event.Accepts (sha256 : String → String) (event : Event) (sender : String)
    (operation : Operation) (key : String) : Prop :=
  ∃ request host admitted, event.call.admission sha256 = some (request, host) ∧
    event.answer = .ok (.admitted admitted) ∧ request.sender = sender ∧
    request.operation = operation ∧ request.idempotencyKey = some key

/-- The row of the event's admission was added. -/
structure Event.AddsRow (sha256 : String → String) (event : Event) (request : Admission)
    (host : Option HostAutomationProvenance) (admitted : Admitted) (delivery : Delivery) : Prop where
  call : event.call.admission sha256 = some (request, host)
  answer : event.answer = .ok (.admitted admitted)
  record : admitted.record = admissionRecord event.env request host
  duplicate : admitted.duplicate = false
  unused : event.before.findAdmission request = none
  tables : AdmittedNew event.env request host event.before event.after
  interactionId : delivery.interactionId = admitted.record.id
  sender : delivery.sender = request.sender
  operation : delivery.operation = request.operation
  key : delivery.idempotencyKey = request.idempotencyKey
  fingerprint : delivery.fingerprint = admissionFingerprint sha256 request.recipient request.message
  deliveries : event.after.deliveries = event.before.deliveries.insert admitted.record.id delivery

section

variable {sha256 : String → String} {event : Event} {store store' : Store} {events : List Event}
  {request : Admission} {host : Option HostAutomationProvenance}

/-- A call that asks for an admission does what an admission does. -/
theorem wp_serve_admission {env : Env} {call : Call} (hcall : call.admission sha256 = some (request, host)) :
    Prog.Wp (serve sha256 env call)
      (fun answer store' => ∃ admitted, answer = .admitted admitted ∧
        Admits sha256 env request host (call.Valid sha256) store (.ok admitted) store')
      (fun e store' => Admits sha256 env request host (call.Valid sha256) store (.error e) store')
      store := by
  have hans : ∀ {m : MessagingM Admitted},
      IsAdmission sha256 env request host (call.Valid sha256) store m →
      Prog.Wp (answering .admitted m)
        (fun answer store' => ∃ admitted, answer = .admitted admitted ∧
          Admits sha256 env request host (call.Valid sha256) store (.ok admitted) store')
        (fun e store' => Admits sha256 env request host (call.Valid sha256) store (.error e) store')
        store := fun h =>
    wp_answering (Prog.wp_mono h (fun admitted _ hadms => ⟨admitted, rfl, hadms⟩)
      fun _ _ hadms => hadms)
  cases call with
  | admitRequest r =>
    obtain ⟨rfl, rfl⟩ := Prod.mk.inj (Option.some.inj hcall)
    exact hans isAdmission_admitRequest
  | admitWithWakeOnAdmission r origin =>
    obtain ⟨rfl, rfl⟩ := Prod.mk.inj (Option.some.inj hcall)
    exact hans isAdmission_admitWithWakeOnAdmission
  | admitWithRequesterOrigin r origin =>
    obtain ⟨rfl, rfl⟩ := Prod.mk.inj (Option.some.inj hcall)
    exact hans isAdmission_admitWithRequesterOrigin
  | admitHostAutomationTask runId node recipient message generation =>
    obtain ⟨rfl, rfl⟩ := Prod.mk.inj (Option.some.inj hcall)
    exact hans isAdmission_admitHostAutomationTask
  | admitHostAutomationMessage runId node recipient message generation =>
    obtain ⟨rfl, rfl⟩ := Prod.mk.inj (Option.some.inj hcall)
    exact hans isAdmission_admitHostAutomationMessage
  | _ => cases hcall

/-- An event that asks for an admission does what an admission does. -/
theorem Event.Served.admits (h : event.Served sha256)
    (hcall : event.call.admission sha256 = some (request, host)) :
    ∃ result, event.answer = result.map .admitted ∧
      Admits sha256 event.env request host (event.call.Valid sha256) event.before result
        event.after := by
  have hwp := @wp_serve_admission sha256 event.before request host event.env event.call hcall
  cases hans : event.answer with
  | error e =>
    refine ⟨.error e, rfl, hwp.of_error ?_⟩
    rw [h, hans]
  | ok answer =>
    have hsrv : serve sha256 event.env event.call event.before = (.ok answer, event.after) := by
      rw [h, hans]
    obtain ⟨admitted, rfl, hadms⟩ := hwp.of_ok hsrv
    exact ⟨.ok admitted, rfl, hadms⟩

theorem Event.Served.refused (h : event.Served sha256)
    (hcall : event.call.admission sha256 = some (request, host)) {e : Failure}
    (hans : event.answer = .error e) : event.after = event.before := by
  obtain ⟨result, hres, hadms⟩ := h.admits hcall
  generalize event.after = after at hadms ⊢
  cases hadms with
  | refused => rfl
  | before => rfl
  | new =>
    rw [hans] at hres
    cases hres

/-- An admission whose key was used changes nothing: it finds the row, or it is refused. -/
theorem Event.Served.again (h : event.Served sha256)
    (hcall : event.call.admission sha256 = some (request, host)) {existing : Delivery}
    (hfnd : event.before.findAdmission request = some existing) :
    event.after = event.before ∧
      ((∃ admitted, event.answer = .ok (.admitted admitted) ∧
          AdmittedBefore sha256 request host event.before existing admitted) ∨
        ∃ e, event.answer = .error e ∧ (event.call.Valid sha256 →
          KeyRefused sha256 request host event.before existing e)) := by
  obtain ⟨result, hres, hadms⟩ := h.admits hcall
  generalize event.after = after at hadms ⊢
  cases hadms with
  | @refused e hrfsd => exact ⟨rfl, .inr ⟨e, hres, fun hval => hrfsd hval _ hfnd⟩⟩
  | @before other admitted hoth hbef =>
    obtain rfl := Option.some.inj (hfnd.symm.trans hoth)
    exact ⟨rfl, .inl ⟨admitted, hres, hbef⟩⟩
  | new hunus =>
    rw [hunus] at hfnd
    cases hfnd

/-- An admission that is accepted with a key that was not used adds its row. -/
theorem Event.Served.addsRow (h : event.Served sha256)
    (hcall : event.call.admission sha256 = some (request, host))
    {admitted : Admitted} (hans : event.answer = .ok (.admitted admitted))
    (hunus : event.before.findAdmission request = none) :
    ∃ delivery, event.AddsRow sha256 request host admitted delivery := by
  obtain ⟨result, hres, hadms⟩ := h.admits hcall
  generalize haft : event.after = after at hadms
  cases hadms with
  | refused hrfsd =>
    rw [hans] at hres
    cases hres
  | before hfnd hbef =>
    rw [hunus] at hfnd
    cases hfnd
  | @new found after requesterOrigin recipientOrigin wakeOnAdmission hunus hrec hdup
      hadm hdels =>
      obtain rfl := Answer.admitted.inj (Except.ok.inj (hans.symm.trans hres))
      rw [← haft] at hadm hdels
      refine ⟨admissionDelivery sha256 event.env request host requesterOrigin recipientOrigin
        wakeOnAdmission, hcall, hans, hrec, hdup, hunus, hadm, ?_, rfl, rfl, rfl,
        rfl, ?_⟩
      · exact congrArg InteractionRecord.id hrec.symm
      · rw [hrec, hdels]

/-- An event adds no row with a key, or the row of its admission. -/
theorem Event.Served.change (h : event.Served sha256) :
    NoNewKeys event.before event.after ∨
      ∃ request host admitted delivery, event.AddsRow sha256 request host admitted delivery := by
  cases hcall : event.call.admission sha256 with
  | none => exact .inl (h.effect.noNewKeys hcall)
  | some pair =>
    obtain ⟨request, host⟩ := pair
    obtain ⟨result, hans, hadms⟩ := h.admits hcall
    generalize haft : event.after = after at hadms
    cases hadms with
    | refused hrfsd | before hfnd hbef => exact .inl (.of_eq rfl rfl)
    | @new admitted after requesterOrigin recipientOrigin wakeOnAdmission hunus =>
      obtain ⟨delivery, hadds⟩ := h.addsRow hcall hans hunus
      exact .inr ⟨request, host, admitted, delivery, hadds⟩

end

/-! ### No key has two rows -/

/-- Rows stand under their own identifiers, and no key has two of them. -/
structure Store.Keys (store : Store) : Prop where
  own : ∀ (id : String) (delivery : Delivery), store.deliveries[id]? = some delivery →
    delivery.interactionId = id
  unique : ∀ (id id' : String) (delivery delivery' : Delivery) (sender : String)
    (operation : Operation) (key : String), store.deliveries[id]? = some delivery →
    store.deliveries[id']? = some delivery' → delivery.HasKey sender operation key →
    delivery'.HasKey sender operation key → id = id'
  hosted : ∀ (id : String) (provenance : HostAutomationProvenance),
    store.hostTasks[id]? = some provenance → (store.deliveries[id]?).isSome

section

variable {sha256 : String → String} {event : Event} {store store' : Store} {events : List Event}
  {request : Admission} {host : Option HostAutomationProvenance} {admitted : Admitted}
  {existing delivery : Delivery} {id key : String}

theorem Store.keys_empty : Store.empty.Keys := by
  have hnone : ∀ id : String, Store.empty.deliveries[id]? = none := fun id => by
    rw [show Store.empty.deliveries = ∅ from rfl, lookup_empty]
  refine ⟨fun id delivery hrow => ?_, fun id id' delivery delivery' sender operation key hrow => ?_,
    fun id provenance hhost => ?_⟩
  · rw [hnone] at hrow
    cases hrow
  · rw [hnone] at hrow
    cases hrow
  · rw [show Store.empty.hostTasks = ∅ from rfl, lookup_empty] at hhost
    cases hhost

/-- What the key of an admission finds was admitted with the key. -/
theorem Store.findAdmission_eq_some (h : store.findAdmission request = some existing) :
    (∃ id : String, store.deliveries[id]? = some existing) ∧
      ∃ key, request.idempotencyKey = some key ∧
        existing.HasKey request.sender request.operation key := by
  unfold Store.findAdmission at h
  obtain ⟨key, hkey, hfind⟩ := Option.bind_eq_some_iff.1 h
  unfold Store.findKey at hfind
  have hhas := find?_some hfind
  rw [decide_eq_true_iff] at hhas
  obtain ⟨⟨id, delivery⟩, hmem, rfl⟩ := mem_map.1 (mem_of_find?_eq_some hfind)
  exact ⟨⟨id, mem_toList.1 hmem⟩, key, hkey, hhas⟩

theorem Store.findAdmission_eq_none (h : store.findAdmission request = none)
    (hkey : request.idempotencyKey = some key) (hrow : store.deliveries[id]? = some delivery) :
    ¬ delivery.HasKey request.sender request.operation key := by
  intro hhas
  unfold Store.findAdmission at h
  rw [hkey] at h
  refine absurd (decide_eq_true hhas) (find?_eq_none.1 h delivery ?_)
  exact mem_map.2 ⟨(id, delivery), mem_toList.2 hrow, rfl⟩

theorem Store.Keys.of_noNewKeys (h : store.Keys) (hchg : NoNewKeys store store') : store'.Keys := by
  have hold : ∀ (id : String) (delivery : Delivery), store'.deliveries[id]? = some delivery →
      delivery.interactionId = id ∧ delivery.idempotencyKey = none ∨
        ∃ old, store.deliveries[id]? = some old ∧ delivery.origin = old.origin := by
    intro id delivery hrow
    cases hbef : store.deliveries[id]? with
    | none => exact .inl (hchg.keyless id delivery hbef hrow)
    | some old =>
      obtain ⟨delivery', hrow', horig⟩ := hchg.rows id old hbef
      obtain rfl := Option.some.inj (hrow.symm.trans hrow')
      exact .inr ⟨old, rfl, horig⟩
  have hkd : ∀ (id : String) (delivery : Delivery) (sender : String) (operation : Operation)
      (key : String), store'.deliveries[id]? = some delivery →
      delivery.HasKey sender operation key →
      ∃ old, store.deliveries[id]? = some old ∧ old.HasKey sender operation key := by
    intro id delivery sender operation key hrow hhas
    rcases hold id delivery hrow with ⟨-, hkeyl⟩ | ⟨old, hbef, horig⟩
    · rw [hhas.2.2] at hkeyl
      cases hkeyl
    · exact ⟨old, hbef, hhas.of_origin horig.symm⟩
  constructor
  · intro id delivery hrow
    rcases hold id delivery hrow with ⟨hid, -⟩ | ⟨old, hbef, horig⟩
    · exact hid
    · exact (congrArg Prod.fst horig).trans (h.own id old hbef)
  · intro id id' delivery delivery' sender operation key hrow hrow' hhas hhas'
    obtain ⟨old, hbef, hold⟩ := hkd id delivery sender operation key hrow hhas
    obtain ⟨old', hbef', hold'⟩ := hkd id' delivery' sender operation key hrow' hhas'
    exact h.unique id id' old old' sender operation key hbef hbef' hold hold'
  · intro id provenance hhost
    rw [hchg.hostTasks] at hhost
    obtain ⟨old, hbef⟩ := Option.isSome_iff_exists.1 (h.hosted id provenance hhost)
    obtain ⟨new, haft, -⟩ := hchg.rows id old hbef
    rw [haft]
    rfl

section

variable (h : event.AddsRow sha256 request host admitted delivery)
include h

/-- The row of the event's admission is the one row that is new. -/
theorem Event.AddsRow.lookup (id : String) : event.after.deliveries[id]? =
      if admitted.record.id = id then some delivery else event.before.deliveries[id]? := by
  rw [h.deliveries, lookup_insert]

theorem Event.AddsRow.fresh :
    event.before.deliveries[admitted.record.id]? = none := by
  rw [h.record]
  exact h.tables.fresh

theorem Event.AddsRow.hasKey
    (hkey : request.idempotencyKey = some key) : delivery.HasKey request.sender request.operation key :=
  ⟨h.sender, h.operation, h.key.trans hkey⟩

theorem Event.AddsRow.keeps :
    KeepsOrigins event.before event.after := by
  refine ⟨.of_new (fun _ _ => rfl) h.fresh h.deliveries, fun id old hrow => ?_⟩
  have hne : (admissionRecord event.env request host).id ≠ id := by
    rintro rfl
    rw [h.tables.fresh] at hrow
    cases hrow
  rw [h.tables.hostTasks]
  cases host with
  | none => rfl
  | some provenance =>
    dsimp only
    rw [lookup_insert, if_neg hne]

/-- The provenance of the row that was added is the host of its admission. -/
theorem Event.AddsRow.provenance
    (hkeys : event.before.Keys) : event.after.hostTasks[admitted.record.id]? = host := by
  rw [h.tables.hostTasks, h.record]
  cases host with
  | some provenance =>
    dsimp only
    rw [lookup_insert, if_pos rfl]
  | none =>
    dsimp only
    cases hhost : event.before.hostTasks[(admissionRecord event.env request none).id]? with
    | none => rfl
    | some provenance =>
      have hsome := hkeys.hosted _ provenance hhost
      rw [h.tables.fresh] at hsome
      cases hsome

end

theorem Store.Keys.of_addsRow (h : event.before.Keys)
    (hadds : event.AddsRow sha256 request host admitted delivery) : event.after.Keys := by
  -- the row that was added is the only one with its key
  have hnew : ∀ (id : String) (other : Delivery) (sender : String) (operation : Operation)
      (key : String), event.before.deliveries[id]? = some other →
      other.HasKey sender operation key → ¬ delivery.HasKey sender operation key := by
    intro id other sender operation key hrow hhas hadded
    have hsndr : request.sender = sender := hadds.sender.symm.trans hadded.1
    have hop : request.operation = operation := hadds.operation.symm.trans hadded.2.1
    subst hsndr hop
    exact Store.findAdmission_eq_none hadds.unused (hadds.key.symm.trans hadded.2.2) hrow hhas
  constructor
  · intro id other hrow
    rw [hadds.lookup] at hrow
    split at hrow
    · rename_i hid
      obtain rfl := Option.some.inj hrow
      exact hadds.interactionId.trans hid
    · exact h.own id other hrow
  · intro id id' other other' sender operation key hrow hrow' hhas hhas'
    rw [hadds.lookup] at hrow hrow'
    split at hrow <;> split at hrow'
    · exact ‹admitted.record.id = id›.symm.trans ‹admitted.record.id = id'›
    · obtain rfl := Option.some.inj hrow
      exact absurd hhas (hnew id' other' sender operation key hrow' hhas')
    · obtain rfl := Option.some.inj hrow'
      exact absurd hhas' (hnew id other sender operation key hrow hhas)
    · exact h.unique id id' other other' sender operation key hrow hrow' hhas hhas'
  · intro id provenance hhost
    rw [hadds.lookup]
    split
    · rfl
    · refine h.hosted id provenance ?_
      rw [← hhost, hadds.tables.hostTasks]
      cases host with
      | none => rfl
      | some other =>
        dsimp only
        rw [lookup_insert, if_neg (hadds.record ▸ ‹_›)]

theorem Event.Served.keys (h : event.Served sha256) :
    KeepsOrigins event.before event.after ∧ (event.before.Keys → event.after.Keys) := by
  rcases h.change with hnone | ⟨request, host, admitted, delivery, hadds⟩
  · exact ⟨hnone.keeps, fun hkeys => hkeys.of_noNewKeys hnone⟩
  · exact ⟨hadds.keeps, fun hkeys => hkeys.of_addsRow hadds⟩

theorem History.keepsOrigins (h : History sha256 store events store') : KeepsOrigins store store' := by
  induction h with
  | nil => exact .refl _
  | cons hsrv hrest ih => exact hsrv.keys.1.trans ih

theorem History.keys (h : History sha256 store events store') (hkeys : store.Keys) : store'.Keys := by
  induction h with
  | nil => exact hkeys
  | cons hsrv hrest ih => exact ih (hsrv.keys.2 hkeys)

/-- A row with a key was there before, or one of the events has accepted an admission with it. -/
theorem History.accepted_of_hasKey (h : History sha256 store events store') {sender : String}
    {operation : Operation} (hrow : store'.deliveries[id]? = some delivery)
    (hkey : delivery.HasKey sender operation key) :
    (∃ old, store.deliveries[id]? = some old ∧ old.HasKey sender operation key) ∨
      ∃ event ∈ events, event.Accepts sha256 sender operation key := by
  induction h with
  | nil => exact .inl ⟨delivery, hrow, hkey⟩
  | @cons event events store' hsrv hrest ih =>
    rcases ih hrow with ⟨old, hold, hhas⟩ | ⟨later, hltr, hacce⟩
    · rcases hsrv.change with hnone | ⟨request, host, admitted, added, hadds⟩
      · cases hbef : event.before.deliveries[id]? with
        | none =>
          have hkeyl := (hnone.keyless id old hbef hold).2
          rw [hhas.2.2] at hkeyl
          cases hkeyl
        | some older =>
          obtain ⟨new, hnew, horig⟩ := hnone.rows id older hbef
          obtain rfl := Option.some.inj (hold.symm.trans hnew)
          exact .inl ⟨older, rfl, hhas.of_origin horig.symm⟩
      · rw [hadds.lookup] at hold
        split at hold
        · obtain rfl := Option.some.inj hold
          exact .inr ⟨event, mem_cons_self, request, host, admitted, hadds.call, hadds.answer,
            hadds.sender.symm.trans hhas.1, hadds.operation.symm.trans hhas.2.1,
            hadds.key.symm.trans hhas.2.2⟩
        · exact .inl ⟨old, hold, hhas⟩
    · exact .inr ⟨later, mem_cons_of_mem _ hltr, hacce⟩

end

/-! ### A key admits once -/

/-- The tables hold one admission with the key: its interaction, its row and its place. -/
structure Store.HoldsOne (store : Store) (sender : String) (operation : Operation) (key id : String) :
    Prop where
  interaction : ∃ record, store.interactions[id]? = some record ∧ record.id = id
  delivery : ∃ delivery, store.deliveries[id]? = some delivery ∧
    delivery.HasKey sender operation key
  unique : ∀ (id' : String) (delivery : Delivery), store.deliveries[id']? = some delivery →
    delivery.HasKey sender operation key → id' = id
  place : (store.availability.filter fun row => row.interactionId = id).length = 1

/-- The admission asks for the same again, by the same host if by a host. -/
structure Repeats (request : Admission) (host : Option HostAutomationProvenance)
    (again : Admission) (host' : Option HostAutomationProvenance) : Prop where
  recipient : again.recipient = request.recipient
  message : again.message = request.message
  host : ∀ provenance ∈ host', host = some provenance

/-- Different requests have different fingerprints, if no two texts have the same hash. -/
theorem admissionFingerprint_inj {sha256 : String → String} (hsha : Function.Injective sha256)
    {recipient recipient' message message' : String}
    (h : admissionFingerprint sha256 recipient message = admissionFingerprint sha256 recipient' message') :
    recipient = recipient' ∧ message = message' := by
  have htext := hsha h
  simp only [String.append_assoc] at htext
  obtain ⟨hrcp, hrest⟩ := JsonText.quote_append_inj ((String.append_right_inj _).1 htext)
  obtain ⟨hmsg, -⟩ := JsonText.quote_append_inj ((String.append_right_inj _).1 hrest)
  exact ⟨hrcp, hmsg⟩

section

variable {sha256 : String → String} {store : Store} {request again : Admission}
  {host host' : Option HostAutomationProvenance} {admitted : Admitted} {id key : String}
  {delivery : Delivery} {earlier middle : List Event} {first later : Event}

theorem Store.Keys.findAdmission_eq (h : store.Keys) (hrow : store.deliveries[id]? = some delivery)
    (hkey : request.idempotencyKey = some key) (hhas : delivery.HasKey request.sender request.operation key) :
    store.findAdmission request = some delivery := by
  cases hfnd : store.findAdmission request with
  | none => exact absurd hhas (Store.findAdmission_eq_none hfnd hkey hrow)
  | some other =>
    obtain ⟨⟨id', hrow'⟩, key', hkey', hhas'⟩ := Store.findAdmission_eq_some hfnd
    obtain rfl := Option.some.inj (hkey.symm.trans hkey')
    obtain rfl := h.unique id id' delivery other _ _ key hrow hrow' hhas hhas'
    rw [hrow'] at hrow
    exact hrow

theorem Store.Keys.holdsOne (h : store.Keys) (hsnd : store.Sound) {sender : String}
    {operation : Operation} (hrow : store.deliveries[id]? = some delivery)
    (hhas : delivery.HasKey sender operation key) : store.HoldsOne sender operation key id := by
  obtain ⟨row, hmem, hid, -⟩ := hsnd.placed id delivery hrow
  obtain ⟨record, hrec⟩ := Option.isSome_iff_exists.1 (hsnd.known row hmem)
  rw [hid] at hrec
  refine ⟨⟨record, hrec, hsnd.keyed id record hrec⟩, ⟨delivery, hrow, hhas⟩,
    fun id' other hoth hkey => ?_, ?_⟩
  · exact h.unique id' id other delivery sender operation key hoth hrow hkey hhas
  · rw [hsnd.filter_eq_singleton hmem hid]
    rfl

/-- **A key admits once.**  The first admission that is accepted with a key adds its rows.  A later
one with the key changes nothing: if it is valid in itself, it is answered with the first one's record
when it asks for the same, and refused when it does not.  An admission that is refused changes
nothing. -/
theorem idempotent_admission (hsha : Function.Injective sha256)
    (h : History sha256 .empty (earlier ++ first :: (middle ++ [later])) store)
    (hfst : first.call.admission sha256 = some (request, host))
    (hans : first.answer = .ok (.admitted admitted)) (hkey : request.idempotencyKey = some key)
    (hbef : ∀ event ∈ earlier, ¬ event.Accepts sha256 request.sender request.operation key)
    (hltr : later.call.admission sha256 = some (again, host')) (hsndr : again.sender = request.sender)
    (hop : again.operation = request.operation) (hkey' : again.idempotencyKey = some key) :
    (AdmittedNew first.env request host first.before first.after ∧
      admitted.record = admissionRecord first.env request host ∧ admitted.duplicate = false) ∧
    (later.after = later.before ∧
      later.after.HoldsOne request.sender request.operation key admitted.record.id) ∧
    (later.call.Valid sha256 →
      (Repeats request host again host' → ∃ found, later.answer = .ok (.admitted found) ∧
        found.record.id = admitted.record.id ∧ found.duplicate = true) ∧
      (¬ Repeats request host again host' → ∃ e, later.answer = .error e ∧
        (e.code = "idempotency_conflict" ∨ e.code = "invalid_host_provenance"))) ∧
    ∀ event ∈ earlier ++ first :: (middle ++ [later]), ∀ e,
      (event.call.admission sha256).isSome → event.answer = .error e →
        event.after = event.before := by
  have hrfsd : ∀ event ∈ earlier ++ first :: (middle ++ [later]), ∀ e,
      (event.call.admission sha256).isSome → event.answer = .error e →
        event.after = event.before := by
    intro event hevent e hcall hans
    obtain ⟨⟨request, host⟩, hcall⟩ := Option.isSome_iff_exists.1 hcall
    obtain ⟨hsrv, -⟩ := h.served_of_mem Store.sound_empty hevent
    exact hsrv.refused hcall hans
  obtain ⟨hservedLater, hsnd⟩ := h.served_of_mem Store.sound_empty
    (show later ∈ earlier ++ first :: (middle ++ [later]) by simp)
  obtain ⟨store₁, hearl, hrest⟩ := h.append
  obtain ⟨rfl, hservedFirst, hrest⟩ := hrest.of_cons
  obtain ⟨store₂, hmid, hrest⟩ := hrest.append
  obtain ⟨rfl, -, -⟩ := hrest.of_cons
  -- the key was not used before the first admission
  have hunus : first.before.findAdmission request = none := by
    cases hfnd : first.before.findAdmission request with
    | none => rfl
    | some existing =>
      obtain ⟨⟨id, hrow⟩, key', hkey'', hhas⟩ := Store.findAdmission_eq_some hfnd
      obtain rfl := Option.some.inj (hkey.symm.trans hkey'')
      rcases hearl.accepted_of_hasKey hrow hhas with ⟨old, hold, -⟩ | ⟨event, hevent, hacce⟩
      · rw [show Store.empty.deliveries = ∅ from rfl, lookup_empty] at hold
        cases hold
      · exact absurd hacce (hbef event hevent)
  obtain ⟨delivery, hadds⟩ := hservedFirst.addsRow hfst hans hunus
  have hkeysFirst : first.before.Keys := hearl.keys Store.keys_empty
  have hkeys : later.before.Keys := hmid.keys (hkeysFirst.of_addsRow hadds)
  -- its row is still there when the later one is served
  have hadded : first.after.deliveries[admitted.record.id]? = some delivery := by
    rw [hadds.lookup, if_pos rfl]
  obtain ⟨row, hrow, horig⟩ := hmid.keepsOrigins.rows _ _ hadded
  have hhas : row.HasKey request.sender request.operation key :=
    (hadds.hasKey hkey).of_origin horig
  have hfnd : later.before.findAdmission again = some row :=
    hkeys.findAdmission_eq hrow hkey' (by rw [hsndr, hop]; exact hhas)
  have hid : row.interactionId = admitted.record.id := hkeys.own _ _ hrow
  have hhost : later.before.hostTasks[row.interactionId]? = host := by
    rw [hid, hmid.keepsOrigins.hosts _ _ hadded]
    exact hadds.provenance hkeysFirst
  have hfp : row.fingerprint =
      admissionFingerprint sha256 request.recipient request.message := by
    unfold Delivery.origin at horig
    simp only [Prod.mk.injEq] at horig
    exact horig.2.2.2.2.trans hadds.fingerprint
  have hone := hkeys.holdsOne hsnd hrow hhas
  obtain ⟨hsame, hout⟩ := hservedLater.again hltr hfnd
  refine ⟨⟨hadds.tables, hadds.record, hadds.duplicate⟩, ⟨hsame, by rw [hsame]; exact hone⟩,
    fun hval => ?_, hrfsd⟩
  rcases hout with ⟨found, hfoundAnswer, hagain⟩ | ⟨e, he, hwhy⟩
  · obtain ⟨hrcp, hmsg⟩ :=
      admissionFingerprint_inj hsha (hagain.fingerprint.symm.trans hfp)
    have hrpts : Repeats request host again host' :=
      ⟨hrcp, hmsg, fun provenance hmem => hhost ▸ hagain.provenance provenance hmem⟩
    refine ⟨fun _ => ⟨found, hfoundAnswer, ?_, hagain.duplicate⟩, fun hnot => absurd hrpts hnot⟩
    rw [← hid]
    exact hsnd.keyed _ _ hagain.record
  · refine ⟨fun hrpts => ?_, fun _ => ?_⟩
    · exfalso
      cases hwhy hval with
      | conflict hcode hoth =>
        rw [hrpts.recipient, hrpts.message] at hoth
        exact hoth hfp
      | provenance hcode hgvn hoth =>
        rw [hhost] at hoth
        exact hoth (hrpts.host _ hgvn)
      | missing hmiss =>
        obtain ⟨record, hrec, -⟩ := hone.interaction
        rw [hid, hrec] at hmiss
        cases hmiss
    · refine ⟨e, he, ?_⟩
      cases hwhy hval with
      | conflict hcode => exact .inl hcode
      | provenance hcode => exact .inr hcode
      | missing hmiss =>
        obtain ⟨record, hrec, -⟩ := hone.interaction
        rw [hid, hrec] at hmiss
        cases hmiss

end

/-! ### Sample runs -/

/-- A task with a key. -/
def keyedTask : Admission := ⟨"alice", "bob", "work", some "key", true, 0⟩

/-- The task is admitted. -/
def keyedFirst : Event :=
  ⟨sampleEnv 0, .admitRequest keyedTask, (serve id (sampleEnv 0) (.admitRequest keyedTask) .empty).1,
    .empty, (serve id (sampleEnv 0) (.admitRequest keyedTask) .empty).2⟩

/-- It is asked for again, with an origin. -/
def keyedLater (origin : Option Origin) : Event :=
  let served := serve id (sampleEnv 1) (.admitWithRequesterOrigin keyedTask origin) keyedFirst.after
  ⟨sampleEnv 1, .admitWithRequesterOrigin keyedTask origin, served.1, keyedFirst.after, served.2⟩

def keyedAdmitted : Admitted :=
  ⟨admissionRecord (sampleEnv 0) keyedTask none, .unclaimed, false, .pending⟩

theorem history_keyed (origin : Option Origin) :
    History id .empty ([] ++ keyedFirst :: ([] ++ [keyedLater origin])) (keyedLater origin).after :=
  @History.cons _ keyedFirst _ _ rfl (@History.cons _ (keyedLater origin) _ _ rfl (.nil _))

theorem keyedFirst_answer : keyedFirst.answer = .ok (.admitted keyedAdmitted) := by
  decide

theorem idempotent_admission_keyed :
    (keyedLater none).after = (keyedLater none).before ∧
      (keyedLater none).after.HoldsOne "alice" .followupTask "key" keyedAdmitted.record.id :=
  (idempotent_admission Function.injective_id (history_keyed none) rfl keyedFirst_answer rfl
    (by simp) rfl rfl rfl rfl).2.1

/-- A task that was admitted is asked for again, with an origin that no task can have: it is refused,
and not answered with the record. -/
theorem again_refused :
    ∃ first later store, History id .empty ([] ++ first :: ([] ++ [later])) store ∧
      first.call.admission id = some (keyedTask, none) ∧
      (∃ admitted, first.answer = .ok (.admitted admitted)) ∧
      later.call.admission id = some (keyedTask, none) ∧ (keyedTask.idempotencyKey).isSome ∧
      later.answer = .error ⟨"invalid_requester_origin",
        "Requester origin requires a provider, durable conversation ID, and positive generation."⟩ :=
  ⟨keyedFirst, keyedLater (some ⟨"", "conversation", 1⟩), _, history_keyed _, rfl,
    ⟨_, keyedFirst_answer⟩, rfl, rfl, by decide⟩

end Wardian.Messaging
