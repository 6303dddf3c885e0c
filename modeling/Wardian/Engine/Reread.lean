/-
Numbers that are read back.

The run directory holds JSON text.  A value that is written there and read back is the same value,
except that a floating-point number may come back as a neighbouring one.  The engine moves numbers
of this kind from events into the registry and never looks at them when it folds an event, so
folding commutes with reading back.

Main results:

* `Engine.apply_reread` — folding an event commutes with reading back;
* `Engine.apply_erase` — events that differ in such numbers take states that differ in them to
  states that differ in them.
-/

import Wardian.Engine.Core

set_option autoImplicit false

namespace Wardian

open List

/-! ### Values -/

/-- How a floating-point number reads back, by its text and whether it is zero. -/
abbrev ReadFloat : Type := String → Bool → String × Bool

/-- Forget the number. -/
def eraseFloat : ReadFloat := fun _ _ => ("", false)

def Number.reread (read : ReadFloat) : Number → Number
  | .float text nonzero => .float (read text nonzero).1 (read text nonzero).2
  | n => n

mutual

/-- What a value is when its text is read. -/
def Value.reread (read : ReadFloat) : Value → Value
  | .number n => .number (n.reread read)
  | .array values => .array (Value.rereadList read values)
  | .object members => .object (Value.rereadMembers read members)
  | v => v

def Value.rereadList (read : ReadFloat) : List Value → List Value
  | [] => []
  | v :: values => v.reread read :: Value.rereadList read values

def Value.rereadMembers (read : ReadFloat) : List (String × Value) → List (String × Value)
  | [] => []
  | (key, v) :: members => (key, v.reread read) :: Value.rereadMembers read members

end

variable (read read' : ReadFloat)

mutual

/-- Reading back twice reads every number back twice. -/
theorem Value.reread_reread : ∀ v : Value, (v.reread read).reread read' =
    v.reread fun text nonzero => read' (read text nonzero).1 (read text nonzero).2
  | .number n => by cases n <;> rfl
  | .array values => congrArg Value.array (Value.rereadList_rereadList values)
  | .object members => congrArg Value.object (Value.rereadMembers_rereadMembers members)
  | .null | .bool _ | .string _ => rfl

theorem Value.rereadList_rereadList : ∀ values : List Value,
    Value.rereadList read' (Value.rereadList read values) =
      Value.rereadList (fun text nonzero => read' (read text nonzero).1 (read text nonzero).2) values
  | [] => rfl
  | v :: values =>
    congrArg₂ List.cons (Value.reread_reread v) (Value.rereadList_rereadList values)

theorem Value.rereadMembers_rereadMembers : ∀ members : List (String × Value),
    Value.rereadMembers read' (Value.rereadMembers read members) =
      Value.rereadMembers (fun text nonzero => read' (read text nonzero).1 (read text nonzero).2)
        members
  | [] => rfl
  | (key, v) :: members => congrArg₂ List.cons (congrArg (Prod.mk key) (Value.reread_reread v))
      (Value.rereadMembers_rereadMembers members)

end

/-! ### Members -/

namespace JsonMap

/-- The members with their values read back. -/
def reread (m : JsonMap) : JsonMap := Value.rereadMembers read m

variable (m : JsonMap) (key : String) (v : Value)

theorem reread_eq_map : m.reread read = m.map fun kv => (kv.1, kv.2.reread read) := by
  induction m with
  | nil => rfl
  | cons kv m ih => exact congrArg ((kv.1, kv.2.reread read) :: ·) ih

theorem get?_reread : (m.reread read).get? key = (m.get? key).map (·.reread read) := by
  induction m with
  | nil => rfl
  | cons kv m ih =>
    change (if kv.1 = key then some (kv.2.reread read) else (reread read m).get? key) = _
    rw [ih, get?]
    split <;> rfl

theorem insert_reread :
    (m.reread read).insert key (v.reread read) = (m.insert key v).reread read := by
  induction m with
  | nil => rfl
  | cons kv m ih =>
    change (if kv.1 = key then (kv.1, v.reread read) :: reread read m
      else (kv.1, kv.2.reread read) :: (reread read m).insert key (v.reread read)) = _
    rw [ih, insert]
    split <;> rfl

theorem remove_reread : (m.reread read).remove key = (m.remove key).reread read := by
  induction m with
  | nil => rfl
  | cons kv m ih =>
    change remove ((kv.1, kv.2.reread read) :: reread read m) key = _
    rw [remove, ih, remove, reread_eq_map, getLast?_map]
    split
    · cases hlast : m.getLast? with
      | none => rfl
      | some last =>
        change _ = (last.1, last.2.reread read) :: reread read m.dropLast
        rw [reread_eq_map, map_dropLast]
        rfl
    · rfl

theorem entryOrInsert_reread :
    (m.reread read).entryOrInsert key (v.reread read) = (m.entryOrInsert key v).reread read := by
  unfold entryOrInsert contains
  rw [get?_reread, Option.isSome_map, insert_reread]
  split <;> rfl

end JsonMap

namespace Value

variable {read} (v : Value) (key : String)

theorem get?_reread : (v.reread read).get? key = (v.get? key).map (·.reread read) := by
  cases v with
  | object m => exact JsonMap.get?_reread read m key
  | null | bool | number | string | array => rfl

theorem asObject_reread : (v.reread read).asObject = v.asObject.map (JsonMap.reread read) := by
  cases v <;> rfl

theorem indexMut_reread {f g : Value → Value} (h : ∀ v, g (v.reread read) = (f v).reread read) :
    (v.reread read).indexMut key g = (v.indexMut key f).reread read := by
  cases v with
  | object m =>
    change Value.object (JsonMap.insert (JsonMap.reread read m) key
      (g ((JsonMap.get? (JsonMap.reread read m) key).getD .null))) = _
    have hget : (JsonMap.get? (JsonMap.reread read m) key).getD .null =
        ((JsonMap.get? m key).getD .null).reread read := by
      rw [JsonMap.get?_reread]
      cases JsonMap.get? m key <;> rfl
    rw [hget, h, JsonMap.insert_reread]
    rfl
  | null => exact congrArg (fun v => Value.object [(key, v)]) (h .null)
  | bool | number | string | array => rfl

end Value

namespace Engine

open Automation (Blueprint)

/-! ### Events and states -/

/-- What an event says when its line is read. -/
def EventKind.reread : EventKind → EventKind
  | .runStarted runId blueprintHash blueprintId schema trigger =>
    .runStarted runId blueprintHash blueprintId schema (trigger.reread read)
  | .nodeCompleted node output => .nodeCompleted node (output.reread read)
  | .decisionCompleted node output port => .decisionCompleted node (output.reread read) port
  | .stateUpdated node op entries => .stateUpdated node op (entries.reread read)
  | kind => kind

def Event.reread (ev : Event) : Event := { ev with kind := ev.kind.reread read }

/-- What a state is when its checkpoint is read. -/
def RunState.reread (s : RunState) : RunState := { s with registry := s.registry.reread read }

namespace RunState

variable {read} (s : RunState) (node : String) (output : Value)

theorem normalizeLegacy_reread :
    (s.reread read).normalizeLegacy = s.normalizeLegacy.reread read := by
  obtain ⟨runId, _, _, _, _, registry⟩ := s
  cases registry with
  | object m =>
    have hrun := JsonMap.insert_reread read m "run" (.object [("id", .string runId)])
    have hstor := JsonMap.entryOrInsert_reread read
      (JsonMap.insert m "run" (.object [("id", .string runId)])) "storage" (.object [])
    rw [← hrun] at hstor
    exact congrArg (fun m => RunState.mk _ _ _ _ _ (.object m) _ _ _ _ _ _) hstor
  | null | bool | number | string | array => rfl

theorem indexMut_reread {f g : Value → Value} (key : String)
    (h : ∀ v, g (v.reread read) = (f v).reread read) :
    { s.reread read with registry := (s.reread read).registry.indexMut key g } =
      ({ s with registry := s.registry.indexMut key f } : RunState).reread read :=
  congrArg (fun registry => { s with registry := registry }) (s.registry.indexMut_reread key h)

theorem setMember_reread (member : String) : { s.reread read with
      registry := (s.reread read).registry.indexMut "nodes" fun nodes =>
        nodes.indexMut node fun v => v.indexMut member fun _ => output.reread read } =
    ({ s with registry := s.registry.indexMut "nodes" fun nodes =>
      nodes.indexMut node fun v => v.indexMut member fun _ => output } : RunState).reread read := by
  refine s.indexMut_reread "nodes" fun nodes => ?_
  exact nodes.indexMut_reread node fun v => v.indexMut_reread member fun _ => rfl

theorem setNodeOutput_reread : (s.reread read).setNodeOutput node (output.reread read) =
    (s.setNodeOutput node output).reread read := s.setMember_reread node output "output"

theorem setTrigger_reread :
    (s.reread read).setTrigger (output.reread read) = (s.setTrigger output).reread read :=
  s.indexMut_reread "trigger" fun v => v.indexMut_reread "output" fun _ => rfl

theorem nodeOutput_reread :
    (s.reread read).nodeOutput node = (s.nodeOutput node).map (·.reread read) := by
  unfold nodeOutput RunState.reread
  rw [Value.get?_reread]
  cases s.registry.get? "nodes" with
  | none => rfl
  | some nodes =>
    simp only [Option.map_some, Option.bind_some, Value.get?_reread]
    cases nodes.get? node with
    | none => rfl
    | some v => exact Value.get?_reread v "output"

end RunState

/-! ### Folding -/

variable {read} {bp : Blueprint} (s : RunState) (node port : String) (output : Value)

theorem deliverEdge_reread (i : Nat) :
    deliverEdge bp port (s.reread read) i = (deliverEdge bp port s i).reread read := by
  have hstat : (s.reread read).statusOrPending = s.statusOrPending := rfl
  unfold deliverEdge
  rw [hstat]
  split
  · rfl
  · split
    · split <;> rfl
    · rfl

theorem deliverFromPort_reread {s t : RunState} (h : t = s.reread read) (node port : String) :
    deliverFromPort bp t node port = (deliverFromPort bp s node port).reread read := by
  subst h
  unfold deliverFromPort
  induction outbound bp node generalizing s with
  | nil => rfl
  | cons i edges ih => rw [foldl_cons, deliverEdge_reread, ih, foldl_cons]

theorem resetBodyNode_reread :
    resetBodyNode (s.reread read) node = (resetBodyNode s node).reread read := by
  unfold resetBodyNode
  rw [RunState.nodeOutput_reread]
  cases s.nodeOutput node with
  | none => rfl
  | some output =>
    exact congrArg (fun s : RunState => { s.setNodeStatus node .pending with
      delivered := (s.setNodeStatus node .pending).delivered.erase node })
      (s.setMember_reread node output "prev")

theorem foldl_resetBodyNode_reread (body : List String) :
    body.foldl resetBodyNode (s.reread read) = (body.foldl resetBodyNode s).reread read := by
  induction body generalizing s with
  | nil => rfl
  | cons b body ih => rw [foldl_cons, resetBodyNode_reread, ih, foldl_cons]

theorem completeNode_reread : completeNode bp (s.reread read) node (output.reread read) =
    (completeNode bp s node output).reread read := by
  unfold completeNode
  rw [RunState.setNodeOutput_reread]
  split
  · rfl
  · exact deliverFromPort_reread (by rfl) node "out"

theorem runtimeTriggerOutput_reread (ts : String) :
    runtimeTriggerOutput (output.reread read) ts = (runtimeTriggerOutput output ts).reread read := by
  cases output with
  | object m =>
    exact congrArg Value.object (JsonMap.entryOrInsert_reread read m "timestamp" (.string ts))
  | null | bool | number | string | array => rfl

theorem applyRunStarted_reread (ts : String) (runId hash : Option String) (blueprintId : String)
    (schema : Nat) (trigger : Value) :
    applyRunStarted bp (s.reread read) ts runId hash blueprintId schema (trigger.reread read) =
      (applyRunStarted bp s ts runId hash blueprintId schema trigger).map (·.reread read) := by
  have hset : ∀ id, ({ s.reread read with
      runId := id, blueprintHash := hash.or s.blueprintHash }.normalizeLegacy.setTrigger
        (runtimeTriggerOutput (trigger.reread read) ts) : RunState) =
      ({ s with runId := id, blueprintHash := hash.or s.blueprintHash }.normalizeLegacy.setTrigger
        (runtimeTriggerOutput trigger ts)).reread read := by
    intro id
    rw [← RunState.setTrigger_reread, ← RunState.normalizeLegacy_reread, runtimeTriggerOutput_reread]
    rfl
  unfold applyRunStarted
  split
  · rfl
  · split
    · rfl
    · cases runId with
      | none => exact congrArg Except.ok (hset s.runId)
      | some id =>
        dsimp only
        rw [apply_ite (Except.map _)]
        exact if_congr Iff.rfl rfl (congrArg Except.ok (hset id))

theorem applyStateUpdate_reread (op : String) (entries : Value) :
    applyStateUpdate (s.reread read) op (entries.reread read) =
      (applyStateUpdate s op entries).map (·.reread read) := by
  have hupd : ∀ storage : JsonMap, ({ s.reread read with
      registry := (s.reread read).registry.indexMut "storage" fun _ =>
        .object (storage.reread read) } : RunState) =
      ({ s with registry := s.registry.indexMut "storage" fun _ => .object storage } :
        RunState).reread read :=
    fun storage => s.indexMut_reread "storage" fun _ => rfl
  have hset : ∀ entries storage : JsonMap,
      (entries.reread read).foldl (fun st kv => JsonMap.insert st kv.1 kv.2) (storage.reread read) =
        (entries.foldl (fun st kv => JsonMap.insert st kv.1 kv.2) storage).reread read := by
    intro entries
    induction entries with
    | nil => exact fun _ => rfl
    | cons kv entries ih =>
      intro storage
      change (JsonMap.reread read entries).foldl _
        ((JsonMap.reread read storage).insert kv.1 (kv.2.reread read)) = _
      rw [JsonMap.insert_reread, ih, foldl_cons]
  have hdel : ∀ (keys : List String) (storage : JsonMap),
      keys.foldl JsonMap.remove (storage.reread read) =
        (keys.foldl JsonMap.remove storage).reread read := by
    intro keys
    induction keys with
    | nil => exact fun _ => rfl
    | cons key keys ih =>
      intro storage
      rw [foldl_cons, JsonMap.remove_reread, ih, foldl_cons]
  have hkeys : ∀ entries : JsonMap, (entries.reread read).keys = entries.keys := by
    intro entries
    rw [JsonMap.reread_eq_map, JsonMap.keys, map_map]
    rfl
  unfold applyStateUpdate
  rw [Value.asObject_reread]
  cases entries.asObject with
  | none => rfl
  | some entries =>
    have hget : (s.reread read).registry.get? "storage" =
        (s.registry.get? "storage").map (·.reread read) := Value.get?_reread _ _
    simp only [Option.map_some, hget]
    cases s.registry.get? "storage" with
    | none => rfl
    | some storage =>
      simp only [Option.map_some, Value.asObject_reread]
      cases storage.asObject with
      | none => rfl
      | some storage =>
        simp only [Option.map_some, hset, hkeys, hdel]
        split
        · exact congrArg Except.ok (hupd _)
        · split
          · exact congrArg Except.ok (hupd _)
          · rfl

theorem applyLoopIteration_reread (loopId : String) (iteration : Nat) :
    applyLoopIteration bp (s.reread read) loopId iteration =
      (applyLoopIteration bp s loopId iteration).map (·.reread read) := by
  have hiter : (s.reread read).loopIter = s.loopIter := rfl
  unfold applyLoopIteration
  rw [hiter, foldl_resetBodyNode_reread]
  split
  · exact congrArg Except.ok (deliverFromPort_reread (by rfl) loopId "body")
  · cases s.loopIter[loopId]? with
    | none => rfl
    | some previous =>
      dsimp only
      split
      · rfl
      · exact congrArg Except.ok (deliverFromPort_reread (by rfl) loopId "body")

theorem applyMessageSendPrepared_reread (recipientId artifactPath : String) :
    applyMessageSendPrepared (s.reread read) node recipientId artifactPath =
      (applyMessageSendPrepared s node recipientId artifactPath).map (·.reread read) := by
  unfold applyMessageSendPrepared
  dsimp only [RunState.reread]
  cases s.messageDeliveries[node]? with
  | none => rfl
  | some previous =>
    dsimp only
    split <;> rfl

theorem applyKind_reread (ts : String) (kind : EventKind) :
    applyKind bp (s.reread read) ts (kind.reread read) =
      (applyKind bp s ts kind).map (·.reread read) := by
  cases kind with
  | runStarted runId hash blueprintId schema trigger =>
    exact applyRunStarted_reread s ts runId hash blueprintId schema trigger
  | nodeCompleted node output => exact congrArg Except.ok (completeNode_reread s node output)
  | decisionCompleted node output port =>
    refine congrArg Except.ok (deliverFromPort_reread ?_ node port)
    rw [RunState.setNodeOutput_reread]
    rfl
  | stateUpdated node op entries => exact applyStateUpdate_reread s op entries
  | messageSendPrepared node recipientId artifactPath =>
    exact applyMessageSendPrepared_reread s node recipientId artifactPath
  | branchTaken node | decisionMade node | loopCompleted node | approvalGranted node =>
    exact congrArg Except.ok (deliverFromPort_reread (by rfl) node _)
  | loopIteration node iteration => exact applyLoopIteration_reread s node iteration
  | nodeStarted | notification | nodeFailed | nodeSkipped | runCompleted | runFailed
  | awaitingApproval | approvalRejected => rfl

/-- Folding an event that is read back into a state that is read back. -/
theorem apply_reread (ev : Event) :
    apply bp (s.reread read) (ev.reread read) = (apply bp s ev).map (·.reread read) := by
  have hkind : applyKind bp (s.reread read) (ev.reread read).ts (ev.reread read).kind =
      (applyKind bp s ev.ts ev.kind).map (·.reread read) := applyKind_reread s ev.ts ev.kind
  unfold apply
  rw [hkind]
  cases applyKind bp s ev.ts ev.kind <;> rfl

theorem apply_reread_ok {s' : RunState} {ev : Event} (h : apply bp s ev = .ok s') :
    apply bp (s.reread read) (ev.reread read) = .ok (s'.reread read) := by
  rw [apply_reread, h]
  rfl

/-! ### States that differ in such numbers -/

/-- The state without such numbers. -/
def RunState.erase (s : RunState) : RunState := s.reread eraseFloat

/-- The kinds of events, without floating-point numbers. -/
def eraseKinds (kinds : List EventKind) : List EventKind := kinds.map (·.reread eraseFloat)

@[simp] theorem RunState.erase_reread : (s.reread read).erase = s.erase :=
  congrArg (fun registry => { s with registry := registry })
    (Value.reread_reread read eraseFloat s.registry)

theorem RunState.frame_of_erase {β : Type} {f : RunState → β} {s t : RunState}
    (h : t.erase = s.erase) (hf : ∀ s : RunState, f s.erase = f s) : f t = f s := by
  rw [← hf t, h, hf s]

theorem RunState.eq_of_erase {s t : RunState} (h : t.erase = s.erase) :
    t = { s with registry := t.registry } :=
  congrArg (fun u : RunState => { u with registry := t.registry }) h

theorem EventKind.reread_eq_awaitingApproval {kind : EventKind} {node : String} :
    kind.reread read = .awaitingApproval node ↔ kind = .awaitingApproval node := by
  cases kind <;> simp [EventKind.reread]

@[simp] theorem EventKind.erase_reread (kind : EventKind) :
    (kind.reread read).reread eraseFloat = kind.reread eraseFloat := by
  cases kind with
  | runStarted | nodeCompleted | decisionCompleted | stateUpdated =>
    simp only [EventKind.reread, Value.reread_reread]
    rfl
  | _ => rfl

variable {s : RunState}

/-- States that differ in such numbers take an event and its reading to states that do. -/
theorem apply_erase (read : ReadFloat) {t s' : RunState} {ev : Event} (ht : t.erase = s.erase)
    (h : apply bp s ev = .ok s') :
    ∃ t', apply bp t (ev.reread read) = .ok t' ∧ t'.erase = s'.erase := by
  have hread : (ev.reread read).reread eraseFloat = ev.reread eraseFloat :=
    congrArg (Event.mk ev.seq ev.ts) ev.kind.erase_reread
  have herase : (apply bp t (ev.reread read)).map RunState.erase = .ok s'.erase := by
    change (apply bp t (ev.reread read)).map (·.reread eraseFloat) = _
    rw [← apply_reread, hread]
    change apply bp t.erase _ = _
    rw [ht]
    exact apply_reread_ok s h
  cases happ : apply bp t (ev.reread read) with
  | error e =>
    rw [happ] at herase
    cases herase
  | ok t' =>
    rw [happ] at herase
    exact ⟨t', rfl, Except.ok.inj herase⟩

theorem eraseKinds_snoc {kinds log : List EventKind}
    (h : eraseKinds log = eraseKinds kinds) (kind : EventKind) :
    eraseKinds (log ++ [kind.reread read]) = eraseKinds (kinds ++ [kind]) := by
  unfold eraseKinds at h ⊢
  rw [map_append, map_append, h, map_singleton, map_singleton,
    EventKind.erase_reread]

theorem RunState.normal_reread : (s.reread read).Normal ↔ s.Normal := by
  have hid : ∀ v : Value, v.reread read = .object [("id", .string s.runId)] ↔
      v = .object [("id", .string s.runId)] := by
    refine fun v => ⟨fun h => ?_, fun h => by rw [h]; rfl⟩
    match v with
    | .object [(key, .string id)] => exact h
    | .object [] | .object (_ :: _ :: _) | .null | .bool _ | .number _ | .string _ | .array _
    | .object [(_, .null)] | .object [(_, .bool _)] | .object [(_, .number _)]
    | .object [(_, .array _)] | .object [(_, .object _)] =>
      simp [Value.reread, Value.rereadMembers] at h
  unfold RunState.Normal RunState.reread
  simp only [Value.get?_reread, Option.map_eq_some_iff, hid]
  constructor
  · rintro ⟨⟨_, hrun, rfl⟩, _, v, hstor, -⟩
    exact ⟨hrun, v, hstor⟩
  · rintro ⟨hrun, v, hstor⟩
    exact ⟨⟨_, hrun, rfl⟩, _, v, hstor, rfl⟩

theorem RunState.Normal.of_erase {t : RunState} (h : s.Normal) (ht : t.erase = s.erase) : t.Normal := by
  refine RunState.normal_reread.1 (?_ : t.erase.Normal)
  rw [ht]
  exact RunState.normal_reread.2 h

end Engine

end Wardian
